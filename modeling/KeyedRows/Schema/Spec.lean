import KeyedRows.Schema.Plan
import KeyedRows.Text.Blank

namespace KeyedRows

/-- A flag of a column description. -/
inductive ColumnFlag where
  | key
  | null
  | notNull
deriving DecidableEq, Repr

namespace ColumnFlag

/-- The text of a flag. -/
def name : ColumnFlag → String
  | key => "key"
  | null => "null"
  | notNull => "notnull"

/-- The flag with a name in lower case. -/
def named? (name : List Char) : Option ColumnFlag :=
  [key, null, notNull].find? fun flag => flag.name == String.ofList name

/-- Sets what a flag says. Of `null` and `notnull` the last one counts. -/
def apply (column : Column) : ColumnFlag → Column
  | key => { column with isKey := true }
  | null => { column with nullable := true }
  | notNull => { column with nullable := false }

end ColumnFlag

namespace Schema

/-- Reads the flags behind a type name. -/
def readFlags (entry : List Char) : Column → List (List Char) → Except Error Column
  | column, [] => .ok column
  | column, part :: rest =>
    let name := (Text.trim part).map Char.toLower
    match ColumnFlag.named? name with
    | some flag => readFlags entry (flag.apply column) rest
    | none => .error (.unknownFlag (String.ofList name) (String.ofList entry))

/-- Reads one column description without blanks around it. A column is nullable and
outside the key unless a flag says otherwise. -/
def readEntry (position : Nat) (entry : List Char) : Except Error Column :=
  if entry.isEmpty then .error (.emptyEntry position)
  else
    match entry.splitOn ':' with
    | [] => .error (.emptyEntry position)
    | typeText :: flags =>
      match ColumnType.parse? typeText with
      | none => .error (.unknownType (String.ofList typeText))
      | some type => readFlags entry { type, ordinal := position } flags

/-- Reads column descriptions, the first of which has a given position. -/
def readEntries : Nat → List (List Char) → Except Error Schema
  | _, [] => .ok []
  | position, entry :: rest => do
    let column ← readEntry position (Text.trim entry)
    let columns ← readEntries (position + 1) rest
    return column :: columns

/-- Reads and checks a schema: columns separated by commas, each a type name and
flags separated by colons, as in `int32:key:notnull,string:key,bool`. The ordinal of
a column is its position. -/
def parse (text : String) : Except Error Schema := do
  let columns ← readEntries 0 (text.toList.splitOn ',')
  columns.check
  return columns

/-- The description of a column: its type and what differs from a plain column. -/
def describeColumn (column : Column) : List Char :=
  column.type.name.toList ++ (if column.isKey then ":key".toList else []) ++
    (if column.nullable then [] else ":notnull".toList)

/-- The description of a schema whose ordinals follow position. -/
def describe (columns : Schema) : String :=
  String.ofList ([','].intercalate (columns.map describeColumn))

end Schema

end KeyedRows
