import KeyedRows.Schema.Spec
import Mathlib.Data.List.Forall2

namespace KeyedRows

/-- A text as names are looked up: without blanks around it, and with ASCII letters
in lower case. -/
def Text.folded (text : List Char) : List Char :=
  (trim text).map Char.toLower

/-- All names of a scalar type, in lower case. -/
def Scalar.names (kind : Scalar) : List String :=
  kind.name :: kind.aliases

/-- The spellings of a type: a name of a scalar type, and for a list of it the same
with brackets behind it, or in angle brackets behind `list`. -/
inductive ColumnType.Spelled : ColumnType → List Char → Prop
  | scalar {kind : Scalar} {name : String} (hname : name ∈ kind.names) :
      Spelled (.scalar kind) name.toList
  | brackets {item : Scalar} {name : String} (hname : name ∈ item.names) :
      Spelled (.list item) (name.toList ++ ['[', ']'])
  | angles {item : Scalar} {name : String} (hname : name ∈ item.names) :
      Spelled (.list item) (['l', 'i', 's', 't', '<'] ++ name.toList ++ ['>'])

namespace Schema

/-- The entries of a text: what stands between commas, without blanks around it. -/
def entries (text : String) : List (List Char) :=
  (text.toList.splitOn ',').map Text.trim

/-- Whether an entry gives a column a type and flags: the type's spelling and the
flags' names stand in it with colons between them. -/
def Describes (entry : List Char) (type : ColumnType) (flags : List ColumnFlag) : Prop :=
  ∃ (typeText : List Char) (flagTexts : List (List Char)),
    entry = [':'].intercalate (typeText :: flagTexts) ∧
      (∀ part ∈ typeText :: flagTexts, ':' ∉ part) ∧
      type.Spelled (Text.folded typeText) ∧
      flagTexts.map Text.folded = flags.map (·.name.toList)

/-- Whether an entry at a place of a text describes a column. The column is part of
the key if any flag says so, and nullable unless the last flag that says anything of
that says otherwise. -/
def DescribesColumn (entry : List Char) (place : Nat) (column : Column) : Prop :=
  ∃ flags : List ColumnFlag, Describes entry column.type flags ∧ column.ordinal = place ∧
    (column.isKey = true ↔ .key ∈ flags) ∧
    (column.nullable = true ↔ (flags.filter (· ≠ .key)).getLast? = none ∨
      (flags.filter (· ≠ .key)).getLast? = some .null)

/-- Whether the entries of a text describe columns, one column each, with their
places as ordinals. -/
def DescribesColumns (text : String) (columns : Schema) : Prop :=
  List.Forall₂ (fun (entry, place) column => DescribesColumn entry place column)
    (entries text).zipIdx columns

end Schema

end KeyedRows
