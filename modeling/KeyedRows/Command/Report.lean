import KeyedRows.Bytes.Hex
import KeyedRows.Schema.Catalog
import KeyedRows.Text.Padded

namespace KeyedRows.Command

/-- One column of a row that was read, with its value as text. -/
structure ColumnLine where
  ordinal : Nat
  type : ColumnType
  text : String
deriving DecidableEq, Repr

/-- The text of a line. -/
def ColumnLine.render (line : ColumnLine) : String :=
  Text.padLeft 4 (toString line.ordinal) ++ " " ++ Text.padRight 10 line.type.name ++ " " ++
    line.text ++ "\n"

/-- The answer of a command. -/
inductive Report where
  /-- A written row. -/
  | written (key value : Bytes)
  /-- A row that was read, its columns in schema order. -/
  | read (lines : List ColumnLine)
  /-- The bounds of a scan, the second one excluded. -/
  | bounds (start stop : Bytes)
  /-- A schema and the file that it is to be stored in. -/
  | stored (path : String) (columns : Schema)
deriving DecidableEq

namespace Report

/-- The file that an answer asks to be written. -/
def file? : Report → Option (String × Bytes)
  | stored path columns => some (path, Catalog.toBytes columns)
  | _ => none

/-- The text of an answer. -/
def render (hex : HexForm) : Report → String
  | written key value => "key:   " ++ hex.encode key ++ "\nvalue: " ++ hex.encode value ++ "\n"
  | read lines => String.join (lines.map ColumnLine.render)
  | bounds start stop => "start: " ++ hex.encode start ++ "\nend:   " ++ hex.encode stop ++ "\n"
  | stored path columns => "saved " ++ toString columns.length ++ " columns to " ++ path ++ "\n"

end Report

end KeyedRows.Command
