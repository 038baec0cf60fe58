import KeyedRows.Text.Blank

namespace KeyedRows

/-- The type of one item: a whole scalar value, or an element of a list. -/
inductive Scalar where
  | bool
  | int32
  | int64
  | float32
  | float64
  | string
deriving DecidableEq, Repr

namespace Scalar

/-- All scalar types, in the order of their codes. -/
def all : List Scalar :=
  [bool, int32, int64, float32, float64, string]

/-- The encoded width of an item, if it is the same for all items. -/
def width? : Scalar → Option Nat
  | bool => some 1
  | int32 | float32 => some 4
  | int64 | float64 => some 8
  | string => none

/-- The name that is printed. -/
def name : Scalar → String
  | bool => "bool"
  | int32 => "int32"
  | int64 => "int64"
  | float32 => "float32"
  | float64 => "float64"
  | string => "string"

/-- The other names under which a type is known, in lower case. -/
def aliases : Scalar → List String
  | bool => ["boolean"]
  | int32 => ["int", "integer"]
  | int64 => ["long", "bigint"]
  | float32 => ["float"]
  | float64 => ["double"]
  | string => ["varchar"]

/-- The scalar type known under a name in lower case. -/
def named? (name : List Char) : Option Scalar :=
  all.find? fun kind => String.ofList name == kind.name || kind.aliases.contains (String.ofList name)

end Scalar

/-- The type of a column. -/
inductive ColumnType where
  | scalar (kind : Scalar)
  | list (item : Scalar)
deriving DecidableEq, Repr

namespace ColumnType

/-- All column types, in the order of their codes. -/
def all : List ColumnType :=
  Scalar.all.map scalar ++ Scalar.all.map list

/-- The type of a list's elements. -/
def item? : ColumnType → Option Scalar
  | scalar _ => none
  | list item => some item

/-- Whether the values of a column are lists. -/
def isList (type : ColumnType) : Bool :=
  type.item?.isSome

/-- The encoded width of a value, if it is the same for all values. -/
def width? : ColumnType → Option Nat
  | scalar kind => kind.width?
  | list _ => none

/-- The name that is printed: of a list, the name of its element type and brackets. -/
def name : ColumnType → String
  | scalar kind => kind.name
  | list item => item.name ++ "[]"

/-- Reads a type name without blanks around it and in lower case. A list is written
with brackets behind the element type, or as `list` of it in angle brackets. -/
def named? (name : List Char) : Option ColumnType :=
  match Text.dropEnd? ['[', ']'] name with
  | some item => (Scalar.named? item).map list
  | none =>
    match (Text.dropStart? ['l', 'i', 's', 't', '<'] name).bind (Text.dropEnd? ['>']) with
    | some item => (Scalar.named? item).map list
    | none => (Scalar.named? name).map scalar

/-- Reads a type name; blanks around it and the case of ASCII letters do not matter. -/
def parse? (text : List Char) : Option ColumnType :=
  named? ((Text.trim text).map Char.toLower)

end ColumnType

end KeyedRows
