import KeyedRows.Error
import KeyedRows.Number.Shortest
import KeyedRows.Value.Basic

namespace KeyedRows

/-- What separates the items of a list. -/
def listSeparator : Char := ';'

namespace Scalar

/-- Reads one item. Of a bool, `0` and `false` are false and all other texts are
true. -/
def parseItem (kind : Scalar) (text : List Char) : Except TextFault kind.Item :=
  match kind with
  | .bool => .ok (text != ['0'] && text != ['f', 'a', 'l', 's', 'e'])
  | .int32 => ((Integer.parse signBit32 (Text.trim text)).mapError .integer).map Int32.ofInt
  | .int64 => ((Integer.parse signBit64 (Text.trim text)).mapError .integer).map Int64.ofInt
  | .float32 =>
    ((Binary.single.parse (Text.trim text)).mapError .float).map fun n => ⟨UInt32.ofNat n⟩
  | .float64 =>
    ((Binary.double.parse (Text.trim text)).mapError .float).map fun n => ⟨UInt64.ofNat n⟩
  | .string => .ok (String.ofList text)

/-- Writes one item as it stands in a list. -/
def renderItem : (kind : Scalar) → kind.Item → List Char
  | .bool, b => if b then ['t', 'r', 'u', 'e'] else ['f', 'a', 'l', 's', 'e']
  | .int32, n => Integer.render n.toInt
  | .int64, n => Integer.render n.toInt
  | .float32, x => Binary.single.render x.bits.toNat
  | .float64, x => Binary.double.render x.bits.toNat
  | .string, s => s.toList

/-- Reads one item of a column, with the column's type in the error. -/
def parseFor (kind : Scalar) (type : ColumnType) (text : List Char) : Except Error kind.Item :=
  (kind.parseItem text).mapError (.badText (.column type) (String.ofList text))

end Scalar

namespace Value

/-- The texts of the items of a list. No text at all is the list without items. -/
def itemTexts (text : List Char) : List (List Char) :=
  if text.isEmpty then [] else text.splitOn listSeparator

/-- Reads the items of a list one after the other. -/
def parseItems (kind : Scalar) : List (List Char) → Except Error (List kind.Item)
  | [] => .ok []
  | text :: rest => do
    let item ← kind.parseFor (.list kind) text
    let items ← parseItems kind rest
    return item :: items

/-- Reads a value of a type. A number may have blanks around it, a string is the
text itself, and the items of a list are separated by semicolons. -/
def parse (type : ColumnType) (text : String) : Except Error Value :=
  match type with
  | .scalar kind => (kind.parseFor (.scalar kind) text.toList).map (.scalar kind)
  | .list kind => (parseItems kind (itemTexts text.toList)).map (.list kind)

/-- The text of the items of a list, without the brackets around it. -/
def renderItems (kind : Scalar) (items : List kind.Item) : List Char :=
  [listSeparator].intercalate (items.map kind.renderItem)

/-- Writes a value. A string is quoted, except inside a list. -/
def render : Value → String
  | scalar .string s => Text.quoted s
  | scalar kind item => String.ofList (kind.renderItem item)
  | list kind items => String.ofList ('[' :: (renderItems kind items ++ [']']))

end Value

end KeyedRows
