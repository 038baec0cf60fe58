import KeyedRows.Row.Layout

namespace KeyedRows

/-- How closely a byte of a stored row is looked at when it is read. Most bytes must
be as they were written; of a bool only counts whether it is zero, and what fills up
a place is not looked at. -/
inductive Scrutiny where
  /-- No other byte would do. -/
  | exact
  /-- Any byte but zero stands for true. -/
  | flag
  /-- Any byte would do. -/
  | filler
deriving DecidableEq, Repr

namespace Scrutiny

/-- Whether a byte passes for the one that is written. -/
def Passes (written found : UInt8) : Scrutiny → Prop
  | exact => found = written
  | flag => found = 0 ↔ written = 0
  | filler => True

/-- Whether a byte is one that is written where bytes are looked at so. -/
def Written (found : UInt8) : Scrutiny → Prop
  | exact => True
  | flag => found = 0 ∨ found = 1
  | filler => found = 0

/-- Bytes that are all looked at exactly. -/
def exactly (count : Nat) : List Scrutiny :=
  List.replicate count exact

end Scrutiny

/-- How the groups of a byte string of some length are looked at: the filling of the
last one not at all. -/
def Group.scrutiny (length : Nat) : List Scrutiny :=
  let left := length % Frame.groupSize
  Scrutiny.exactly (length / Frame.groupSize * (Frame.groupSize + 1) + left) ++
    List.replicate (Frame.groupSize - left) .filler ++ Scrutiny.exactly 1

namespace Scalar

/-- How an item of a key is looked at. -/
def keyScrutiny : (kind : Scalar) → kind.Item → List Scrutiny
  | .bool, _ => [.flag]
  | .int32, _ | .float32, _ => Scrutiny.exactly 4
  | .int64, _ | .float64, _ => Scrutiny.exactly 8
  | .string, s => Group.scrutiny (Utf8.encode s).length

/-- How an item outside the key is looked at. -/
def valueScrutiny : (kind : Scalar) → kind.Item → List Scrutiny
  | .bool, _ => [.flag]
  | .int32, _ | .float32, _ => Scrutiny.exactly 4
  | .int64, _ | .float64, _ => Scrutiny.exactly 8
  | .string, s => Scrutiny.exactly (Frame.lengthSize + (Utf8.encode s).length)

end Scalar

namespace Value

/-- How a value in a key is looked at, behind its marker. -/
def keyScrutiny : Value → List Scrutiny
  | scalar kind item => kind.keyScrutiny item
  | list _ _ => []

/-- How a value outside the key is looked at, behind its marker. -/
def valueScrutiny : Value → List Scrutiny
  | scalar kind item => kind.valueScrutiny item
  | list kind items => Scrutiny.exactly Frame.lengthSize ++ items.flatMap kind.valueScrutiny

end Value

namespace Column

/-- How the marker of a slot is looked at, and the zeros that stand for an absent
value. -/
def markerScrutiny (column : Column) (slot : Slot) : List Scrutiny :=
  if column.nullable then
    if slot.isSome then Scrutiny.exactly Frame.markerSize
    else Scrutiny.exactly Frame.markerSize ++ List.replicate column.fillerSize .filler
  else []

/-- How a slot of a key column is looked at. -/
def keyScrutiny (column : Column) (slot : Slot) : List Scrutiny :=
  column.markerScrutiny slot ++ slot.elim [] Value.keyScrutiny

/-- How a slot of a column outside the key is looked at. -/
def valueScrutiny (column : Column) (slot : Slot) : List Scrutiny :=
  column.markerScrutiny slot ++ slot.elim [] Value.valueScrutiny

end Column

namespace Record

/-- How the slots of columns are looked at, one behind the other. -/
def scrutinyBy (slotScrutiny : Column → Slot → List Scrutiny) (record : Record) (columns : Schema) :
    List Scrutiny :=
  columns.flatMap fun column => slotScrutiny column (record.value? column.ordinal)

/-- How the key of a row is looked at. Any tag byte will do, but it is no part of
the row. -/
def keyScrutiny (record : Record) (columns : Schema) : List Scrutiny :=
  Scrutiny.exactly Frame.openingSize ++ record.scrutinyBy Column.keyScrutiny columns.keyColumns ++
    Scrutiny.exactly Frame.trailerSize

/-- How the value of a row is looked at. -/
def valueScrutiny (record : Record) (columns : Schema) : List Scrutiny :=
  Scrutiny.exactly Frame.headerSize ++ record.scrutinyBy Column.valueScrutiny columns.valueColumns

end Record

end KeyedRows
