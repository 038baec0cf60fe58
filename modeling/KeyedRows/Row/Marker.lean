import KeyedRows.Cursor
import KeyedRows.Record
import KeyedRows.Region
import KeyedRows.Schema.Column

namespace KeyedRows.Column

/-- The number of zeros that stand for an absent value. -/
def fillerSize (column : Column) : Nat :=
  column.type.width?.getD 0

/-- Checks that a slot may stand in a column. -/
def checkSlot (column : Column) : Slot → Except Error Unit
  | some value =>
    if value.type = column.type then .ok ()
    else .error (.wrongType column.ordinal column.type value.type)
  | none => if column.nullable then .ok () else .error (.valueMissing column.ordinal)

/-- Writes the marker of a slot, if the column has markers, and the zeros of an
absent value. An absent value of fixed width keeps its place in this way; an absent
string or list is its marker alone. -/
def writeMarker (column : Column) (slot : Slot) (region : Region) : Region :=
  match column.nullable, slot with
  | false, _ => region
  | true, some _ => region.push [Frame.presentMarker]
  | true, none => (region.push [Frame.absentMarker]).pushZeros column.fillerSize

/-- Reads the marker, if the column has markers, and moves over the zeros of an
absent value. The answer is whether a value follows. The zeros are not looked at. -/
def readMarker (column : Column) : Reader Bool := do
  if column.nullable then
    let marker ← Reader.byte
    if marker = Frame.presentMarker then return true
    else if marker = Frame.absentMarker then
      Reader.skip column.fillerSize
      return false
    else Reader.fail (.badNullMarker marker column.ordinal)
  else return true

end KeyedRows.Column
