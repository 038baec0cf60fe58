import KeyedRows.Row.Group
import KeyedRows.Row.Marker
import KeyedRows.Row.Sortable

namespace KeyedRows

namespace Scalar

/-- Writes an item so that its bytes compare as the item does. -/
def writeKeyItem : (kind : Scalar) → kind.Item → Region → Region
  | .bool, b, region => region.push [if b then 1 else 0]
  | .int32, n, region => region.pushUInt32 (UInt32.ofNat (Sortable.ofSigned signBit32 n.toInt))
  | .int64, n, region => region.pushUInt64 (UInt64.ofNat (Sortable.ofSigned signBit64 n.toInt))
  | .float32, x, region => region.pushUInt32 (UInt32.ofNat (Sortable.ofPattern signBit32 x.bits.toNat))
  | .float64, x, region => region.pushUInt64 (UInt64.ofNat (Sortable.ofPattern signBit64 x.bits.toNat))
  | .string, s, region => region.push (Group.encode (Utf8.encode s))

/-- Reads bytes as text. -/
def readText (bytes : Bytes) : Reader String :=
  match Utf8.decode bytes with
  | .ok text => pure text
  | .error fault => Reader.fail (.notText fault)

/-- Reads an item of a key. Any byte but zero is true. -/
def readKeyItem : (kind : Scalar) → Reader kind.Item
  | .bool => return (← Reader.byte) != 0
  | .int32 => return Int32.ofInt (Sortable.toSigned signBit32 (← Reader.uint32).toNat)
  | .int64 => return Int64.ofInt (Sortable.toSigned signBit64 (← Reader.uint64).toNat)
  | .float32 => return ⟨UInt32.ofNat (Sortable.toPattern signBit32 (← Reader.uint32).toNat)⟩
  | .float64 => return ⟨UInt64.ofNat (Sortable.toPattern signBit64 (← Reader.uint64).toNat)⟩
  | .string => do readText (← Group.reader)

/-- Moves over an item of a key. -/
def skipKeyItem (kind : Scalar) : Reader Unit :=
  match kind.width? with
  | some width => Reader.skip width
  | none => do
    let _ ← Group.reader

end Scalar

namespace Column

/-- Writes a slot of a key column. The bytes compare as the slot does, whatever
follows them, so all numbers are big-endian here and the order of the region does
not matter. -/
def writeKey (column : Column) (slot : Slot) (region : Region) : Except Error Region := do
  column.checkSlot slot
  let marked := column.writeMarker slot region
  match slot with
  | none => return marked
  | some (.scalar kind item) => return kind.writeKeyItem item marked
  | some (.list _ _) => throw (.notKeyType column.ordinal column.type)

/-- Reads a slot of a key column. -/
def readKey (column : Column) : Reader Slot := do
  if ← column.readMarker then
    match column.type with
    | .scalar kind => return some (.scalar kind (← kind.readKeyItem))
    | .list _ => Reader.fail (.notKeyType column.ordinal column.type)
  else return none

/-- Moves over a slot of a key column. -/
def skipKey (column : Column) : Reader Unit := do
  if ← column.readMarker then
    match column.type with
    | .scalar kind => kind.skipKeyItem
    | .list _ => Reader.fail (.notKeyType column.ordinal column.type)

end Column

end KeyedRows
