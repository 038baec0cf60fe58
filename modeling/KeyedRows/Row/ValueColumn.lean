import KeyedRows.Row.KeyColumn

namespace KeyedRows

namespace Scalar

/-- Writes an item. Only a string can be too long. -/
def writeItem : (kind : Scalar) → kind.Item → Region → Except Error Region
  | .bool, b, region => .ok (region.push [if b then 1 else 0])
  | .int32, n, region => .ok (region.pushInt32 n)
  | .int64, n, region => .ok (region.pushInt64 n)
  | .float32, x, region => .ok (region.pushInt32 x.bits.toInt32)
  | .float64, x, region => .ok (region.pushInt64 x.bits.toInt64)
  | .string, s, region => region.pushSized (Utf8.encode s)

/-- Writes items one behind the other. -/
def writeItems (kind : Scalar) : List kind.Item → Region → Except Error Region
  | [], region => .ok region
  | item :: items, region => do
    let region ← kind.writeItem item region
    writeItems kind items region

/-- Reads an item. Any byte but zero is true. -/
def readItem : (kind : Scalar) → Reader kind.Item
  | .bool => return (← Reader.byte) != 0
  | .int32 => Reader.int32
  | .int64 => Reader.int64
  | .float32 => return ⟨(← Reader.int32).toUInt32⟩
  | .float64 => return ⟨(← Reader.int64).toUInt64⟩
  | .string => do readText (← Reader.sized)

/-- Moves over an item. -/
def skipItem (kind : Scalar) : Reader Unit :=
  match kind.width? with
  | some width => Reader.skip width
  | none => Reader.skipSized

/-- The least number of bytes of an item: of a string, those of its length. -/
def leastSize (kind : Scalar) : Nat :=
  kind.width?.getD Frame.lengthSize

/-- Reads the count of a list. A count that the bytes left cannot hold is refused
before any item is read. -/
def readCount (kind : Scalar) : Reader Nat := do
  let count ← Reader.length
  let left ← Reader.remaining
  let needed := count * kind.leastSize
  if left < needed then Reader.fail (.truncated needed left) else return count

/-- Moves over the items of a list: at once if all have one width. -/
def skipItems (kind : Scalar) (count : Nat) : Reader Unit :=
  match kind.width? with
  | some width => Reader.skip (count * width)
  | none => do
    let _ ← Reader.repeated Reader.skipSized count

end Scalar

namespace Column

/-- Writes a slot of a column outside the key. Items stand as they are, numbers in
the configured order, strings behind their length and lists behind their count. For
the items of a list room is made at once, except for strings. -/
def writeValue (column : Column) (slot : Slot) (region : Region) : Except Error Region := do
  column.checkSlot slot
  let marked := column.writeMarker slot region
  match slot with
  | none => return marked
  | some (.scalar kind item) => kind.writeItem item marked
  | some (.list kind items) =>
    if items.length < Frame.lengthLimit then
      let counted := marked.pushInt32 (Int32.ofNat items.length)
      kind.writeItems items (counted.reserve (items.length * kind.width?.getD 0))
    else throw (.listTooLong items.length)

/-- Reads a slot of a column outside the key. -/
def readValue (column : Column) : Reader Slot := do
  if ← column.readMarker then
    match column.type with
    | .scalar kind => return some (.scalar kind (← kind.readItem))
    | .list kind =>
      let count ← kind.readCount
      return some (.list kind (← Reader.repeated kind.readItem count))
  else return none

/-- Moves over a slot of a column outside the key. -/
def skipValue (column : Column) : Reader Unit := do
  if ← column.readMarker then
    match column.type with
    | .scalar kind => kind.skipItem
    | .list kind =>
      let count ← kind.readCount
      kind.skipItems count

end Column

end KeyedRows
