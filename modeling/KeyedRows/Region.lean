import KeyedRows.Error
import KeyedRows.Row.Frame

namespace KeyedRows

/-- A region of cells that is filled from both ends: the first `front` and the last
`back` of them are written. A row is written from the front while its trailer is
laid down from the back, and a region that would overflow is left for a larger one. -/
structure Region where
  cells : Array UInt8
  front : Nat
  back : Nat
  /-- The order of the numbers that have no order of their own. -/
  order : ByteOrder
  /-- The two written parts do not overlap. -/
  fits : front + back ≤ cells.size

namespace Region

/-- The size of the smallest region. -/
def leastCapacity : Nat := 16

/-- Writes bytes over the cells from a place on. -/
def overwrite (cells : Array UInt8) (place : Nat) : Bytes → Array UInt8
  | [] => cells
  | b :: rest => overwrite (cells.setIfInBounds place b) (place + 1) rest

/-- Overwriting changes no cell count, even where the bytes run past the last cell. -/
@[simp]
theorem size_overwrite (cells : Array UInt8) (place : Nat) (bytes : Bytes) :
    (overwrite cells place bytes).size = cells.size := by
  induction bytes generalizing cells place with
  | nil => rfl
  | cons b rest ih => simp [overwrite, ih]

/-- A region with nothing written. -/
def empty (capacity : Nat) (order : ByteOrder) : Region :=
  ⟨Array.replicate (max capacity leastCapacity) 0, 0, 0, order, by simp⟩

/-- The number of cells. -/
def capacity (region : Region) : Nat :=
  region.cells.size

/-- The number of cells that are not written. -/
def free (region : Region) : Nat :=
  region.cells.size - region.front - region.back

/-- The bytes written from the front, in the order of writing. -/
def frontBytes (region : Region) : Bytes :=
  (region.cells.extract 0 region.front).toList

/-- The bytes written from the back, the latest first. -/
def backBytes (region : Region) : Bytes :=
  (region.cells.extract (region.cells.size - region.back) region.cells.size).toList

/-- The bytes written so far, those from the front first. -/
def toBytes (region : Region) : Bytes :=
  region.frontBytes ++ region.backBytes

/-- Moves both written parts to a region of at least a size, and of at least twice
the present one. -/
def grow (region : Region) (needed : Nat) : Region :=
  let size := max needed (2 * region.cells.size)
  ⟨region.cells.extract 0 region.front ++
      Array.replicate (size - region.front - region.back) 0 ++
      region.cells.extract (region.cells.size - region.back) region.cells.size,
    region.front, region.back, region.order, by
      have := region.fits
      simp
      omega⟩

/-- Makes room for a number of bytes. Numbers of cells are unbounded here: a request
that takes the size of the region past addressable memory, which no allocation can
meet, lies outside the model. -/
def reserve (region : Region) (count : Nat) : Region :=
  if region.free < count then region.grow (region.front + region.back + count) else region

/-- A region at least doubles when it moves, and gets the size that was asked for if
that is more. -/
theorem capacity_grow (region : Region) (needed : Nat) :
    (region.grow needed).capacity = max needed (2 * region.capacity) := by
  have := region.fits
  simp [grow, capacity]
  omega

@[simp]
theorem front_reserve (region : Region) (count : Nat) :
    (region.reserve count).front = region.front := by
  unfold reserve
  split <;> rfl

@[simp]
theorem back_reserve (region : Region) (count : Nat) :
    (region.reserve count).back = region.back := by
  unfold reserve
  split <;> rfl

/-- After a reservation there is as much room as was asked for. Nothing is asked of
the region or of the count. -/
theorem le_free_reserve (region : Region) (count : Nat) :
    count ≤ (region.reserve count).free := by
  unfold reserve
  split
  · have h := region.capacity_grow (region.front + region.back + count)
    have hfront : (region.grow (region.front + region.back + count)).front = region.front := rfl
    have hback : (region.grow (region.front + region.back + count)).back = region.back := rfl
    simp only [capacity] at h
    simp only [free, hfront, hback, h]
    omega
  · omega

/-- After a reservation the written parts and the bytes that were asked for fit the
region together. This is what every write needs to stay a region. -/
theorem front_add_back_le_size_reserve (region : Region) (count : Nat) :
    region.front + region.back + count ≤ (region.reserve count).cells.size := by
  have h := region.le_free_reserve count
  have hfits := (region.reserve count).fits
  simp only [free, front_reserve, back_reserve] at h hfits
  omega

/-- Writes bytes at the front, making room for them first. -/
def push (region : Region) (bytes : Bytes) : Region :=
  let roomy := region.reserve bytes.length
  ⟨overwrite roomy.cells roomy.front bytes, roomy.front + bytes.length, roomy.back, roomy.order, by
    have := region.front_add_back_le_size_reserve bytes.length
    simp only [roomy, size_overwrite, front_reserve, back_reserve]
    omega⟩

/-- Writes one byte at the back, before those already there. -/
def pushBack (region : Region) (byte : UInt8) : Region :=
  let roomy := region.reserve 1
  ⟨roomy.cells.setIfInBounds (roomy.cells.size - roomy.back - 1) byte, roomy.front, roomy.back + 1,
    roomy.order, by
      have := region.front_add_back_le_size_reserve 1
      simp only [roomy, Array.size_setIfInBounds, front_reserve, back_reserve]
      omega⟩

/-- Writes zero bytes. As with `reserve`, no more of them than memory can hold are
meant. -/
def pushZeros (region : Region) (count : Nat) : Region :=
  region.push (List.replicate count 0)

/-- Writes a signed number of 32 bits in the order of the region. -/
def pushInt32 (region : Region) (n : Int32) : Region :=
  region.push (region.order.word 4 n.toUInt32.toNat)

/-- Writes a signed number of 64 bits in the order of the region. -/
def pushInt64 (region : Region) (n : Int64) : Region :=
  region.push (region.order.word 8 n.toUInt64.toNat)

/-- Writes an unsigned number of 32 bits, big-endian. -/
def pushUInt32 (region : Region) (n : UInt32) : Region :=
  region.push (ByteOrder.big.word 4 n.toNat)

/-- Writes an unsigned number of 64 bits, big-endian. -/
def pushUInt64 (region : Region) (n : UInt64) : Region :=
  region.push (ByteOrder.big.word 8 n.toNat)

/-- Writes bytes behind their length, with room made for both at once. -/
def pushSized (region : Region) (bytes : Bytes) : Except Error Region :=
  if bytes.length < Frame.lengthLimit then
    let roomy := region.reserve (Frame.lengthSize + bytes.length)
    .ok ((roomy.pushInt32 (Int32.ofNat bytes.length)).push bytes)
  else .error (.payloadTooLong bytes.length)

/-- One thing to do to a region. Counts are those of `pushZeros` and `reserve`:
requests beyond addressable memory lie outside the model. -/
inductive Step where
  | byte (byte : UInt8)
  | bytes (bytes : Bytes)
  /-- Writes zero bytes, no more of them than memory can hold. -/
  | zeros (count : Nat)
  | int32 (n : Int32)
  | int64 (n : Int64)
  | uint32 (n : UInt32)
  | uint64 (n : UInt64)
  | sized (bytes : Bytes)
  | back (byte : UInt8)
  /-- Makes room, for no more bytes than memory can hold. -/
  | reserve (count : Nat)
deriving DecidableEq

/-- Does one thing to a region. -/
def Step.apply : Step → Region → Except Error Region
  | byte b, region => .ok (region.push [b])
  | bytes bs, region => .ok (region.push bs)
  | zeros count, region => .ok (region.pushZeros count)
  | int32 n, region => .ok (region.pushInt32 n)
  | int64 n, region => .ok (region.pushInt64 n)
  | uint32 n, region => .ok (region.pushUInt32 n)
  | uint64 n, region => .ok (region.pushUInt64 n)
  | sized bs, region => region.pushSized bs
  | back b, region => .ok (region.pushBack b)
  | reserve count, region => .ok (region.reserve count)

end Region

end KeyedRows
