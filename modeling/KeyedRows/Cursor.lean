import KeyedRows.Error
import KeyedRows.Row.Frame

namespace KeyedRows

/-- A cursor over bytes that are read from both ends. Those from `pos` to `stop` are
unread. -/
structure Cursor where
  data : Array UInt8
  pos : Nat
  stop : Nat
  /-- The order of the numbers that have no order of their own. -/
  order : ByteOrder
  pos_le_stop : pos ≤ stop
  stop_le_size : stop ≤ data.size

namespace Cursor

/-- A cursor before the first of some bytes. -/
def of (bytes : Bytes) (order : ByteOrder) : Cursor :=
  ⟨bytes.toArray, 0, bytes.toArray.size, order, Nat.zero_le _, Nat.le_refl _⟩

/-- The number of unread bytes. -/
def remaining (cursor : Cursor) : Nat :=
  cursor.stop - cursor.pos

/-- The unread bytes. -/
def unread (cursor : Cursor) : Bytes :=
  (cursor.data.extract cursor.pos cursor.stop).toList

/-- Whether all bytes are read. -/
def atEnd (cursor : Cursor) : Bool :=
  cursor.remaining == 0

end Cursor

/-- A reader moves a cursor and gives a result or fails. A reader that fails may
have moved the cursor. -/
def Reader (α : Type) : Type :=
  Cursor → Except Error α × Cursor

namespace Reader

variable {α β : Type}

/-- Reads nothing. -/
protected def pure (a : α) : Reader α :=
  fun cursor => (.ok a, cursor)

/-- Reads one thing after another; the first failure ends it. -/
protected def bind (reader : Reader α) (next : α → Reader β) : Reader β :=
  fun cursor =>
    match reader cursor with
    | (.ok a, cursor) => next a cursor
    | (.error e, cursor) => (.error e, cursor)

instance : Monad Reader where
  pure := Reader.pure
  bind := Reader.bind

/-- Fails where the cursor stands. -/
def fail (error : Error) : Reader α :=
  fun cursor => (.error error, cursor)

/-- Moves over bytes. -/
def skip (count : Nat) : Reader Unit := fun cursor =>
  if h : count ≤ cursor.remaining then
    (.ok (), { cursor with
      pos := cursor.pos + count
      pos_le_stop := by
        have := cursor.pos_le_stop
        simp only [Cursor.remaining] at h
        omega })
  else (.error (.truncated count cursor.remaining), cursor)

/-- Reads bytes. -/
def take (count : Nat) : Reader Bytes := fun cursor =>
  match skip count cursor with
  | (.ok (), after) => (.ok (cursor.data.extract cursor.pos after.pos).toList, after)
  | (.error e, after) => (.error e, after)

/-- A successful move leaves that many bytes fewer. -/
theorem remaining_skip {count : Nat} {cursor after : Cursor}
    (h : skip count cursor = (.ok (), after)) : after.remaining + count = cursor.remaining := by
  unfold skip at h
  split at h
  · rename_i hroom
    cases h
    have hroom' : count ≤ cursor.stop - cursor.pos := hroom
    change cursor.stop - (cursor.pos + count) + count = cursor.stop - cursor.pos
    omega
  · cases h

/-- A successful reading of bytes leaves that many fewer. Readers that go on until
their bytes say so end because of this. -/
theorem remaining_take {count : Nat} {cursor after : Cursor} {bytes : Bytes}
    (h : take count cursor = (.ok bytes, after)) :
    after.remaining + count = cursor.remaining := by
  unfold take at h
  split at h
  · rename_i hskip
    cases h
    exact remaining_skip hskip
  · cases h

/-- Reads one byte. -/
def byte : Reader UInt8 := fun cursor =>
  if h : cursor.pos < cursor.stop then
    have := cursor.stop_le_size
    (.ok cursor.data[cursor.pos], { cursor with pos := cursor.pos + 1, pos_le_stop := h })
  else (.error (.truncated 1 cursor.remaining), cursor)

/-- Reads the last unread byte. -/
def lastByte : Reader UInt8 := fun cursor =>
  if h : cursor.pos < cursor.stop then
    have := cursor.stop_le_size
    (.ok cursor.data[cursor.stop - 1],
      { cursor with
        stop := cursor.stop - 1
        pos_le_stop := by omega
        stop_le_size := by omega })
  else (.error (.truncated 1 cursor.remaining), cursor)

/-- The number of unread bytes. -/
def remaining : Reader Nat :=
  fun cursor => (.ok cursor.remaining, cursor)

/-- The order of the cursor. -/
def order : Reader ByteOrder :=
  fun cursor => (.ok cursor.order, cursor)

/-- Reads a number of a width in an order. -/
def numberIn (order : ByteOrder) (width : Nat) : Reader Nat := do
  let bytes ← take width
  return order.number bytes

/-- Reads a number of a width in the order of the cursor. -/
def number (width : Nat) : Reader Nat := do
  numberIn (← order) width

/-- Reads a signed number of 32 bits in the order of the cursor. -/
def int32 : Reader Int32 := do
  return (UInt32.ofNat (← number 4)).toInt32

/-- Reads a signed number of 64 bits in the order of the cursor. -/
def int64 : Reader Int64 := do
  return (UInt64.ofNat (← number 8)).toInt64

/-- Reads an unsigned number of 32 bits, big-endian. -/
def uint32 : Reader UInt32 := do
  return UInt32.ofNat (← numberIn .big 4)

/-- Reads an unsigned number of 64 bits, big-endian. -/
def uint64 : Reader UInt64 := do
  return UInt64.ofNat (← numberIn .big 8)

/-- Reads a length or a count, which must not be negative. -/
def length : Reader Nat := do
  let n ← int32
  if n.toInt < 0 then fail (.negativeLength n.toInt) else return n.toInt.toNat

/-- Reads bytes behind their length. -/
def sized : Reader Bytes := do
  take (← length)

/-- Moves over bytes behind their length. -/
def skipSized : Reader Unit := do
  skip (← length)

/-- Reads a number of things of one kind. -/
def repeated (item : Reader α) : Nat → Reader (List α)
  | 0 => return []
  | count + 1 => do
    let a ← item
    let rest ← repeated item count
    return a :: rest

end Reader

namespace Cursor

/-- One thing to read. -/
inductive Step where
  | byte
  | bytes (count : Nat)
  | skip (count : Nat)
  | int32
  | int64
  | uint32
  | uint64
  | sized
  | skipSized
  | count
  | back
deriving DecidableEq

/-- What was read. -/
inductive Reading where
  | byte (byte : UInt8)
  | bytes (bytes : Bytes)
  | nothing
  | int32 (n : Int32)
  | int64 (n : Int64)
  | uint32 (n : UInt32)
  | uint64 (n : UInt64)
  | count (n : Nat)
deriving DecidableEq

/-- The reader of one thing. -/
def Step.reader : Step → Reader Reading
  | byte => return .byte (← Reader.byte)
  | bytes n => return .bytes (← Reader.take n)
  | skip n => do
    Reader.skip n
    return .nothing
  | int32 => return .int32 (← Reader.int32)
  | int64 => return .int64 (← Reader.int64)
  | uint32 => return .uint32 (← Reader.uint32)
  | uint64 => return .uint64 (← Reader.uint64)
  | sized => return .bytes (← Reader.sized)
  | skipSized => do
    Reader.skipSized
    return .nothing
  | count => return .count (← Reader.length)
  | back => return .byte (← Reader.lastByte)

end Cursor

end KeyedRows
