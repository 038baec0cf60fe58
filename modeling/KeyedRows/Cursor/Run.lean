import KeyedRows.Cursor

namespace KeyedRows.Cursor

/-- A cursor is another one moved over some bytes at its front and some at its end. -/
structure Moved (after before : Cursor) (front back : Nat) : Prop where
  data : after.data = before.data
  pos : after.pos = before.pos + front
  stop : after.stop + back = before.stop
  order : after.order = before.order

/-- The next bytes of the data, as many as are asked for. -/
def next (cursor : Cursor) (count : Nat) : Bytes :=
  (cursor.data.toList.drop cursor.pos).take count

/-- The signed number of 32 bits that bytes hold in an order. -/
def signed (order : ByteOrder) (bytes : Bytes) : Int :=
  (UInt32.ofNat (order.number bytes)).toInt32.toInt

/-- The length that the next bytes announce. -/
def announced (cursor : Cursor) : Int :=
  signed cursor.order (cursor.next Frame.lengthSize)

namespace Step

/-- The number of bytes that a step takes from the front, if it does not depend on
what they are. -/
def size? : Step → Option Nat
  | byte => some 1
  | bytes n | skip n => some n
  | int32 | uint32 => some 4
  | int64 | uint64 => some 8
  | sized | skipSized | count | back => none

/-- The number of bytes that a step takes behind a length, if it reads one. -/
def payload? (length : Nat) : Step → Option Nat
  | sized | skipSized => some length
  | count => some 0
  | _ => none

/-- What a step is to give for the bytes that it takes. -/
def reading (order : ByteOrder) : Step → Bytes → Reading
  | byte, taken | back, taken => .byte (taken.headD 0)
  | bytes _, taken => .bytes taken
  | skip _, _ | skipSized, _ => .nothing
  | int32, taken => .int32 (UInt32.ofNat (order.number taken)).toInt32
  | int64, taken => .int64 (UInt64.ofNat (order.number taken)).toInt64
  | uint32, taken => .uint32 (UInt32.ofNat (ByteOrder.big.number taken))
  | uint64, taken => .uint64 (UInt64.ofNat (ByteOrder.big.number taken))
  | sized, taken => .bytes (taken.drop Frame.lengthSize)
  | count, taken => .count (signed order taken).toNat

end Step

/-- A step that was done: the cursor before it, what came of it, and the cursor
after it. The record of a run is the list of its events. -/
structure Event where
  step : Step
  before : Cursor
  outcome : Except Error Reading
  after : Cursor

namespace Event

/-- The bytes that an event took from the front. -/
def front (event : Event) : Bytes :=
  (event.before.data.extract event.before.pos event.after.pos).toList

/-- The byte that an event took from the back. -/
def back? (event : Event) : Option UInt8 :=
  match event.step with
  | .back =>
    match event.outcome with
    | .ok (.byte b) => some b
    | _ => none
  | _ => none

end Event

/-- The event of one step. -/
def event (cursor : Cursor) (step : Step) : Event :=
  ⟨step, cursor, (step.reader cursor).1, (step.reader cursor).2⟩

/-- The events of steps, one behind the other. A step that fails does not end the
series. -/
def trace : Cursor → List Step → List Event
  | _, [] => []
  | cursor, step :: steps => cursor.event step :: trace (cursor.event step).after steps

/-- The cursor after steps, one behind the other. -/
def run (cursor : Cursor) (steps : List Step) : Cursor :=
  steps.foldl (fun cursor step => (cursor.event step).after) cursor

@[simp]
theorem run_nil (cursor : Cursor) : cursor.run [] = cursor :=
  rfl

@[simp]
theorem run_cons (cursor : Cursor) (step : Step) (steps : List Step) :
    cursor.run (step :: steps) = (cursor.event step).after.run steps :=
  rfl

end KeyedRows.Cursor
