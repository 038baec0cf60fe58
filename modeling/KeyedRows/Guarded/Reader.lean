import KeyedRows.Cursor

namespace KeyedRows

/-- What goes wrong in a computation that is not allowed to. -/
inductive Fault where
  /-- An index or a range lies outside of what it is taken from. -/
  | outOfRange
  /-- A difference is below zero. -/
  | belowZero
  /-- A sum or a product is above its limit. -/
  | tooLarge
  /-- A branch is reached that is there for no input. -/
  | impossible
deriving DecidableEq, Repr

namespace Guard

/-- A difference of numbers that have no sign. -/
def difference (a b : Nat) : Except Fault Nat :=
  if b ≤ a then .ok (a - b) else .error .belowZero

/-- A sum or a product, up to a limit. -/
def upTo (limit n : Nat) : Except Fault Nat :=
  if n ≤ limit then .ok n else .error .tooLarge

/-- The element at an index. -/
def element {α : Type} (elements : List α) (index : Nat) : Except Fault α :=
  match elements[index]? with
  | some a => .ok a
  | none => .error .outOfRange

/-- The bytes of a range. -/
def range (bytes : Bytes) (start stop : Nat) : Except Fault Bytes :=
  if start ≤ stop ∧ stop ≤ bytes.length then .ok ((bytes.drop start).take (stop - start))
  else .error .outOfRange

end Guard

/-- A cursor that promises nothing about its two ends. The bytes from `pos` to
`stop` are unread, if these places are where they should be. -/
structure Bare where
  data : Bytes
  pos : Nat
  stop : Nat
  order : ByteOrder
deriving DecidableEq

/-- A reader that takes nothing for granted. Every index, range, difference, sum and
product is checked where it is computed, and what a check finds is a fault, which no
error of a reader hides. -/
def Guarded (α : Type) : Type :=
  Bare → Except Fault (Except Error α × Bare)

namespace Guarded

variable {α β : Type}

/-- Reads nothing. -/
protected def pure (a : α) : Guarded α :=
  fun bare => .ok (.ok a, bare)

/-- Reads one thing after another; the first fault or failure ends it. -/
protected def bind (guarded : Guarded α) (next : α → Guarded β) : Guarded β :=
  fun bare =>
    match guarded bare with
    | .ok (.ok a, after) => next a after
    | .ok (.error e, after) => .ok (.error e, after)
    | .error fault => .error fault

instance : Monad Guarded where
  pure := Guarded.pure
  bind := Guarded.bind

/-- Fails where the cursor stands. -/
def fail (error : Error) : Guarded α :=
  fun bare => .ok (.error error, bare)

/-- Computes something from the cursor. -/
def look (f : Bare → Except Fault α) : Guarded α :=
  fun bare => (f bare).map fun a => (.ok a, bare)

/-- Computes something. -/
def check (result : Except Fault α) : Guarded α :=
  look fun _ => result

/-- Moves the cursor. -/
def move (f : Bare → Except Fault Bare) : Guarded Unit :=
  fun bare => (f bare).map fun after => (.ok (), after)

/-- The number of unread bytes. -/
def remaining : Guarded Nat :=
  look fun bare => Guard.difference bare.stop bare.pos

/-- Fails if fewer bytes are unread. -/
def require (count : Nat) : Guarded Unit := do
  let left ← remaining
  if left < count then fail (.truncated count left) else return

/-- Moves the position over bytes. The length of the data is a machine word, so sums
that do not pass it are machine words too. -/
def advance (count : Nat) : Guarded Unit :=
  move fun bare => do
    let pos ← Guard.upTo bare.data.length (bare.pos + count)
    return { bare with pos }

/-- Moves the end over one byte. -/
def retreat : Guarded Unit :=
  move fun bare => do
    let stop ← Guard.difference bare.stop 1
    return { bare with stop }

/-- Moves over bytes. -/
def skip (count : Nat) : Guarded Unit := do
  require count
  advance count

/-- Reads bytes. -/
def take (count : Nat) : Guarded Bytes := do
  require count
  let bytes ← look fun bare => do
    let stop ← Guard.upTo bare.data.length (bare.pos + count)
    Guard.range bare.data bare.pos stop
  advance count
  return bytes

/-- What succeeds one after another succeeds part by part. -/
theorem bind_ok_iff {guarded : Guarded α} {next : α → Guarded β} {bare after : Bare} {b : β} :
    (guarded >>= next) bare = .ok (.ok b, after) ↔
      ∃ a middle, guarded bare = .ok (.ok a, middle) ∧ next a middle = .ok (.ok b, after) := by
  change Guarded.bind guarded next bare = _ ↔ _
  rw [Guarded.bind]
  rcases guarded bare with fault | ⟨e | a, middle⟩ <;> simp [and_assoc]

/-- What looks at the cursor leaves it where it is. -/
theorem look_eq_ok {f : Bare → Except Fault α} {bare after : Bare} {a : α}
    (h : look f bare = .ok (.ok a, after)) : after = bare := by
  rw [look] at h
  cases hf : f bare with
  | error fault => simp [hf, Except.map] at h
  | ok b =>
    simp only [hf, Except.map] at h
    cases h
    rfl

private theorem require_eq_ok {count : Nat} {bare after : Bare}
    (h : require count bare = .ok (.ok (), after)) :
    after = bare ∧ bare.pos + count ≤ bare.stop := by
  obtain ⟨left, middle, hleft, h⟩ := bind_ok_iff.1 h
  obtain rfl := look_eq_ok hleft
  rw [remaining, look, Guard.difference] at hleft
  split at hleft
  · cases hleft
    split at h
    · cases h
    · cases h
      exact ⟨rfl, by omega⟩
  · cases hleft

private theorem advance_eq_ok {count : Nat} {bare after : Bare}
    (h : advance count bare = .ok (.ok (), after)) :
    after = { bare with pos := bare.pos + count } := by
  rw [advance, move, Guard.upTo] at h
  split at h
  · cases h
    rfl
  · cases h

/-- A successful reading of bytes leaves that many fewer. -/
theorem left_take {count : Nat} {bare after : Bare} {bytes : Bytes}
    (h : take count bare = .ok (.ok bytes, after)) :
    after.stop - after.pos + count = bare.stop - bare.pos := by
  obtain ⟨⟨⟩, first, hrequire, hbehind⟩ := bind_ok_iff.1 h
  obtain ⟨hfirst, hroom⟩ := require_eq_ok hrequire
  obtain ⟨found, second, hlook, hlast⟩ := bind_ok_iff.1 hbehind
  have hsecond := look_eq_ok hlook
  obtain ⟨⟨⟩, third, hadvance, hpure⟩ := bind_ok_iff.1 hlast
  have hthird := advance_eq_ok hadvance
  cases hpure
  rw [hthird, hsecond, hfirst]
  simp only
  omega

/-- Reads one byte. -/
def byte : Guarded UInt8 := do
  require 1
  let b ← look fun bare => Guard.element bare.data bare.pos
  advance 1
  return b

/-- Reads the last unread byte. -/
def lastByte : Guarded UInt8 := do
  require 1
  retreat
  look fun bare => Guard.element bare.data bare.stop

/-- Reads a number of a width in an order. -/
def numberIn (order : ByteOrder) (width : Nat) : Guarded Nat := do
  let bytes ← take width
  let word ← check (Guard.range bytes 0 width)
  return order.number word

/-- Reads a number of a width in the order of the cursor. -/
def number (width : Nat) : Guarded Nat := do
  let order ← look fun bare => .ok bare.order
  numberIn order width

/-- Reads a signed number of 32 bits in the order of the cursor. -/
def int32 : Guarded Int32 := do
  return (UInt32.ofNat (← number 4)).toInt32

/-- Reads a signed number of 64 bits in the order of the cursor. -/
def int64 : Guarded Int64 := do
  return (UInt64.ofNat (← number 8)).toInt64

/-- Reads an unsigned number of 32 bits, big-endian. -/
def uint32 : Guarded UInt32 := do
  return UInt32.ofNat (← numberIn .big 4)

/-- Reads an unsigned number of 64 bits, big-endian. -/
def uint64 : Guarded UInt64 := do
  return UInt64.ofNat (← numberIn .big 8)

/-- Reads a length or a count, which must not be negative. -/
def length : Guarded Nat := do
  let n ← int32
  if n.toInt < 0 then fail (.negativeLength n.toInt) else return n.toInt.toNat

/-- Reads bytes behind their length. -/
def sized : Guarded Bytes := do
  take (← length)

/-- Moves over bytes behind their length. -/
def skipSized : Guarded Unit := do
  skip (← length)

/-- Reads a number of things of one kind. -/
def repeated (item : Guarded α) : Nat → Guarded (List α)
  | 0 => return []
  | count + 1 => do
    let a ← item
    let rest ← repeated item count
    return a :: rest

end Guarded

end KeyedRows
