import KeyedRows.Bytes.Basic

namespace KeyedRows.Utf8

/-- Where and how a byte string stops being UTF-8. -/
structure Fault where
  /-- The length of the longest beginning that is whole characters. -/
  validUpTo : Nat
  /-- The number of bytes that cannot start a character, or none if the string ends
  inside one. -/
  badLength : Option Nat
deriving DecidableEq, Repr

/-- The bytes of a text. -/
def encode (text : String) : Bytes :=
  text.toUTF8.toList

/-- The ranges in which the bytes after a first byte must lie: none for ASCII, up to
three for a longer character. The second byte is narrowed so that no character has
two forms, no surrogate has one, and none lies above U+10FFFF. No character starts
with a byte without ranges. -/
def followers? (lead : UInt8) : Option (List (UInt8 × UInt8)) :=
  if lead < 0x80 then some []
  else if lead < 0xC2 then none
  else if lead < 0xE0 then some [(0x80, 0xBF)]
  else if lead = 0xE0 then some [(0xA0, 0xBF), (0x80, 0xBF)]
  else if lead = 0xED then some [(0x80, 0x9F), (0x80, 0xBF)]
  else if lead < 0xF0 then some [(0x80, 0xBF), (0x80, 0xBF)]
  else if lead = 0xF0 then some [(0x90, 0xBF), (0x80, 0xBF), (0x80, 0xBF)]
  else if lead < 0xF4 then some [(0x80, 0xBF), (0x80, 0xBF), (0x80, 0xBF)]
  else if lead = 0xF4 then some [(0x80, 0x8F), (0x80, 0xBF), (0x80, 0xBF)]
  else none

/-- Checks the bytes after a first byte, `count` bytes of the character being good
so far. The answer is the length of the bad part, or none inside if the bytes run
out. -/
def badFollower? (count : Nat) : List (UInt8 × UInt8) → Bytes → Option (Option Nat)
  | [], _ => none
  | _ :: _, [] => some none
  | (low, high) :: ranges, b :: rest =>
    if low ≤ b ∧ b ≤ high then badFollower? (count + 1) ranges rest else some (some count)

/-- The first fault of a byte string whose beginning, `valid` bytes long, has been
checked. -/
def faultFrom? (valid : Nat) : Bytes → Option Fault
  | [] => none
  | lead :: rest =>
    match followers? lead with
    | none => some ⟨valid, some 1⟩
    | some ranges =>
      match badFollower? 1 ranges rest with
      | some badLength => some ⟨valid, badLength⟩
      | none => faultFrom? (valid + 1 + ranges.length) (rest.drop ranges.length)
termination_by bytes => bytes.length
decreasing_by
  simp only [List.length_drop, List.length_cons]
  omega

/-- The first fault of a byte string. -/
def fault? (bytes : Bytes) : Option Fault :=
  faultFrom? 0 bytes

/-- Reads a byte string as text. -/
def decode (bytes : Bytes) : Except Fault String :=
  match String.fromUTF8? bytes.toByteArray with
  | some text => .ok text
  | none => .error ((fault? bytes).getD ⟨bytes.length, none⟩)

/-- The wording of a fault. -/
def Fault.message : Fault → String
  | ⟨index, some length⟩ => s!"invalid utf-8 sequence of {length} bytes from index {index}"
  | ⟨index, none⟩ => s!"incomplete utf-8 byte sequence from index {index}"

end KeyedRows.Utf8
