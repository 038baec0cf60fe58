import KeyedRows.Bytes.Basic
import KeyedRows.Text.Quoted

namespace KeyedRows

/-- A way of writing byte strings as hexadecimal text and of reading them from it.
Why a text is not the form of a byte string is said in words. -/
structure HexForm where
  encode : Bytes → String
  decode : String → Except String Bytes

namespace HexForm

/-- Whether what is written is read as the bytes that it was written from. -/
def ReadsBack (hex : HexForm) : Prop :=
  ∀ bytes, hex.decode (hex.encode bytes) = .ok bytes

/-- The two digits of a byte. -/
def digits (byte : UInt8) : List Char :=
  [Nat.digitChar (byte.toNat / 16), Nat.digitChar (byte.toNat % 16)]

/-- The value of an ASCII hexadecimal digit. -/
def digitValue? (byte : UInt8) : Option Nat :=
  let n := byte.toNat
  if 48 ≤ n ∧ n ≤ 57 then some (n - 48)
  else if 97 ≤ n ∧ n ≤ 102 then some (n - 87)
  else if 65 ≤ n ∧ n ≤ 70 then some (n - 55)
  else none

/-- The complaint about a byte that is no digit. It is shown as the character with
its code. -/
def badDigit (byte : UInt8) (position : Nat) : String :=
  let shown := Text.quotedChar (Char.ofNat byte.toNat)
  s!"Invalid character {shown} at position {position}"

/-- Reads a text of even length pair by pair; `position` is the place of the first
pair. -/
def decodePairs (position : Nat) : Bytes → Except String Bytes
  | high :: low :: rest =>
    match digitValue? high, digitValue? low with
    | none, _ => .error (badDigit high position)
    | some _, none => .error (badDigit low (position + 1))
    | some h, some l => (decodePairs (position + 2) rest).map (UInt8.ofNat (16 * h + l) :: ·)
  | _ => .ok []

/-- The form with two digits a byte, in lower case when written and in either case
when read. Lengths and positions count the bytes of the text's UTF-8 form, and an
odd length is reported before any bad digit. -/
def digitPairs : HexForm where
  encode bytes := String.ofList (bytes.flatMap digits)
  decode text :=
    let bytes := text.toUTF8.toList
    if bytes.length % 2 = 1 then .error "Odd number of digits" else decodePairs 0 bytes

end HexForm

end KeyedRows
