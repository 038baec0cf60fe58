import KeyedRows.Number.SignBit

namespace KeyedRows.Integer

/-- Why a text is not an integer of a fixed number of bits. -/
inductive Fault where
  | empty
  | notDigit
  | tooLarge
  | tooSmall
deriving DecidableEq, Repr

/-- The wording of a fault. -/
def Fault.message : Fault → String
  | .empty => "cannot parse integer from empty string"
  | .notDigit => "invalid digit found in string"
  | .tooLarge => "number too large to fit in target type"
  | .tooSmall => "number too small to fit in target type"

/-- Reads decimal digits behind the number `n`, from left to right. The first
character that is no digit, or that takes the number past the limit, decides the
fault. -/
def readDigits (limit : Nat) (overflow : Fault) : Nat → List Char → Except Fault Nat
  | n, [] => .ok n
  | n, c :: rest =>
    if c.isDigit then
      let next := 10 * n + (c.toNat - '0'.toNat)
      if limit < next then .error overflow else readDigits limit overflow next rest
    else .error .notDigit

/-- Reads at least one decimal digit. -/
def readMagnitude (limit : Nat) (overflow : Fault) (digits : List Char) : Except Fault Nat :=
  if digits.isEmpty then .error .notDigit else readDigits limit overflow 0 digits

/-- Reads a signed integer: an optional sign and decimal digits. -/
def parse (signBit : Nat) : List Char → Except Fault Int
  | [] => .error .empty
  | '-' :: digits => (readMagnitude signBit .tooSmall digits).map fun n => -(n : Int)
  | '+' :: digits => (readMagnitude (signBit - 1) .tooLarge digits).map Int.ofNat
  | digits => (readMagnitude (signBit - 1) .tooLarge digits).map Int.ofNat

/-- Reads an unsigned integer: an optional plus sign and decimal digits. -/
def parseUnsigned (signBit : Nat) : List Char → Except Fault Nat
  | [] => .error .empty
  | '+' :: digits => readMagnitude (2 * signBit - 1) .tooLarge digits
  | digits => readMagnitude (2 * signBit - 1) .tooLarge digits

/-- The decimal digits of an integer, behind a minus sign if it is negative. -/
def render (i : Int) : List Char :=
  if i < 0 then '-' :: Nat.toDigits 10 i.natAbs else Nat.toDigits 10 i.natAbs

end KeyedRows.Integer
