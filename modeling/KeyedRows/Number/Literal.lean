import KeyedRows.Number.Nearest

namespace KeyedRows.Binary

/-- Why a text is not a floating-point number. -/
inductive Fault where
  | empty
  | invalid
deriving DecidableEq, Repr

/-- The wording of a fault. -/
def Fault.message : Fault → String
  | .empty => "cannot parse float from empty string"
  | .invalid => "invalid float literal"

/-- A floating-point number as written, before it is rounded to a format. -/
inductive Literal where
  | notANumber (negative : Bool)
  | infinite (negative : Bool)
  /-- The decimal `digits * 10 ^ exponent`. -/
  | decimal (negative : Bool) (digits : List Char) (exponent : Int)
deriving DecidableEq, Repr

namespace Literal

/-- The size that an exponent keeps once it is out of all proportion: digits past it
are read but no longer counted. -/
def exponentCap : Nat := 65536

/-- The value of the digits of an exponent. -/
def exponentValue (digits : List Char) : Nat :=
  digits.foldl (fun n c => if n < exponentCap then 10 * n + (c.toNat - '0'.toNat) else n) 0

/-- Reads the digits of an exponent, of which there is at least one. -/
def readExponentDigits? (digits : List Char) : Option Nat :=
  if !digits.isEmpty && digits.all Char.isDigit then some (exponentValue digits) else none

/-- Reads what follows the letter of an exponent: an optional sign and digits up to
the end. -/
def readExponent? : List Char → Option Int
  | '-' :: digits => (readExponentDigits? digits).map fun n => -(n : Int)
  | '+' :: digits => (readExponentDigits? digits).map Int.ofNat
  | digits => (readExponentDigits? digits).map Int.ofNat

/-- Reads the end of a decimal: nothing, or an exponent. -/
def readTail? : List Char → Option Int
  | [] => some 0
  | c :: rest => if c = 'e' ∨ c = 'E' then readExponent? rest else none

/-- The digits behind a decimal point, and what follows them; none without a point. -/
def splitFraction : List Char → List Char × List Char
  | '.' :: rest => (rest.takeWhile Char.isDigit, rest.dropWhile Char.isDigit)
  | rest => ([], rest)

/-- Reads digits with an optional point among or around them, and an optional
exponent. -/
def readDecimal? (negative : Bool) (text : List Char) : Option Literal :=
  let whole := text.takeWhile Char.isDigit
  let (fraction, rest) := splitFraction (text.dropWhile Char.isDigit)
  if whole.isEmpty && fraction.isEmpty then none
  else
    (readTail? rest).map fun exponent =>
      .decimal negative (whole ++ fraction) (exponent - fraction.length)

/-- Reads the name of a number that has no digits, in letters of either case. -/
def readName? (negative : Bool) (text : List Char) : Option Literal :=
  match String.ofList (text.map Char.toLower) with
  | "nan" => some (.notANumber negative)
  | "inf" => some (.infinite negative)
  | "infinity" => some (.infinite negative)
  | _ => none

/-- Reads a number behind its sign. -/
def readUnsigned? (negative : Bool) (text : List Char) : Option Literal :=
  (readDecimal? negative text).or (readName? negative text)

/-- Reads a whole text as a number with an optional sign. -/
def parse : List Char → Except Fault Literal
  | [] => .error .empty
  | '-' :: rest => (readUnsigned? true rest).elim (.error .invalid) .ok
  | '+' :: rest => (readUnsigned? false rest).elim (.error .invalid) .ok
  | rest => (readUnsigned? false rest).elim (.error .invalid) .ok

end Literal

/-- The pattern nearest to a number as written. -/
def Format.ofLiteral (fmt : Format) : Literal → Nat
  | .notANumber negative => fmt.withSign negative fmt.quiet
  | .infinite negative => fmt.withSign negative fmt.infinity
  | .decimal negative digits exponent => fmt.withSign negative (fmt.nearestDecimal digits exponent)

/-- Reads a text as a pattern. -/
def Format.parse (fmt : Format) (text : List Char) : Except Fault Nat :=
  (Literal.parse text).map fmt.ofLiteral

end KeyedRows.Binary
