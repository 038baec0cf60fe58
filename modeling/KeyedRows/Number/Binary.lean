namespace KeyedRows.Binary

/-- The field widths of a binary floating-point format. A pattern is the sign bit,
the exponent field and the fraction, from the top; here it is the natural number
that these bits spell. -/
structure Format where
  fractionBits : Nat
  exponentBits : Nat
deriving DecidableEq, Repr

/-- The format of 32 bits. -/
def single : Format := ⟨23, 8⟩

/-- The format of 64 bits. -/
def double : Format := ⟨52, 11⟩

/-- What a bit pattern stands for. -/
inductive Datum where
  | notANumber
  | infinite (negative : Bool)
  /-- The number `significand * 2 ^ exponent`, below zero or a negative zero if
  `negative`. -/
  | finite (negative : Bool) (significand : Nat) (exponent : Int)
deriving DecidableEq, Repr

namespace Format

/-- The weight of the leading one that the significands of all but the smallest
numbers have, above the bits of the fraction. -/
def leadingOne (fmt : Format) : Nat :=
  Nat.pow 2 fmt.fractionBits

/-- The number of values of the exponent field. -/
def fieldCount (fmt : Format) : Nat :=
  Nat.pow 2 fmt.exponentBits

/-- The weight of the sign bit. -/
def signWeight (fmt : Format) : Nat :=
  fmt.fieldCount * fmt.leadingOne

/-- The exponent of the numbers closest to zero: every finite number is a multiple
of two to this power. -/
def leastExponent (fmt : Format) : Int :=
  2 - (fmt.fieldCount / 2 : Nat) - fmt.fractionBits

/-- The pattern of positive infinity: an exponent field of ones and no fraction. -/
def infinity (fmt : Format) : Nat :=
  (fmt.fieldCount - 1) * fmt.leadingOne

/-- The pattern of the positive quiet value that is not a number: infinity with the
top bit of the fraction set. -/
def quiet (fmt : Format) : Nat :=
  fmt.infinity + fmt.leadingOne / 2

/-- A pattern without sign, given a sign. -/
def withSign (fmt : Format) (negative : Bool) (magnitude : Nat) : Nat :=
  if negative then fmt.signWeight + magnitude else magnitude

/-- What a bit pattern stands for. Below the least exponent field the significand
has no leading one of its own. -/
def datum (fmt : Format) (bits : Nat) : Datum :=
  let negative := bits / fmt.signWeight % 2 == 1
  let field := bits / fmt.leadingOne % fmt.fieldCount
  let fraction := bits % fmt.leadingOne
  if field = fmt.fieldCount - 1 then
    if fraction = 0 then .infinite negative else .notANumber
  else if field = 0 then .finite negative fraction fmt.leastExponent
  else .finite negative (fmt.leadingOne + fraction) (fmt.leastExponent + field - 1)

/-- Whether two patterns stand for equal numbers: the two zeros do, and what is not
a number equals nothing. -/
def numericEq (fmt : Format) (a b : Nat) : Bool :=
  match fmt.datum a, fmt.datum b with
  | .notANumber, _ => false
  | _, .notANumber => false
  | .finite _ 0 _, .finite _ 0 _ => true
  | _, _ => a == b

end Format

end KeyedRows.Binary
