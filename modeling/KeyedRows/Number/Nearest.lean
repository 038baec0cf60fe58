import KeyedRows.Number.Binary

namespace KeyedRows.Binary

/-- The fraction `num / den` divided by two to a power, as numerator and
denominator. -/
def scaleDown (num den : Nat) (exponent : Int) : Nat × Nat :=
  if 0 ≤ exponent then (num, den * Nat.pow 2 exponent.toNat)
  else (num * Nat.pow 2 (-exponent).toNat, den)

/-- The natural number nearest to a fraction; a half goes to the even neighbour. -/
def roundHalfEven (num den : Nat) : Nat :=
  let floor := num / den
  let rest := num % den
  if den < 2 * rest ∨ (den = 2 * rest ∧ floor % 2 = 1) then floor + 1 else floor

namespace Format

/-- The exponent at which the significand of a positive fraction has just as many
bits as the format keeps, or the least exponent for a fraction too small for that. -/
def exponentOf (fmt : Format) (num den : Nat) : Int :=
  let guess : Int :=
    max ((num.log2 : Int) - den.log2 - (fmt.fractionBits + 1)) fmt.leastExponent
  let (n, d) := scaleDown num den guess
  if 2 * fmt.leadingOne ≤ n / d then guess + 1 else guess

/-- The pattern of the number nearest to a fraction, a half going to the even
significand, and of infinity if the nearest number would need a larger exponent than
there is. A significand that rounds up to the next power of two carries into the
exponent field. -/
def nearest (fmt : Format) (num den : Nat) : Nat :=
  if num = 0 then 0
  else
    let exponent := fmt.exponentOf num den
    let (n, d) := scaleDown num den exponent
    min fmt.infinity
      ((exponent - fmt.leastExponent).toNat * fmt.leadingOne + roundHalfEven n d)

/-- A power of ten above every finite number of the formats in use, and whose
inverse is below half of every positive one. -/
def decimalReach : Int := 400

/-- The pattern of the number nearest to the decimal `digits * 10 ^ exponent`.
Decimals beyond the reach are infinite or zero without being worked out. -/
def nearestDecimal (fmt : Format) (digits : List Char) (exponent : Int) : Nat :=
  let significant := digits.dropWhile (· == '0')
  let top : Int := exponent + significant.length
  let n := Nat.ofDigitChars 10 significant 0
  if n = 0 ∨ top < -decimalReach then 0
  else if decimalReach < top then fmt.infinity
  else if 0 ≤ exponent then fmt.nearest (n * Nat.pow 10 exponent.toNat) 1
  else fmt.nearest n (Nat.pow 10 (-exponent).toNat)

end Format

end KeyedRows.Binary
