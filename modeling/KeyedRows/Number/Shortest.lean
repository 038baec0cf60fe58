import KeyedRows.Number.Binary

namespace KeyedRows.Binary

/-- The numbers that round to a positive binary number, in quarters of its last
place: the number itself and the two ends, which count if the significand is even. -/
structure Neighbourhood where
  low : Nat
  mid : Nat
  high : Nat
  closed : Bool
deriving DecidableEq, Repr

/-- The neighbourhood of a number. Below a power of two the gap is half as wide,
except next to the numbers that have the least exponent too. -/
def Format.neighbourhood (fmt : Format) (significand : Nat) (exponent : Int) : Neighbourhood :=
  let narrow := significand = fmt.leadingOne ∧ fmt.leastExponent < exponent
  { low := if narrow then 4 * significand - 1 else 4 * significand - 2
    mid := 4 * significand
    high := 4 * significand + 2
    closed := significand % 2 == 0 }

/-- A decimal grid: the multiples of a power of ten. One step is `step` units, and
one quarter of the last place of the number in question is `quarter` units. -/
structure Grid where
  quarter : Nat
  step : Nat
deriving DecidableEq, Repr

/-- The grid of the multiples of `10 ^ power` for a number whose last place is
`2 ^ exponent`. -/
def Grid.of (exponent power : Int) : Grid :=
  { quarter := Nat.pow 2 (exponent - 2).toNat * Nat.pow 10 (-power).toNat
    step := Nat.pow 2 (2 - exponent).toNat * Nat.pow 10 power.toNat }

/-- Whether the `n`-th point of a grid lies in a neighbourhood. -/
def Grid.inside (grid : Grid) (near : Neighbourhood) (n : Nat) : Bool :=
  let point := n * grid.step
  let low := near.low * grid.quarter
  let high := near.high * grid.quarter
  (low < point && point < high) || (near.closed && (low == point || point == high))

/-- The point of a grid that lies in a neighbourhood and is nearest to its middle.
It is one of the two points around the middle, and of two at one distance the upper. -/
def Grid.pick? (grid : Grid) (near : Neighbourhood) : Option Nat :=
  let mid := near.mid * grid.quarter
  let below := mid / grid.step
  match grid.inside near below, grid.inside near (below + 1) with
  | true, true => some (if 2 * (mid % grid.step) < grid.step then below else below + 1)
  | true, false => some below
  | false, true => some (below + 1)
  | false, false => none

/-- Tries ever finer grids, from `10 ^ power` down. -/
def search (near : Neighbourhood) (exponent : Int) : Nat → Int → Nat × Int
  | 0, power =>
    let grid := Grid.of exponent power
    (near.mid * grid.quarter / grid.step, power)
  | tries + 1, power =>
    match (Grid.of exponent power).pick? near with
    | some digits => (digits, power)
    | none => search near exponent tries (power - 1)

/-- A power of ten above `significand * 2 ^ exponent`, and at most a few times too
large. -/
def powerAbove (significand : Nat) (exponent : Int) : Int :=
  (significand.log2 + 1 + exponent) * 30103 / 100000 + 2

/-- The shortest decimal that rounds to a positive number, and among those the
nearest to it, as `digits * 10 ^ power`. It has at most seventeen digits in the
formats in use, and the search starts at most three grids above the first digit. -/
def Format.shortest (fmt : Format) (significand : Nat) (exponent : Int) : Nat × Int :=
  search (fmt.neighbourhood significand exponent) exponent 24 (powerAbove significand exponent)

/-- The decimal `digits * 10 ^ power` written out in full, with no exponent: a point
only before decimal places, and a zero before it if there is nothing else. -/
def positional (digits : Nat) (power : Int) : List Char :=
  let text := Nat.toDigits 10 digits
  let places := (-power).toNat
  if places = 0 then text ++ List.replicate power.toNat '0'
  else if places < text.length then
    text.take (text.length - places) ++ '.' :: text.drop (text.length - places)
  else '0' :: '.' :: (List.replicate (places - text.length) '0' ++ text)

/-- The text of a bit pattern: the shortest digits that read back. -/
def Format.render (fmt : Format) (bits : Nat) : List Char :=
  match fmt.datum bits with
  | .notANumber => ['N', 'a', 'N']
  | .infinite negative => if negative then ['-', 'i', 'n', 'f'] else ['i', 'n', 'f']
  | .finite negative significand exponent =>
    let magnitude :=
      if significand = 0 then ['0']
      else
        let (digits, power) := fmt.shortest significand exponent
        positional digits power
    if negative then '-' :: magnitude else magnitude

end KeyedRows.Binary
