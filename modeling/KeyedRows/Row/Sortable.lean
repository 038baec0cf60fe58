import KeyedRows.Number.SignBit

namespace KeyedRows.Sortable

/-- A signed number of a fixed number of bits as an unsigned one in the same order:
it is moved up so that the least one becomes zero. The number of bits is given by
the weight of the top one. -/
def ofSigned (signBit : Nat) (n : Int) : Nat :=
  (n + signBit).toNat

/-- The signed number that was moved up. -/
def toSigned (signBit : Nat) (n : Nat) : Int :=
  (n : Int) - signBit

/-- A floating-point pattern as an unsigned number in the order of `compareTotal`.
Patterns without the sign bit move above all those with it, which come in the
opposite order. -/
def ofPattern (signBit : Nat) (pattern : Nat) : Nat :=
  if pattern < signBit then pattern + signBit else 2 * signBit - 1 - pattern

/-- The floating-point pattern that was moved. -/
def toPattern (signBit : Nat) (n : Nat) : Nat :=
  if n < signBit then 2 * signBit - 1 - n else n - signBit

/-- A signed number with its sign bit turned fits as many bits. -/
theorem ofSigned_lt {signBit : Nat} {n : Int} (hlow : -(signBit : Int) ≤ n)
    (hhigh : n < signBit) : ofSigned signBit n < 2 * signBit := by
  simp only [ofSigned]
  omega

/-- Turning the sign bit twice gives a signed number back. -/
theorem toSigned_ofSigned {signBit : Nat} {n : Int} (h : -(signBit : Int) ≤ n) :
    toSigned signBit (ofSigned signBit n) = n := by
  simp only [toSigned, ofSigned]
  omega

private theorem ofSigned_toSigned (signBit n : Nat) : ofSigned signBit (toSigned signBit n) = n := by
  simp only [toSigned, ofSigned]
  omega

/-- Signed numbers keep their order as unsigned ones once the sign bit is turned.
Only the lower bound is needed. -/
theorem ofSigned_lt_ofSigned {signBit : Nat} {a b : Int} (ha : -(signBit : Int) ≤ a)
    (hb : -(signBit : Int) ≤ b) : ofSigned signBit a < ofSigned signBit b ↔ a < b := by
  simp only [ofSigned]
  omega

/-- The bits of a floating-point number are found again from their sortable form, in
every case: both zeros, and what is not a number. -/
theorem toPattern_ofPattern {signBit pattern : Nat} (h : pattern < 2 * signBit) :
    toPattern signBit (ofPattern signBit pattern) = pattern := by
  simp only [toPattern, ofPattern]
  split <;> split <;> omega

private theorem ofPattern_toPattern {signBit n : Nat} (h : n < 2 * signBit) :
    ofPattern signBit (toPattern signBit n) = n := by
  simp only [toPattern, ofPattern]
  split <;> split <;> omega

/-- The sortable form of a floating-point number fits as many bits. -/
theorem ofPattern_lt {signBit pattern : Nat} (h : pattern < 2 * signBit) :
    ofPattern signBit pattern < 2 * signBit := by
  simp only [ofPattern]
  split <;> omega

private theorem toPattern_lt {signBit n : Nat} (h : n < 2 * signBit) :
    toPattern signBit n < 2 * signBit := by
  simp only [toPattern]
  split <;> omega

/-- A signed number that has been moved back fits its bits, so cutting it to them
changes nothing. -/
theorem ofSigned_bmod_toSigned {signBit n : Nat} (h : n < 2 * signBit) :
    ofSigned signBit ((toSigned signBit n).bmod (2 * signBit)) = n := by
  have hfits : (toSigned signBit n).bmod (2 * signBit) = toSigned signBit n := by
    apply Int.bmod_eq_of_le <;> simp only [toSigned] <;> omega
  rw [hfits, ofSigned_toSigned]

/-- A pattern that has been moved back fits its bits, so cutting it to them changes
nothing. -/
theorem ofPattern_mod_toPattern {signBit n : Nat} (h : n < 2 * signBit) :
    ofPattern signBit (toPattern signBit n % (2 * signBit)) = n := by
  rw [Nat.mod_eq_of_lt (toPattern_lt h), ofPattern_toPattern h]

end KeyedRows.Sortable
