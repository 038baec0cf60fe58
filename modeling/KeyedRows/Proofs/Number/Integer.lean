import KeyedRows.Number.Integer

namespace KeyedRows.Integer

variable {limit n m : Nat} {overflow : Fault} {digits : List Char}

/-- Digits behind a number make it no smaller. -/
theorem le_ofDigitChars (n : Nat) (digits : List Char) : n ≤ Nat.ofDigitChars 10 digits n := by
  induction digits generalizing n with
  | nil => exact Nat.le_refl n
  | cons c rest ih =>
    rw [Nat.ofDigitChars_cons]
    have hrest := ih (10 * n + (c.toNat - '0'.toNat))
    omega

/-- Digits are read as the number they stand for, if that is within the limit. The
numbers on the way to it are no greater. Therefore looking at every step and looking
at the end come to the same, as long as the number read so far is within the limit. -/
theorem readDigits_eq_ok_iff (hn : n ≤ limit) : readDigits limit overflow n digits = .ok m ↔
    (∀ c ∈ digits, c.isDigit = true) ∧ Nat.ofDigitChars 10 digits n = m ∧ m ≤ limit := by
  induction digits generalizing n with
  | nil =>
    rw [readDigits, Except.ok.injEq]
    constructor
    · rintro rfl
      exact ⟨nofun, rfl, hn⟩
    · exact fun h => h.2.1
  | cons c rest ih =>
    rw [readDigits, List.forall_mem_cons, Nat.ofDigitChars_cons]
    by_cases hdigit : c.isDigit = true
    · rw [if_pos hdigit]
      dsimp only
      by_cases hover : limit < 10 * n + (c.toNat - '0'.toNat)
      · rw [if_pos hover]
        constructor
        · intro h
          cases h
        · rintro ⟨-, rfl, hle⟩
          have hgrow := le_ofDigitChars (10 * n + (c.toNat - '0'.toNat)) rest
          omega
      · rw [if_neg hover, ih (Nat.le_of_not_lt hover)]
        exact ⟨fun h => ⟨⟨hdigit, h.1⟩, h.2⟩, fun h => ⟨h.1.2, h.2⟩⟩
    · rw [if_neg hdigit]
      constructor
      · intro h
        cases h
      · intro h
        exact absurd h.1.1 hdigit

/-- The digits of a number in base ten are decimal digits, so none of them is a
sign, a blank or a separator. -/
theorem isDigit_of_mem_toDigits : ∀ c ∈ Nat.toDigits 10 n, c.isDigit = true :=
  fun _ => Nat.isDigit_of_mem_toDigits (by decide) (by decide)

private theorem readMagnitude_toDigits (h : n ≤ limit) :
    readMagnitude limit overflow (Nat.toDigits 10 n) = .ok n := by
  rw [readMagnitude, if_neg (mt List.isEmpty_iff.1 Nat.toDigits_ne_nil),
    readDigits_eq_ok_iff (Nat.zero_le limit)]
  exact ⟨isDigit_of_mem_toDigits, Nat.ofDigitChars_ten_toDigits, h⟩

/-- Digits alone have no sign in front of them. There must be at least one digit,
since a sign alone is no number. -/
theorem parse_of_digits {signBit : Nat} (hsome : digits ≠ []) (h : ∀ c ∈ digits, c.isDigit = true) :
    parse signBit digits = (readMagnitude (signBit - 1) .tooLarge digits).map Int.ofNat := by
  rw [parse]
  · exact hsome
  · rintro rest rfl
    exact absurd (h '-' List.mem_cons_self) (by decide)
  · rintro rest rfl
    exact absurd (h '+' List.mem_cons_self) (by decide)

/-- An unsigned integer is read back from its digits if it fits one bit more than
the weight of the sign bit says. Ordinals on a command line are read so. -/
theorem parseUnsigned_toDigits {signBit : Nat} (h : n ≤ 2 * signBit - 1) :
    parseUnsigned signBit (Nat.toDigits 10 n) = .ok n := by
  rw [parseUnsigned]
  · exact readMagnitude_toDigits h
  · exact Nat.toDigits_ne_nil
  · intro rest hplus
    exact absurd (isDigit_of_mem_toDigits '+' (hplus ▸ List.mem_cons_self)) (by decide)

/-- An integer of a number of bits is read back from its text. The bounds are those
of the bits. The least integer is covered, although its digits alone stand for a
number that is too large. -/
theorem parse_render {signBit : Nat} {i : Int} (hlow : -(signBit : Int) ≤ i) (hhigh : i < signBit) :
    parse signBit (render i) = .ok i := by
  rw [render]
  by_cases hneg : i < 0
  · -- The digits of the least integer stand for the weight of the sign bit, the limit behind a minus sign.
    have hle : i.natAbs ≤ signBit := by omega
    rw [if_pos hneg, parse, readMagnitude_toDigits hle]
    show Except.ok (-(i.natAbs : Int)) = Except.ok i
    rw [show -(i.natAbs : Int) = i by omega]
  · have hle : i.natAbs ≤ signBit - 1 := by omega
    rw [if_neg hneg, parse_of_digits Nat.toDigits_ne_nil isDigit_of_mem_toDigits,
      readMagnitude_toDigits hle]
    show Except.ok (i.natAbs : Int) = Except.ok i
    rw [show (i.natAbs : Int) = i by omega]

/-- The text of an integer is never empty. -/
theorem render_ne_nil {i : Int} : render i ≠ [] := by
  rw [render]
  split
  · exact List.cons_ne_nil _ _
  · exact Nat.toDigits_ne_nil

/-- The text of an integer has a minus sign and digits in it, and nothing else.
Hence it may stand in a list of texts whatever separates them. -/
theorem mem_render {i : Int} {c : Char} (h : c ∈ render i) : c = '-' ∨ c.isDigit = true := by
  rw [render] at h
  split at h
  · exact (List.mem_cons.1 h).imp_right (isDigit_of_mem_toDigits c)
  · exact .inr (isDigit_of_mem_toDigits c h)

end KeyedRows.Integer
