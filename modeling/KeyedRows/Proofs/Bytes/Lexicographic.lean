import KeyedRows.Bytes.Basic

namespace KeyedRows

private theorem compare_div_then_mod (base m n : Nat) :
    (compare (m / base) (n / base)).then (compare (m % base) (n % base)) = compare m n := by
  have hm := Nat.div_add_mod m base
  have hn := Nat.div_add_mod n base
  obtain hlt | heq | hgt := Nat.lt_trichotomy (m / base) (n / base)
  · have hless : m < n := Nat.lt_of_div_lt_div hlt
    rw [Nat.compare_eq_lt.2 hlt, Nat.compare_eq_lt.2 hless]
    rfl
  · rw [heq] at hm
    rw [Nat.compare_eq_eq.2 heq, Ordering.eq_then]
    obtain hlt | hmod | hgt := Nat.lt_trichotomy (m % base) (n % base)
    · rw [Nat.compare_eq_lt.2 hlt, Nat.compare_eq_lt.2 (by omega)]
    · rw [Nat.compare_eq_eq.2 hmod, Nat.compare_eq_eq.2 (by omega)]
    · rw [Nat.compare_eq_gt.2 hgt, Nat.compare_eq_gt.2 (by omega)]
  · have hmore : n < m := Nat.lt_of_div_lt_div hgt
    rw [Nat.compare_eq_gt.2 hgt, Nat.compare_eq_gt.2 hmore]
    rfl

namespace Bytes

/-- Numbers that fit a byte compare as their bytes do. -/
theorem compare_byte_ofNat {m n : Nat} (hm : m < 256) (hn : n < 256) :
    compare (UInt8.ofNat m) (UInt8.ofNat n) = compare m n := by
  have hbyte : ∀ a b : UInt8, compare a b = compare a.toNat b.toNat := by
    intro a b
    simp only [compare, compareOfLessAndEq, UInt8.lt_iff_toNat_lt, ← UInt8.toNat_inj]
  rw [hbyte, UInt8.toNat_ofNat_of_lt' hm, UInt8.toNat_ofNat_of_lt' hn]

/-- Parts of equal length in front decide, and only if they are the same does what
follows. Only the parts in front must have one length; what stands behind may be
anything. -/
theorem compare_append {a b : Bytes} (hlength : a.length = b.length) (x y : Bytes) :
    compare (a ++ x) (b ++ y) = (compare a b).then (compare x y) := by
  induction a generalizing b with
  | nil =>
    cases b with
    | nil => rfl
    | cons c b => cases hlength
  | cons c a ih =>
    cases b with
    | nil => cases hlength
    | cons d b =>
      have htail : a.length = b.length := Nat.succ.inj hlength
      rw [List.cons_append, List.cons_append, List.compare_cons_cons, List.compare_cons_cons,
        ih htail, Ordering.then_assoc]

/-- A common beginning decides nothing. -/
theorem compare_append_same (a x y : Bytes) : compare (a ++ x) (a ++ y) = compare x y := by
  have hself : compare a a = .eq := Std.ReflOrd.compare_self
  rw [compare_append rfl, hself, Ordering.eq_then]

/-- Byte strings may be cut at any place: the pieces before it decide first, then
those behind. The place may lie behind the end of one of them or of both. -/
theorem compare_take_then_drop (count : Nat) (a b : Bytes) :
    (compare (a.take count) (b.take count)).then (compare (a.drop count) (b.drop count)) =
      compare a b := by
  induction count generalizing a b with
  | zero => rfl
  | succ count ih =>
    cases a with
    | nil => cases b <;> rfl
    | cons c a =>
      cases b with
      | nil => rfl
      | cons d b =>
        rw [List.take_succ_cons, List.take_succ_cons, List.drop_succ_cons, List.drop_succ_cons,
          List.compare_cons_cons, List.compare_cons_cons, Ordering.then_assoc, ih]

/-- Digits in base 256, most significant first, compare as the number that they
spell. Both numbers must fit the digits, or digits would be lost from the top. -/
theorem compare_ofNat {width m n : Nat} (hm : m < Nat.pow 256 width) (hn : n < Nat.pow 256 width) :
    compare (ofNat width m) (ofNat width n) = compare m n := by
  induction width generalizing m n with
  | zero =>
    have hzero : m = n := by
      simp only [Nat.pow_eq, Nat.pow_zero] at hm hn
      omega
    rw [hzero, Nat.compare_eq_eq.2 rfl]
    rfl
  | succ width ih =>
    have hpos : 0 < Nat.pow 256 width := Nat.pow_pos (by decide)
    have hpow : Nat.pow 256 (width + 1) = Nat.pow 256 width * 256 := rfl
    rw [hpow] at hm hn
    have hdrop : ∀ k, ofNat width k = ofNat width (k % Nat.pow 256 width) := by
      intro k
      have h := ofNat_mul_add width (k / Nat.pow 256 width) (k % Nat.pow 256 width)
      rwa [Nat.mul_comm, Nat.div_add_mod] at h
    rw [ofNat, ofNat, List.compare_cons_cons,
      compare_byte_ofNat (Nat.div_lt_of_lt_mul hm) (Nat.div_lt_of_lt_mul hn), hdrop m, hdrop n,
      ih (Nat.mod_lt m hpos) (Nat.mod_lt n hpos), compare_div_then_mod]

/-- The order of byte strings as a comparison and as a relation are the same. -/
theorem compare_eq_lt_iff {a b : Bytes} : compare a b = .lt ↔ a < b := by
  induction a generalizing b with
  | nil => cases b <;> simp
  | cons c a ih =>
    cases b with
    | nil => simp
    | cons d b =>
      have hbyte : compare c d = .lt ↔ c < d := Std.compare_eq_lt
      rw [List.compare_cons_cons, List.cons_lt_cons_iff, Ordering.then_eq_lt, ih, hbyte,
        Std.LawfulEqOrd.compare_eq_iff_eq]

end Bytes

/-- Big-endian words of one width decide as the numbers that they hold do. Both
numbers must fit the width. What stands behind the words counts only between equal
numbers. -/
theorem ByteOrder.compare_word_append {width m n : Nat} {result : Ordering}
    (hm : m < Nat.pow 256 width) (hn : n < Nat.pow 256 width) (hnumbers : compare m n = result)
    (x y : Bytes) :
    compare (big.word width m ++ x) (big.word width n ++ y) = result.then (compare x y) := by
  have hlength : (big.word width m).length = (big.word width n).length := by
    rw [length_word, length_word]
  have hword : compare (big.word width m) (big.word width n) = result :=
    (Bytes.compare_ofNat hm hn).trans hnumbers
  rw [Bytes.compare_append hlength, hword]

end KeyedRows
