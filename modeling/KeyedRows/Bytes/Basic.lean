namespace KeyedRows

/-- A byte string. Keys are compared by the lexicographic order of these lists, byte
by byte as unsigned numbers, a proper beginning first. -/
abbrev Bytes := List UInt8

namespace Bytes

/-- The `width` lowest base-256 digits of a number, most significant first. -/
def ofNat : Nat → Nat → Bytes
  | 0, _ => []
  | width + 1, n => UInt8.ofNat (n / Nat.pow 256 width) :: ofNat width n

/-- The number that a byte string spells in base 256, most significant digit first. -/
def toNat : Bytes → Nat
  | [] => 0
  | b :: rest => b.toNat * Nat.pow 256 rest.length + toNat rest

/-- A number is written with as many digits as asked for, whether or not it needs
them. -/
@[simp]
theorem length_ofNat (width n : Nat) : (ofNat width n).length = width := by
  induction width with
  | zero => rfl
  | succ width ih => simp [ofNat, ih]

/-- A byte string spells a number below the power of 256 that belongs to its length. -/
theorem toNat_lt (bytes : Bytes) : toNat bytes < Nat.pow 256 bytes.length := by
  induction bytes with
  | nil => exact Nat.one_pos
  | cons b rest ih =>
    have hb : b.toNat + 1 ≤ 256 := b.toNat_lt
    have hmul := Nat.mul_le_mul_right (Nat.pow 256 rest.length) hb
    have hpow : Nat.pow 256 (rest.length + 1) = 256 * Nat.pow 256 rest.length := by
      rw [Nat.mul_comm]
      rfl
    rw [Nat.add_mul, Nat.one_mul] at hmul
    rw [toNat, List.length_cons, hpow]
    omega

/-- Reading what was written gives the number back, as far as its digits show it.
Digits that do not fit are lost from the top, as they are in a cast. -/
theorem toNat_ofNat (width n : Nat) : toNat (ofNat width n) = n % Nat.pow 256 width := by
  induction width with
  | zero => exact (Nat.mod_one n).symm
  | succ width ih =>
    have hdigit : (UInt8.ofNat (n / Nat.pow 256 width)).toNat = n / Nat.pow 256 width % 256 := rfl
    have hpow : Nat.pow 256 (width + 1) = Nat.pow 256 width * 256 := rfl
    rw [ofNat, toNat, ih, length_ofNat, hdigit, hpow, Nat.mod_mul, Nat.add_comm, Nat.mul_comm]

/-- Digits above those that are written do not show. -/
theorem ofNat_mul_add (width high n : Nat) :
    ofNat width (high * Nat.pow 256 width + n) = ofNat width n := by
  induction width generalizing high with
  | zero => rfl
  | succ width ih =>
    have hpos : 0 < Nat.pow 256 width := Nat.pow_pos (by decide)
    have hpow : high * Nat.pow 256 (width + 1) = high * 256 * Nat.pow 256 width := by
      rw [Nat.mul_assoc, Nat.mul_comm 256]
      rfl
    have hdigit : (high * 256 * Nat.pow 256 width + n) / Nat.pow 256 width =
        high * 256 + n / Nat.pow 256 width := by
      rw [Nat.add_comm, Nat.add_mul_div_right _ _ hpos, Nat.add_comm]
    rw [ofNat, ofNat, hpow, ih (high * 256), hdigit]
    congr 1
    apply UInt8.toNat.inj
    exact Nat.mul_add_mod_self_right ..

/-- Writing what was read gives the bytes back. -/
theorem ofNat_toNat (bytes : Bytes) : ofNat bytes.length (toNat bytes) = bytes := by
  induction bytes with
  | nil => rfl
  | cons b rest ih =>
    have hpos : 0 < Nat.pow 256 rest.length := Nat.pow_pos (by decide)
    rw [List.length_cons, toNat, ofNat, ofNat_mul_add, ih, Nat.add_comm,
      Nat.add_mul_div_right _ _ hpos, Nat.div_eq_of_lt (toNat_lt rest), Nat.zero_add,
      UInt8.ofNat_toNat]

end Bytes

/-- Which end of a fixed-width number comes first. -/
inductive ByteOrder where
  | big
  | little
deriving DecidableEq, Repr

namespace ByteOrder

/-- The order that a flag for little-endian numbers chooses. -/
def ofLittleEndian (flag : Bool) : ByteOrder :=
  if flag then .little else .big

/-- Lays big-endian digits out in an order. The same step reads them back, since it
is its own inverse. -/
def arrange : ByteOrder → Bytes → Bytes
  | .big, digits => digits
  | .little, digits => digits.reverse

/-- A number as `width` bytes in an order; only its remainder modulo `256 ^ width`
shows. -/
def word (order : ByteOrder) (width n : Nat) : Bytes :=
  order.arrange (Bytes.ofNat width n)

/-- The number that a word laid out in an order holds. -/
def number (order : ByteOrder) (bytes : Bytes) : Nat :=
  Bytes.toNat (order.arrange bytes)

@[simp]
theorem length_arrange (order : ByteOrder) (bytes : Bytes) :
    (order.arrange bytes).length = bytes.length := by
  cases order <;> simp [arrange]

/-- Laying digits out twice gives them back, in both orders. -/
@[simp]
theorem arrange_arrange (order : ByteOrder) (bytes : Bytes) :
    order.arrange (order.arrange bytes) = bytes := by
  cases order <;> simp [arrange]

/-- A word holds the number that it was written from, as far as its width can show
it. -/
theorem number_word (order : ByteOrder) (width n : Nat) :
    order.number (order.word width n) = n % Nat.pow 256 width := by
  rw [number, word, arrange_arrange, Bytes.toNat_ofNat]

/-- Every byte string is the word of the number that it holds, so no two words of
one width hold the same number. -/
theorem word_number (order : ByteOrder) (bytes : Bytes) :
    order.word bytes.length (order.number bytes) = bytes := by
  rw [word, number, ← order.length_arrange bytes, Bytes.ofNat_toNat, arrange_arrange]

/-- A word has the width that it was written with. -/
@[simp]
theorem length_word (order : ByteOrder) (width n : Nat) : (order.word width n).length = width := by
  simp [word]

/-- A number and its remainder are written with the same digits. So a number may be
cut to its width before it is written or not. -/
theorem word_mod (order : ByteOrder) (width n : Nat) :
    order.word width (n % Nat.pow 256 width) = order.word width n := by
  have hread := order.word_number (order.word width n)
  rwa [length_word, number_word] at hread


end ByteOrder

end KeyedRows
