import KeyedRows.Bytes.Hex
import KeyedRows.Proofs.Text.Utf8

namespace KeyedRows.HexForm

/-- The byte of the character that a digit is written as. -/
def digitByte (n : Nat) : UInt8 :=
  UInt8.ofNat (Nat.digitChar n).toNat

private theorem utf8EncodeChar_digitChar {n : Nat} (hlt : n < 16) :
    String.utf8EncodeChar (Nat.digitChar n) = [digitByte n] := by
  have hall : ∀ digit : Fin 16, String.utf8EncodeChar (Nat.digitChar digit) = [digitByte digit] := by
    decide
  exact hall ⟨n, hlt⟩

private theorem digitValue?_digitByte {n : Nat} (hlt : n < 16) : digitValue? (digitByte n) = some n := by
  have hall : ∀ digit : Fin 16, digitValue? (digitByte digit) = some digit.val := by decide
  exact hall ⟨n, hlt⟩

private theorem high_lt (byte : UInt8) : byte.toNat / 16 < 16 := by
  have hlt := byte.toNat_lt
  omega

private theorem low_lt (byte : UInt8) : byte.toNat % 16 < 16 :=
  Nat.mod_lt _ (by decide)

/-- The two bytes of a byte's digits, the higher digit first. -/
def pair (byte : UInt8) : Bytes :=
  [digitByte (byte.toNat / 16), digitByte (byte.toNat % 16)]

private theorem utf8_digits (bytes : Bytes) :
    Utf8.encode (String.ofList (bytes.flatMap digits)) = bytes.flatMap pair := by
  rw [Utf8.encode_ofList, List.flatMap_assoc]
  congr 1
  funext byte
  simp only [digits, pair, List.flatMap_cons, List.flatMap_nil,
    utf8EncodeChar_digitChar (high_lt byte), utf8EncodeChar_digitChar (low_lt byte)]
  rfl

private theorem length_pairs (bytes : Bytes) : (bytes.flatMap pair).length % 2 = 0 := by
  induction bytes with
  | nil => rfl
  | cons byte bytes ih =>
    rw [List.flatMap_cons, List.length_append, pair, List.length_cons, List.length_singleton]
    omega

private theorem decodePairs_pairs (position : Nat) (bytes : Bytes) :
    decodePairs position (bytes.flatMap pair) = .ok bytes := by
  induction bytes generalizing position with
  | nil => rfl
  | cons byte bytes ih =>
    have hbyte : UInt8.ofNat (16 * (byte.toNat / 16) + byte.toNat % 16) = byte := by
      rw [Nat.div_add_mod, UInt8.ofNat_toNat]
    rw [List.flatMap_cons, pair, List.cons_append, List.cons_append, List.nil_append, decodePairs,
      digitValue?_digitByte (high_lt byte), digitValue?_digitByte (low_lt byte), ih]
    simp only [hbyte]
    rfl

/-- Two digits a byte are read as the bytes that they were written from. Nothing is
asked of the bytes. So the command line can be run with this form, and whatever is
shown for every form that reads back holds of it. -/
theorem digitPairs_readsBack : digitPairs.ReadsBack := by
  intro bytes
  have hbytes : (digitPairs.encode bytes).toUTF8.toList = bytes.flatMap pair := utf8_digits bytes
  simp only [digitPairs] at hbytes ⊢
  simp only [hbytes, length_pairs]
  exact decodePairs_pairs 0 bytes

end KeyedRows.HexForm
