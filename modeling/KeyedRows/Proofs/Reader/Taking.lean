import KeyedRows.Cursor.Unread
import KeyedRows.Proofs.Reader.Sequence
import KeyedRows.Region.Contents

namespace KeyedRows

/-- A cursor is another one moved over bytes at its front. -/
structure Cursor.Follows (after before : Cursor) (bytes : Bytes) : Prop where
  unread : before.unread = bytes ++ after.unread
  order : after.order = before.order

theorem Cursor.follows_refl (cursor : Cursor) : cursor.Follows cursor [] :=
  ⟨rfl, rfl⟩

theorem Cursor.Follows.trans {last middle first : Cursor} {late early : Bytes}
    (h : last.Follows middle late) (h' : middle.Follows first early) :
    last.Follows first (early ++ late) where
  unread := by rw [h'.unread, h.unread, List.append_assoc]
  order := h.order.trans h'.order

namespace Reader

variable {α : Type} {cursor after : Cursor}

theorem follows_byte {b : UInt8} (h : byte cursor = (.ok b, after)) : after.Follows cursor [b] := by
  cases hunread : cursor.unread with
  | nil =>
    rw [byte_of_unread_eq_nil hunread] at h
    cases h
  | cons c rest =>
    obtain ⟨stop, hread, hstop, horder⟩ := byte_of_unread_eq_cons hunread
    rw [hread] at h
    cases h
    exact ⟨by rw [hunread, hstop]; rfl, horder⟩

/-- Bytes that were read are those that were taken, and as many as were asked for. -/
theorem follows_take {count : Nat} {bytes : Bytes} (h : take count cursor = (.ok bytes, after)) :
    bytes.length = count ∧ after.Follows cursor bytes := by
  by_cases hroom : count ≤ cursor.remaining
  · obtain ⟨stop, hread, hstop, horder⟩ := take_of_le hroom
    rw [hread] at h
    cases h
    rw [List.length_take, cursor.length_unread, Nat.min_eq_left hroom]
    exact ⟨rfl, by rw [hstop, List.take_append_drop], horder⟩
  · rw [take_of_lt (Nat.lt_of_not_le hroom)] at h
    cases h

/-- Moving on takes as many bytes as asked for, although nothing is said of what
they are. -/
theorem follows_skip {count : Nat} (h : skip count cursor = (.ok (), after)) :
    ∃ bytes, bytes.length = count ∧ after.Follows cursor bytes := by
  by_cases hroom : count ≤ cursor.remaining
  · obtain ⟨stop, hread, hstop, horder⟩ := skip_of_le hroom
    rw [hread] at h
    cases h
    refine ⟨cursor.unread.take count, ?_, by rw [hstop, List.take_append_drop], horder⟩
    rw [List.length_take, cursor.length_unread, Nat.min_eq_left hroom]
  · rw [skip_of_lt (Nat.lt_of_not_le hroom)] at h
    cases h

private theorem follows_numberIn {order : ByteOrder} {width n : Nat}
    (h : numberIn order width cursor = (.ok n, after)) :
    n < Nat.pow 256 width ∧ after.Follows cursor (order.word width n) := by
  obtain ⟨bytes, middle, htake, hnumber⟩ := bind_ok_iff.1 h
  cases hnumber
  obtain ⟨rfl, hfollows⟩ := follows_take htake
  rw [order.word_number]
  refine ⟨?_, hfollows⟩
  rw [ByteOrder.number, ← order.length_arrange bytes]
  exact Bytes.toNat_lt _

private theorem follows_number {width n : Nat} (h : number width cursor = (.ok n, after)) :
    n < Nat.pow 256 width ∧ after.Follows cursor (cursor.order.word width n) :=
  follows_numberIn h

/-- A signed number of 32 bits can only be read from its word in the order of the
cursor. -/
theorem follows_int32 {n : Int32} (h : int32 cursor = (.ok n, after)) :
    after.Follows cursor (cursor.order.word 4 n.toUInt32.toNat) := by
  obtain ⟨m, middle, hnumber, hread⟩ := bind_ok_iff.1 h
  cases hread
  obtain ⟨hlt, hfollows⟩ := follows_number hnumber
  rwa [UInt32.toUInt32_toInt32, UInt32.toNat_ofNat_of_lt' hlt]

theorem follows_int64 {n : Int64} (h : int64 cursor = (.ok n, after)) :
    after.Follows cursor (cursor.order.word 8 n.toUInt64.toNat) := by
  obtain ⟨m, middle, hnumber, hread⟩ := bind_ok_iff.1 h
  cases hread
  obtain ⟨hlt, hfollows⟩ := follows_number hnumber
  rwa [UInt64.toUInt64_toInt64, UInt64.toNat_ofNat_of_lt' hlt]

/-- An unsigned number of 32 bits can only be read from its big-endian word. -/
theorem follows_uint32 {n : UInt32} (h : uint32 cursor = (.ok n, after)) :
    after.Follows cursor (ByteOrder.big.word 4 n.toNat) := by
  obtain ⟨m, middle, hnumber, hread⟩ := bind_ok_iff.1 h
  cases hread
  obtain ⟨hlt, hfollows⟩ := follows_numberIn hnumber
  rwa [UInt32.toNat_ofNat_of_lt' hlt]

theorem follows_uint64 {n : UInt64} (h : uint64 cursor = (.ok n, after)) :
    after.Follows cursor (ByteOrder.big.word 8 n.toNat) := by
  obtain ⟨m, middle, hnumber, hread⟩ := bind_ok_iff.1 h
  cases hread
  obtain ⟨hlt, hfollows⟩ := follows_numberIn hnumber
  rwa [UInt64.toNat_ofNat_of_lt' hlt]

/-- A length that is read fits its field. A negative one would have been refused. -/
theorem follows_length {n : Nat} (h : length cursor = (.ok n, after)) :
    n < Frame.lengthLimit ∧ after.Follows cursor (cursor.order.word Frame.lengthSize n) := by
  obtain ⟨m, middle, hint, hread⟩ := bind_ok_iff.1 h
  have hfollows := follows_int32 hint
  split at hread
  · cases hread
  · rename_i hnegative
    cases hread
    have hhigh := m.toInt_lt
    have hlt : m.toInt.toNat < Frame.lengthLimit := by
      simp only [Frame.lengthLimit, signBit32]
      omega
    have hsame : Int32.ofNat m.toInt.toNat = m := by
      rw [← Int32.toInt_inj, Int32.toInt_ofNat_of_lt hlt]
      omega
    rw [← hsame, Region.toNat_toUInt32_ofNat hlt] at hfollows
    exact ⟨hlt, hfollows⟩

/-- A payload can only be read from its length and itself, and it is short enough
that its length is not negative. So it can be written again. -/
theorem follows_sized {bytes : Bytes} (h : sized cursor = (.ok bytes, after)) :
    bytes.length < Frame.lengthLimit ∧
      after.Follows cursor (cursor.order.word Frame.lengthSize bytes.length ++ bytes) := by
  obtain ⟨count, middle, hlength, htake⟩ := bind_ok_iff.1 h
  obtain ⟨hlt, hcounted⟩ := follows_length hlength
  obtain ⟨rfl, hfollows⟩ := follows_take htake
  exact ⟨hlt, hfollows.trans hcounted⟩

end Reader

end KeyedRows
