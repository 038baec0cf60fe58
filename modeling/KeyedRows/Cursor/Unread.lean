import KeyedRows.Cursor

namespace KeyedRows

namespace Cursor

@[simp]
theorem length_unread (cursor : Cursor) : cursor.unread.length = cursor.remaining := by
  have := cursor.stop_le_size
  have := cursor.pos_le_stop
  simp only [unread, remaining, Array.length_toList, Array.size_extract]
  omega

/-- The unread bytes are the part of the data between the two ends. -/
theorem unread_eq (cursor : Cursor) :
    cursor.unread = (cursor.data.toList.drop cursor.pos).take cursor.remaining := by
  rw [unread, Array.toList_extract, List.extract_eq_take_drop]
  rfl

@[simp]
theorem unread_of (bytes : Bytes) (order : ByteOrder) : (of bytes order).unread = bytes := by
  have h := unread_eq (of bytes order)
  simpa [of, remaining] using h

end Cursor

namespace Reader

/-- Moving on succeeds if the bytes are there, and takes them from the front of
those that are unread. -/
theorem skip_of_le {count : Nat} {cursor : Cursor} (h : count ≤ cursor.remaining) :
    ∃ after, skip count cursor = (.ok (), after) ∧ after.unread = cursor.unread.drop count ∧
      after.order = cursor.order := by
  refine ⟨_, dif_pos h, ?_, rfl⟩
  simp only [Cursor.unread_eq, Cursor.remaining]
  rw [List.drop_take, List.drop_drop, Nat.sub_sub]

/-- Moving on past the unread bytes fails with both numbers and does not move. -/
theorem skip_of_lt {count : Nat} {cursor : Cursor} (h : cursor.remaining < count) :
    skip count cursor = (.error (.truncated count cursor.remaining), cursor) :=
  dif_neg (Nat.not_le.2 h)

/-- Taking bytes succeeds if they are there, and gives the first of those that are
unread. -/
theorem take_of_le {count : Nat} {cursor : Cursor} (h : count ≤ cursor.remaining) :
    ∃ after, take count cursor = (.ok (cursor.unread.take count), after) ∧
      after.unread = cursor.unread.drop count ∧ after.order = cursor.order := by
  obtain ⟨after, hskip, hunread, horder⟩ := skip_of_le h
  refine ⟨after, ?_, hunread, horder⟩
  have hpos : after.pos = cursor.pos + count := by
    rw [skip, dif_pos h] at hskip
    cases hskip
    rfl
  simp only [take, hskip, hpos, Cursor.unread_eq]
  rw [Array.toList_extract, List.extract_eq_take_drop, List.take_take, Nat.min_eq_left h,
    Nat.add_sub_cancel_left]

/-- Taking more bytes than are unread fails with both numbers and does not move. -/
theorem take_of_lt {count : Nat} {cursor : Cursor} (h : cursor.remaining < count) :
    take count cursor = (.error (.truncated count cursor.remaining), cursor) := by
  rw [take, skip_of_lt h]

/-- The first unread byte is taken, whatever follows it. -/
theorem byte_of_unread_eq_cons {cursor : Cursor} {b : UInt8} {rest : Bytes}
    (h : cursor.unread = b :: rest) :
    ∃ after, byte cursor = (.ok b, after) ∧ after.unread = rest ∧ after.order = cursor.order := by
  have hlength := cursor.length_unread
  rw [h, List.length_cons] at hlength
  have hroom : cursor.pos < cursor.stop := by
    simp only [Cursor.remaining] at hlength
    omega
  have hin : cursor.pos < cursor.data.toList.length := by
    have := cursor.stop_le_size
    rw [Array.length_toList]
    omega
  rw [Cursor.unread_eq, List.drop_eq_getElem_cons hin, ← hlength, List.take_succ_cons,
    List.cons.injEq, Array.getElem_toList] at h
  refine ⟨{ cursor with pos := cursor.pos + 1, pos_le_stop := hroom }, ?_, ?_, rfl⟩
  · unfold byte
    rw [dif_pos hroom]
    simp only [h.1]
  · rw [Cursor.unread_eq, ← h.2]
    simp only [Cursor.remaining] at hlength ⊢
    congr 1
    omega

/-- Without unread bytes no byte is taken, and the cursor stays where it is. -/
theorem byte_of_unread_eq_nil {cursor : Cursor} (h : cursor.unread = []) :
    byte cursor = (.error (.truncated 1 0), cursor) := by
  have hlength := cursor.length_unread
  rw [h, List.length_nil] at hlength
  have hroom : ¬cursor.pos < cursor.stop := by
    simp only [Cursor.remaining] at hlength
    omega
  unfold byte
  rw [dif_neg hroom, ← hlength]

/-- The last unread byte is taken from the end, whatever stands before it. -/
theorem lastByte_of_unread_eq_append {cursor : Cursor} {b : UInt8} {rest : Bytes}
    (h : cursor.unread = rest ++ [b]) :
    ∃ after, lastByte cursor = (.ok b, after) ∧ after.unread = rest ∧
      after.order = cursor.order := by
  have hlength := cursor.length_unread
  rw [h, List.length_append, List.length_singleton, Cursor.remaining] at hlength
  have hroom : cursor.pos < cursor.stop := by omega
  have hin := cursor.stop_le_size
  have hlast : cursor.data[cursor.stop - 1] = b := by
    have hb : cursor.unread[rest.length]? = some b := by simp [h]
    rw [Cursor.unread_eq, List.getElem?_take_of_lt (by simp only [Cursor.remaining]; omega),
      List.getElem?_drop, Array.getElem?_toList] at hb
    have hplace : cursor.pos + rest.length = cursor.stop - 1 := by omega
    rw [hplace, Array.getElem?_eq_getElem (by omega)] at hb
    exact Option.some.inj hb
  refine ⟨{ cursor with
    stop := cursor.stop - 1
    pos_le_stop := by omega
    stop_le_size := by omega }, ?_, ?_, rfl⟩
  · unfold lastByte
    rw [dif_pos hroom]
    simp only [hlast]
  · have hrest : rest = cursor.unread.take rest.length := by rw [h, List.take_left' rfl]
    rw [hrest, Cursor.unread_eq, Cursor.unread_eq, List.take_take]
    simp only [Cursor.remaining]
    congr 1
    omega

end Reader

end KeyedRows
