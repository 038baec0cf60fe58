import KeyedRows.Proofs.Group.Reading
import KeyedRows.Proofs.Row.Scrutiny
import Mathlib.Data.UInt

namespace KeyedRows.Group

open Reader Scrutiny

private theorem Marker.of_eq_more {b : UInt8} (h : Marker.of b = .more) : b = Frame.fullGroup := by
  simp only [Marker.of] at h
  split at h
  · assumption
  · split at h <;> cases h

private theorem Marker.of_eq_last {b : UInt8} {padding : Nat} (h : Marker.of b = .last padding) :
    0 < padding ∧ padding ≤ Frame.groupSize ∧ Frame.fullGroup - UInt8.ofNat padding = b := by
  simp only [Marker.of] at h
  split at h
  · cases h
  · split at h
    · cases h
    · rename_i hrange
      cases h
      rw [not_or] at hrange
      refine ⟨Nat.pos_of_ne_zero hrange.1, Nat.le_of_not_lt hrange.2, ?_⟩
      rw [UInt8.ofNat_toNat]
      exact sub_sub_cancel _ b

private theorem scrutiny_of_lt {length : Nat} (hshort : length < Frame.groupSize) :
    scrutiny length = exactly length ++ List.replicate (Frame.groupSize - length) filler ++
      exactly 1 := by
  rw [scrutiny, Nat.div_eq_of_lt hshort, Nat.mod_eq_of_lt hshort, Nat.zero_mul, Nat.zero_add]

private theorem scrutiny_add (length : Nat) :
    scrutiny (Frame.groupSize + length) = exactly (Frame.groupSize + 1) ++ scrutiny length := by
  have hpos : 0 < Frame.groupSize := by decide
  have hcount : (length / Frame.groupSize + 1) * (Frame.groupSize + 1) + length % Frame.groupSize =
      Frame.groupSize + 1 +
        (length / Frame.groupSize * (Frame.groupSize + 1) + length % Frame.groupSize) := by
    rw [Nat.add_mul]
    omega
  rw [scrutiny, scrutiny, Nat.add_mod_left, Nat.add_div_left _ hpos, hcount, exactly_add,
    List.append_assoc, List.append_assoc, List.append_assoc]

private theorem exists_of_length_group {group : Bytes} (hlength : group.length = Frame.groupSize + 1) :
    ∃ (data : Bytes) (marker : UInt8), data.length = Frame.groupSize ∧ group = data ++ [marker] := by
  obtain rfl | ⟨data, marker, rfl⟩ := group.eq_nil_or_concat'
  · cases hlength
  · rw [List.length_append, List.length_singleton] at hlength
    exact ⟨data, marker, Nat.succ.inj hlength, rfl⟩

/-- A last group passes for that of its bytes, whatever fills it up. The number of
bytes that are filled up lies between one and the size of a group; a group that is
filled up by none is not the last. -/
theorem allPass_encodeLast {data : Bytes} {padding : Nat} (hdata : data.length = Frame.groupSize)
    (hpos : 0 < padding) (hle : padding ≤ Frame.groupSize) :
    AllPass (scrutiny (data.take (Frame.groupSize - padding)).length)
      (encode (data.take (Frame.groupSize - padding)))
      (data ++ [Frame.fullGroup - UInt8.ofNat padding]) := by
  have hlength : (data.take (Frame.groupSize - padding)).length = Frame.groupSize - padding := by
    rw [List.length_take, hdata]
    omega
  have hfilling : (data.drop (Frame.groupSize - padding)).length = padding := by
    rw [List.length_drop, hdata]
    omega
  have hshort : (data.take (Frame.groupSize - padding)).length < Frame.groupSize := by omega
  have hbytes := allPass_exactly (data.take (Frame.groupSize - padding))
  have hfiller := allPass_filler (data.drop (Frame.groupSize - padding))
  have hmarker := allPass_exactly [Frame.fullGroup - UInt8.ofNat padding]
  have hall := (hbytes.append hfiller).append hmarker
  rw [List.take_append_drop, hfilling] at hall
  rw [scrutiny_of_lt hshort, encode_of_lt hshort, encodeLast, hlength,
    Nat.sub_sub_self hle]
  rwa [hlength] at hall

private theorem readBehind_eq_ok {data bytes : Bytes} {marker : UInt8} {middle after : Cursor}
    (hdata : data.length = Frame.groupSize)
    (h : readBehind (data ++ [marker]) middle = (.ok bytes, after)) :
    (AllPass (scrutiny bytes.length) (encode bytes) (data ++ [marker]) ∧ after = middle) ∨
      ∃ rest, reader middle = (.ok rest, after) ∧ bytes = data ++ rest ∧ marker = Frame.fullGroup := by
  rw [readBehind, List.drop_left' hdata, List.headD_cons] at h
  cases hmarker : Marker.of marker with
  | bad =>
    simp only [hmarker] at h
    cases h
  | last padding =>
    obtain ⟨hpos, hle, hlast⟩ := Marker.of_eq_last hmarker
    simp only [hmarker] at h
    obtain ⟨hbytes, hafter⟩ := Prod.mk.inj h
    have hfront : Frame.groupSize - padding ≤ data.length := by omega
    rw [List.take_append_of_le_length hfront] at hbytes
    left
    rw [← Except.ok.inj hbytes, ← hlast]
    exact ⟨allPass_encodeLast hdata hpos hle, hafter.symm⟩
  | more =>
    simp only [hmarker] at h
    obtain ⟨rest, stop, hrest, hjoin⟩ := bind_ok_iff.1 h
    rw [List.take_left' hdata] at hjoin
    obtain ⟨hbytes, hafter⟩ := Prod.mk.inj hjoin
    right
    exact ⟨rest, hafter ▸ hrest, (Except.ok.inj hbytes).symm, Marker.of_eq_more hmarker⟩

/-- A byte string is only read from groups that pass for its own. How many groups
there were, and how much of the last one was filled up, is settled by the length of
the string, so only filling can differ. -/
theorem accepts_reader {cursor after : Cursor} {bytes : Bytes}
    (h : reader cursor = (.ok bytes, after)) :
    cursor.Accepts after (scrutiny bytes.length) (encode bytes) := by
  rw [reader_eq] at h
  obtain ⟨group, middle, htake, hbehind⟩ := bind_ok_iff.1 h
  obtain ⟨hlength, hfollows⟩ := follows_take htake
  obtain ⟨data, marker, hdata, rfl⟩ := exists_of_length_group hlength
  obtain ⟨hpass, rfl⟩ | ⟨rest, hrest, rfl, rfl⟩ := readBehind_eq_ok hdata hbehind
  · exact ⟨_, hfollows, hpass⟩
  · have hlong : Frame.groupSize ≤ (data ++ rest).length := by
      rw [List.length_append]
      omega
    have hall := hfollows.accepts.trans (accepts_reader hrest)
    rw [hlength, List.append_assoc] at hall
    rwa [List.length_append, hdata, scrutiny_add, encode_of_le hlong, List.take_left' hdata,
      List.drop_left' hdata]
termination_by cursor.remaining
decreasing_by
  have := remaining_take htake
  simp only [Frame.groupSize] at this
  omega

end KeyedRows.Group
