import KeyedRows.Guarded.Column
import KeyedRows.Proofs.Column.Accepting
import KeyedRows.Proofs.Column.Skipping
import KeyedRows.Proofs.Guarded.Reader

namespace KeyedRows.Guarded

variable {cursor : Cursor}

/-- The distance of a byte from the largest one does not wrap round. -/
theorem toNat_fullGroup_sub (marker : UInt8) :
    (Frame.fullGroup - marker).toNat = Frame.fullGroup.toNat - marker.toNat :=
  UInt8.toNat_sub_of_le _ _ (UInt8.le_iff_toNat_le.2 (Nat.le_of_lt_succ marker.toNat_lt))

/-- A group of the right size is judged as the byte behind it says. That the group
has the right size is known from taking it, and no index is computed before. -/
theorem judgeGroup_eq {group : Bytes} (hlength : group.length = Frame.groupSize + 1) :
    judgeGroup group = .ok
      (match Group.Marker.of ((group.drop Frame.groupSize).headD 0) with
      | .bad => .error (.badGroupMarker ((group.drop Frame.groupSize).headD 0))
      | .last padding => .ok (group.take (Frame.groupSize - padding), false)
      | .more => .ok (group.take Frame.groupSize, true)) := by
  have hin : Frame.groupSize < group.length := hlength ▸ Nat.lt_succ_self _
  have hrange : ∀ kept ≤ Frame.groupSize, Guard.range group 0 kept = .ok (group.take kept) :=
    fun kept hkept => Guard.range_zero (Nat.le_trans hkept (Nat.le_of_lt hin))
  have hmarker := Guard.element_of_getElem? (List.getElem?_eq_getElem hin)
  rw [List.drop_eq_getElem_cons hin, List.headD_cons, judgeGroup, bind_eq_ok_iff]
  refine ⟨_, hmarker, ?_⟩
  generalize group[Frame.groupSize] = marker
  rw [Group.Marker.of, toNat_fullGroup_sub]
  by_cases hfull : marker = Frame.fullGroup
  · rw [if_pos hfull, if_pos hfull, bind_eq_ok_iff]
    exact ⟨_, hrange _ (Nat.le_refl _), rfl⟩
  · rw [if_neg hfull, if_neg hfull, bind_eq_ok_iff]
    have hlt : marker.toNat < Frame.fullGroup.toNat :=
      Nat.lt_of_le_of_ne (Nat.le_of_lt_succ marker.toNat_lt) (mt UInt8.toNat.inj hfull)
    refine ⟨_, Guard.difference_of_le (Nat.le_of_lt hlt), ?_⟩
    -- Only the byte of a full group is at no distance from itself.
    have hpadding : Frame.fullGroup.toNat - marker.toNat ≠ 0 := Nat.sub_ne_zero_of_lt hlt
    generalize Frame.fullGroup.toNat - marker.toNat = padding at hpadding
    simp only [hpadding, if_false, false_or]
    by_cases hbad : Frame.groupSize < padding
    · rw [if_pos hbad, if_pos hbad]
      rfl
    · rw [if_neg hbad, if_neg hbad, bind_eq_ok_iff]
      refine ⟨_, Guard.difference_of_le (Nat.le_of_not_lt hbad), ?_⟩
      rw [bind_eq_ok_iff]
      exact ⟨_, hrange _ (Nat.sub_le ..), rfl⟩

/-- Goes on behind a group as the byte behind it says. -/
def groupsBehind (group : Bytes) : Guarded Bytes := do
  match ← check (judgeGroup group) with
  | .error e => fail e
  | .ok (data, false) => return data
  | .ok (data, true) =>
    let rest ← groupBytes
    return data ++ rest

/-- Groups are read one behind the other. -/
theorem groupBytes_eq : groupBytes = take (Frame.groupSize + 1) >>= groupsBehind := by
  funext bare
  change groups bare = _
  rw [groups]
  split
  · rename_i fault htake
    rw [bind_of_fault htake]
  · rename_i e after htake
    rw [bind_of_error htake]
  · rename_i group after htake
    rw [bind_of_ok htake, groupsBehind]
    rcases judgeGroup group with fault | e | ⟨data, more⟩
    · rfl
    · rfl
    · cases more with
      | false => rfl
      | true =>
        rcases hrest : groups after with fault | ⟨e | rest, stop⟩
        · exact (bind_of_fault hrest).symm
        · exact (bind_of_error hrest).symm
        · have hjoined : (groupBytes >>= fun rest => pure (data ++ rest)) after =
              .ok (.ok (data ++ rest), stop) := bind_of_ok hrest
          exact hjoined.symm

private theorem mirrors_groupBytes (cursor : Cursor) : groupBytes.Mirrors Group.reader cursor := by
  rw [groupBytes_eq, Group.reader_eq]
  apply (mirrors_take _).bind
  intro group after htake
  have hjudge := judgeGroup_eq (Reader.follows_take htake).1
  apply Mirrors.check hjudge
  rw [Group.readBehind]
  cases Group.Marker.of ((group.drop Frame.groupSize).headD 0) with
  | bad => exact mirrors_fail (by simp)
  | last padding => exact mirrors_pure _
  | more => exact (mirrors_groupBytes after).map (group.take Frame.groupSize ++ ·)
termination_by cursor.remaining
decreasing_by
  have := Reader.remaining_take htake
  simp only [Frame.groupSize] at this
  omega

private theorem mirrors_text (bytes : Bytes) : (text bytes).Mirrors (Scalar.readText bytes) cursor := by
  rw [text, Scalar.readText]
  cases Utf8.decode bytes with
  | ok text => exact mirrors_pure text
  | error fault => exact mirrors_fail (by simp)

private theorem mirrors_keyItem (kind : Scalar) : (keyItem kind).Mirrors kind.readKeyItem cursor := by
  cases kind with
  | bool => exact mirrors_byte.map _
  | int32 | float32 => exact mirrors_uint32.map _
  | int64 | float64 => exact mirrors_uint64.map _
  | string => exact (mirrors_groupBytes cursor).bind fun bytes _ _ => mirrors_text bytes

private theorem mirrors_item (kind : Scalar) (cursor : Cursor) :
    (item kind).Mirrors kind.readItem cursor := by
  cases kind with
  | bool => exact mirrors_byte.map _
  | int32 => exact mirrors_int32
  | int64 => exact mirrors_int64
  | float32 => exact mirrors_int32.map _
  | float64 => exact mirrors_int64.map _
  | string => exact mirrors_sized.bind fun bytes _ _ => mirrors_text bytes

private theorem mirrors_marker (column : Column) : (marker column).Mirrors column.readMarker cursor := by
  rw [marker, Column.readMarker]
  apply Mirrors.ite
  · intro _
    apply mirrors_byte.bind
    intro marker after _
    apply Mirrors.ite
    · exact fun _ => mirrors_pure true
    · intro _
      apply Mirrors.ite
      · intro _
        rw [Column.fillerSize]
        cases column.type.width? with
        | some width => exact (mirrors_skip width).map fun _ => false
        | none =>
          -- Moving over no bytes is the same as not moving.
          apply mirrors_of_gives ((Reader.gives_skip (Nat.zero_le _)).map fun _ => false)
          intro stop hstop
          rw [hstop.bare]
          rfl
      · exact fun _ => mirrors_fail (by simp)
  · exact fun _ => mirrors_pure true

/-- A slot of a key is read without a fault and as the reader reads it. Lists have
no place in keys, so the column must not be one. -/
theorem mirrors_keySlot {column : Column} (hscalar : column.type.isList = false) (cursor : Cursor) :
    (keySlot column).Mirrors column.readKey cursor := by
  apply (mirrors_marker column).bind
  intro present after _
  apply Mirrors.ite
  · intro _
    cases htype : column.type with
    | scalar kind => exact (mirrors_keyItem kind).map _
    | list kind => simp [htype, ColumnType.isList, ColumnType.item?] at hscalar
  · exact fun _ => mirrors_pure none

/-- A slot of a key is moved over without a fault, if its column is no list. -/
theorem mirrors_skipKeySlot {column : Column} (hscalar : column.type.isList = false)
    (cursor : Cursor) : (skipKeySlot column).Mirrors column.skipKey cursor := by
  apply (mirrors_marker column).bind
  intro present after _
  apply Mirrors.ite
  · intro _
    cases htype : column.type with
    | list kind => simp [htype, ColumnType.isList, ColumnType.item?] at hscalar
    | scalar kind =>
      simp only [ColumnType.width?, Scalar.skipKeyItem]
      cases kind with
      | string => exact (mirrors_groupBytes after).map fun _ => ()
      | _ => exact mirrors_skip _
  · exact fun _ => mirrors_pure ()

/-- A count is below its limit, so no product of it with a width of items passes a
machine word. The check of the count by its field alone gives the bound. -/
theorem min_wordLimit {count : Nat} (hcount : count < Frame.lengthLimit) (kind : Scalar) :
    min (count * kind.leastSize) wordLimit = count * kind.leastSize := by
  apply Nat.min_eq_left
  have hleast : kind.leastSize ≤ 8 := by cases kind <;> decide
  calc count * kind.leastSize
    _ ≤ Frame.lengthLimit * 8 := Nat.mul_le_mul (Nat.le_of_lt hcount) hleast
    _ ≤ wordLimit := by decide

private theorem mirrors_count (kind : Scalar) (cursor : Cursor) :
    (count kind.leastSize).Mirrors kind.readCount cursor := by
  apply mirrors_length.bind
  intro found middle hlength
  apply mirrors_remaining.bind
  intro left after hleft
  simp only [min_wordLimit (Reader.follows_length hlength).1 kind]
  exact Mirrors.ite (fun hshort => mirrors_truncated hshort) fun _ => mirrors_pure found

/-- A slot outside the key is read without a fault, whatever the column: a hostile
count is refused before anything is computed from it. -/
theorem mirrors_valueSlot (column : Column) (cursor : Cursor) :
    (valueSlot column).Mirrors column.readValue cursor := by
  apply (mirrors_marker column).bind
  intro present after _
  apply Mirrors.ite
  · intro _
    cases column.type with
    | scalar kind => exact (mirrors_item kind after).map _
    | list kind =>
      apply (mirrors_count kind after).bind
      intro found middle _
      exact (mirrors_repeated (mirrors_item kind) found middle).map _
  · exact fun _ => mirrors_pure none

/-- Items that the unread bytes hold are moved over at once. That they are there has
been checked with the count. -/
theorem mirrors_skipWidths {found width : Nat} (hroom : found * width ≤ cursor.remaining) :
    (skipWidths found width).Mirrors (Reader.skip (found * width)) cursor := by
  have hsize : Guard.upTo cursor.bare.data.length (found * width) = .ok (found * width) :=
    Guard.upTo_of_le (Nat.le_trans (Nat.le_add_left ..) (Cursor.pos_add_le_length hroom))
  have hskip : (skip (found * width)).Mirrors (Reader.skip (found * width)) cursor := mirrors_skip _
  exact ⟨(bind_of_ok (look_of_ok hsize)).trans hskip.same, hskip.short⟩

/-- A slot outside the key is moved over without a fault, whatever the column. -/
theorem mirrors_skipValueSlot (column : Column) (cursor : Cursor) :
    (skipValueSlot column).Mirrors column.skipValue cursor := by
  apply (mirrors_marker column).bind
  intro present after _
  apply Mirrors.ite
  · intro _
    cases column.type with
    | scalar kind =>
      simp only [ColumnType.width?, ColumnType.item?, Scalar.skipItem]
      cases kind with
      | string => exact mirrors_skipSized
      | _ => exact mirrors_skip _
    | list kind =>
      have hcount := mirrors_count kind after
      cases kind with
      | string =>
        apply hcount.bind
        intro found middle _
        exact (mirrors_repeated (fun _ => mirrors_skipSized) found middle).map fun _ => ()
      | _ =>
        apply hcount.bind
        intro found middle hfound
        exact mirrors_skipWidths (Scalar.leastSize_mul_le_remaining hfound)
  · exact fun _ => mirrors_pure ()

end KeyedRows.Guarded
