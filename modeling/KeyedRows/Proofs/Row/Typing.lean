import KeyedRows.Proofs.Row.Accepting

namespace KeyedRows

/-- A row has one slot for every column of a plan, and every slot belongs to a
column. In a column that is wanted stands a slot that the column admits, and in any
other one nothing. -/
structure Record.TypedBy (record : Record) (plan : Plan) (wants : Column → Bool) : Prop where
  size : record.size = plan.rowLength
  places : ∀ place < record.size, ∃ column ∈ plan.columns, column.ordinal = place
  slots : ∀ column ∈ plan.columns, ∃ slot, record.slot? column.ordinal = some slot ∧
    if wants column then column.Admits slot else slot = none

namespace Record.TypedBy

variable {record : Record} {plan : Plan} {wants wants' : Column → Bool}

theorem congr (h : record.TypedBy plan wants)
    (hsame : ∀ column ∈ plan.columns, wants column = wants' column) :
    record.TypedBy plan wants' where
  size := h.size
  places := h.places
  slots column hmem := hsame column hmem ▸ h.slots column hmem

/-- In a column that is not wanted stands nothing. -/
theorem slot?_of_unwanted (h : record.TypedBy plan wants) {column : Column}
    (hmem : column ∈ plan.columns) (hwants : wants column = false) :
    record.slot? column.ordinal = some none := by
  obtain ⟨slot, hslot, habsent⟩ := h.slots column hmem
  rw [if_neg (ne_true_of_eq_false hwants)] at habsent
  rw [hslot, habsent]

end Record.TypedBy

namespace Decoder

/-- Before anything is read no column has a value, and no column is wanted. -/
theorem typedBy_absentRecord (decoder : Decoder) :
    decoder.absentRecord.TypedBy decoder.plan fun _ => false where
  size := Record.size_absent _
  places place hlt := by
    rw [absentRecord, Record.size_absent] at hlt
    exact decoder.plan.exists_column_of_lt hlt
  slots column hmem := ⟨none, Record.slot?_absent (decoder.plan.ordinal_lt hmem), rfl⟩

/-- Columns that are selected are read into their own places, and all other places
are left alone. What a column reads must be admitted by it, no two columns may share
a slot, and all slots must be there. -/
theorem admits_readSlots {read : Column → Reader Slot} {skip : Column → Reader Unit}
    {selection : Selection} {columns : Schema} {record row : Record} {cursor after : Cursor}
    (hread : ∀ column slot cursor after, read column cursor = (.ok slot, after) → column.Admits slot)
    (hnodup : (columns.map Column.ordinal).Nodup)
    (hlt : ∀ ordinal ∈ columns.map Column.ordinal, ordinal < record.size)
    (h : readSlots read skip selection columns record cursor = (.ok row, after)) :
    row.size = record.size ∧
      (∀ place, place ∉ columns.map Column.ordinal ∨ selection.wants place = false →
        row.slot? place = record.slot? place) ∧
      ∀ column ∈ columns, selection.wants column.ordinal = true →
        ∃ slot, row.slot? column.ordinal = some slot ∧ column.Admits slot := by
  induction columns generalizing record cursor with
  | nil =>
    cases h
    exact ⟨rfl, fun _ _ => rfl, by simp⟩
  | cons column columns ih =>
    rw [List.map_cons, List.nodup_cons] at hnodup
    rw [List.map_cons, List.forall_mem_cons] at hlt
    rw [readSlots] at h
    by_cases hwants : selection.wants column.ordinal = true
    · rw [if_pos hwants] at h
      obtain ⟨slot, middle, hslot, hrest⟩ := Reader.bind_ok_iff.1 h
      have hsize : (record.set column.ordinal slot).size = record.size := Record.size_set hlt.1
      obtain ⟨hrow, hkept, hall⟩ := ih hnodup.2 (hsize.symm ▸ hlt.2) hrest
      -- The columns behind have other ordinals, so the slot is still there at the end.
      have hown : row.slot? column.ordinal = some slot := by
        rw [hkept _ (.inl hnodup.1), Record.slot?_set hlt.1, if_pos rfl]
      refine ⟨hrow.trans hsize, ?_, ?_⟩
      · intro place hplace
        have hother : column.ordinal ≠ place := by
          rintro rfl
          rw [List.map_cons, List.mem_cons] at hplace
          simp [hwants] at hplace
        rw [hkept place (hplace.imp_left fun hmem h => hmem (List.mem_cons_of_mem _ h)),
          Record.slot?_set hlt.1, if_neg hother]
      · rw [List.forall_mem_cons]
        exact ⟨fun _ => ⟨slot, hown, hread column slot cursor middle hslot⟩, hall⟩
    · rw [if_neg hwants] at h
      obtain ⟨⟨⟩, middle, -, hrest⟩ := Reader.bind_ok_iff.1 h
      obtain ⟨hrow, hkept, hall⟩ := ih hnodup.2 hlt.2 hrest
      refine ⟨hrow, ?_, List.forall_mem_cons.2 ⟨fun h => absurd h hwants, hall⟩⟩
      intro place hplace
      exact hkept place (hplace.imp_left fun hmem h => hmem (List.mem_cons_of_mem _ h))

/-- Reading one half of a row adds the columns of that half that are selected. What
was wanted before stays wanted, and what stood there is kept. -/
theorem Half.typedBy_reader {plan : Plan} {half : Half plan} {selection : Selection}
    {record row : Record} {wants : Column → Bool} {cursor after : Cursor}
    (hread : ∀ column slot cursor after,
      half.read column cursor = (.ok slot, after) → column.Admits slot)
    (hnodup : (half.columns.map Column.ordinal).Nodup) (hrecord : record.TypedBy plan wants)
    (h : half.reader selection record cursor = (.ok row, after)) :
    row.TypedBy plan fun column =>
      decide (column ∈ half.columns) && selection.wants column.ordinal || wants column := by
  obtain ⟨⟨⟩, framed, -, h⟩ := Reader.bind_ok_iff.1 h
  obtain ⟨found, middle, hslots, h⟩ := Reader.bind_ok_iff.1 h
  obtain ⟨⟨⟩, stop, -, h⟩ := Reader.bind_ok_iff.1 h
  cases h
  obtain ⟨hsize, hkept, hadmits⟩ := admits_readSlots hread hnodup
    (hrecord.size ▸ plan.ordinal_lt_of_subset half.subset) hslots
  refine ⟨hsize.trans hrecord.size, fun place hlt => hrecord.places place (hsize ▸ hlt), ?_⟩
  intro column hmem
  by_cases hread : column ∈ half.columns ∧ selection.wants column.ordinal = true
  · obtain ⟨slot, hslot, hadmits⟩ := hadmits column hread.1 hread.2
    exact ⟨slot, hslot, by simpa [hread.1, hread.2] using hadmits⟩
  · have hleft : column.ordinal ∉ half.columns.map Column.ordinal ∨
        selection.wants column.ordinal = false := by
      by_cases hwants : selection.wants column.ordinal = true
      · left
        intro hplace
        obtain ⟨other, hother, heq⟩ := List.mem_map.1 hplace
        have hsame := List.inj_on_of_nodup_map plan.nodup_ordinals (half.subset hother) hmem heq
        exact hread ⟨hsame ▸ hother, hwants⟩
      · exact .inr (Bool.not_eq_true _ ▸ hwants)
    obtain ⟨slot, hslot, htyped⟩ := hrecord.slots column hmem
    refine ⟨slot, (hkept _ hleft).trans hslot, ?_⟩
    have hflag : (decide (column ∈ half.columns) && selection.wants column.ordinal) = false := by
      simpa using hread
    simpa only [hflag, Bool.false_or] using htyped

variable {decoder : Decoder} {selection : Selection} {record row : Record} {wants : Column → Bool}
  {bytes : Bytes}

/-- Reading a key adds the selected key columns. -/
theorem typedBy_readKey (hrecord : record.TypedBy decoder.plan wants)
    (h : decoder.run (decoder.readKey selection record) bytes = .ok row) :
    row.TypedBy decoder.plan fun column =>
      column.isKey && selection.wants column.ordinal || wants column := by
  rw [run, readKey_eq] at h
  obtain ⟨after, h⟩ := Reader.exists_after h
  have hadmits : ∀ (column : Column) (slot : Slot) (cursor after : Cursor),
      column.readKey cursor = (.ok slot, after) → column.Admits slot :=
    fun _ _ _ _ hread => (Column.accepts_readKey hread).1
  apply (Half.typedBy_reader hadmits decoder.plan.nodup_keyOrdinals hrecord h).congr
  intro column hmem
  have hkey : decide (column ∈ decoder.plan.keyColumns) = column.isKey := by
    simp [decoder.plan.mem_keyColumns, hmem]
  rw [← hkey]
  rfl

/-- Reading a value adds the selected columns outside the key. -/
theorem typedBy_readValue (hrecord : record.TypedBy decoder.plan wants)
    (h : decoder.run (decoder.readValue selection record) bytes = .ok row) :
    row.TypedBy decoder.plan fun column =>
      !column.isKey && selection.wants column.ordinal || wants column := by
  rw [run, readValue_eq] at h
  obtain ⟨after, h⟩ := Reader.exists_after h
  have hadmits : ∀ (column : Column) (slot : Slot) (cursor after : Cursor),
      column.readValue cursor = (.ok slot, after) → column.Admits slot :=
    fun _ _ _ _ hread => (Column.accepts_readValue hread).1
  apply (Half.typedBy_reader hadmits decoder.plan.nodup_valueOrdinals hrecord h).congr
  intro column hmem
  have hvalue : decide (column ∈ decoder.plan.valueColumns) = !column.isKey := by
    simp [decoder.plan.mem_valueColumns, hmem]
  rw [← hvalue]
  rfl

end Decoder

end KeyedRows
