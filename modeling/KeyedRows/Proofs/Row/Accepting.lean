import KeyedRows.Proofs.Column.Accepting
import KeyedRows.Proofs.Row.Frame

namespace KeyedRows

open Reader Scrutiny

namespace Record

variable {a b : Record} {columns : Schema}

/-- The bytes of some columns depend only on the slots that these columns find. -/
theorem bytesBy_congr {slotBytes : Column → Slot → Bytes}
    (h : ∀ column ∈ columns, a.slot? column.ordinal = b.slot? column.ordinal) :
    a.bytesBy slotBytes columns = b.bytesBy slotBytes columns := by
  apply List.flatMap_congr
  intro column hmem
  rw [value?, value?, h column hmem]

/-- How closely the bytes of some columns are looked at depends only on the slots
that these columns find. -/
theorem scrutinyBy_congr {slotScrutiny : Column → Slot → List Scrutiny}
    (h : ∀ column ∈ columns, a.slot? column.ordinal = b.slot? column.ordinal) :
    a.scrutinyBy slotScrutiny columns = b.scrutinyBy slotScrutiny columns := by
  apply List.flatMap_congr
  intro column hmem
  rw [value?, value?, h column hmem]

end Record

namespace Decoder

/-- Columns are read into their own places, each from bytes that pass for those of
its slot. No two columns may share a slot, or a later one would overwrite what an
earlier one has read, and the row must have all of their slots. -/
theorem accepts_readSlots {read : Column → Reader Slot} {skip : Column → Reader Unit}
    {slotScrutiny : Column → Slot → List Scrutiny} {slotBytes : Column → Slot → Bytes}
    {suits : Column → Slot → Prop} {order : ByteOrder} {columns : Schema} {record row : Record}
    {cursor after : Cursor}
    (hread : ∀ column slot cursor after, cursor.order = order →
      read column cursor = (.ok slot, after) → suits column slot ∧
        cursor.Accepts after (slotScrutiny column slot) (slotBytes column slot))
    (hnodup : (columns.map Column.ordinal).Nodup)
    (hlt : ∀ ordinal ∈ columns.map Column.ordinal, ordinal < record.size)
    (horder : cursor.order = order)
    (h : readSlots read skip .all columns record cursor = (.ok row, after)) :
    row.size = record.size ∧
      (∀ place, place ∉ columns.map Column.ordinal → row.slot? place = record.slot? place) ∧
      (∀ column ∈ columns, ∃ slot, row.slot? column.ordinal = some slot ∧ suits column slot) ∧
      cursor.Accepts after (row.scrutinyBy slotScrutiny columns) (row.bytesBy slotBytes columns) := by
  induction columns generalizing record cursor with
  | nil =>
    cases h
    exact ⟨rfl, fun _ _ => rfl, by simp, Cursor.accepts_refl _⟩
  | cons column columns ih =>
    obtain ⟨slot, middle, hslot, hrest⟩ := bind_ok_iff.1 h
    obtain ⟨hsuits, hfirst⟩ := hread column slot cursor middle horder hslot
    rw [List.map_cons, List.nodup_cons] at hnodup
    rw [List.map_cons, List.forall_mem_cons] at hlt
    have hsize : (record.set column.ordinal slot).size = record.size := Record.size_set hlt.1
    obtain ⟨hrow, hkept, hall, hbehind⟩ :=
      ih hnodup.2 (hsize.symm ▸ hlt.2) (hfirst.order.trans horder) hrest
    -- The columns behind have other ordinals, so the slot is still there at the end.
    have hown : row.slot? column.ordinal = some slot := by
      rw [hkept _ hnodup.1, Record.slot?_set hlt.1, if_pos rfl]
    refine ⟨hrow.trans hsize, ?_, List.forall_mem_cons.2 ⟨⟨slot, hown, hsuits⟩, hall⟩, ?_⟩
    · intro place hplace
      rw [List.map_cons, List.mem_cons, not_or] at hplace
      rw [hkept place hplace.2, Record.slot?_set hlt.1, if_neg (Ne.symm hplace.1)]
    · rw [Record.scrutinyBy, Record.bytesBy, List.flatMap_cons, List.flatMap_cons,
        Record.value?_of_slot? hown]
      exact hfirst.trans hbehind

variable {decoder : Decoder} {base record : Record} {key value : Bytes}

/-- A key that is read passes for one that is written. The row that it is read into
may hold anything, as long as it has a slot for each column. Its tag byte is not
looked at and is found again. -/
theorem allPass_of_readKey (hsize : base.size = decoder.plan.rowLength)
    (h : decoder.run (decoder.readKey .all base) key = .ok record) :
    record.size = decoder.plan.rowLength ∧ record.Fills decoder.plan.keyColumns ∧
      ∃ tag, key.head? = some tag ∧ AllPass (record.keyScrutiny decoder.plan.columns)
        (decoder.opening tag ++ record.bytesBy Column.keyBytes decoder.plan.keyColumns ++
          Frame.trailer) key := by
  obtain ⟨tag, place, stop, hkey, hslots, hend⟩ := exists_frame_of_readKey h
  have hkeys := decoder.plan.ordinal_lt_of_subset decoder.plan.keyColumns_subset
  have hread : ∀ (column : Column) (slot : Slot) (cursor after : Cursor),
      cursor.order = place.order → column.readKey cursor = (.ok slot, after) →
      column.Admits slot ∧ cursor.Accepts after (column.keyScrutiny slot) (column.keyBytes slot) :=
    fun _ _ _ _ _ h => Column.accepts_readKey h
  rw [keySlots] at hslots
  obtain ⟨hrow, -, hfills, found, hfound, hpass⟩ :=
    accepts_readSlots hread decoder.plan.nodup_keyOrdinals (hsize.symm ▸ hkeys) rfl hslots
  rw [hfound.unread, hend, List.append_nil] at hkey
  refine ⟨hrow.trans hsize, hfills, tag, ?_, ?_⟩
  · rw [hkey]
    rfl
  · have hall := ((allPass_exactly (decoder.opening tag)).append hpass).append
      (allPass_exactly Frame.trailer)
    rw [decoder.length_opening] at hall
    rw [hkey, ← List.append_assoc]
    exact hall

/-- A value that is read passes for one that is written, and leaves the slots of the
key alone. The row that it is read into may hold anything, as long as it has a slot
for each column. -/
theorem allPass_of_readValue (hsize : base.size = decoder.plan.rowLength)
    (h : decoder.run (decoder.readValue .all base) value = .ok record) :
    record.size = decoder.plan.rowLength ∧
      (∀ place, place ∉ decoder.plan.valueColumns.map Column.ordinal →
        record.slot? place = base.slot? place) ∧
      (∀ column ∈ decoder.plan.valueColumns, ∃ slot, record.slot? column.ordinal = some slot ∧
        column.Admits slot ∧ slot.Fits) ∧
      AllPass (record.valueScrutiny decoder.plan.columns)
        (decoder.plan.order.word 4 decoder.schemaVersion.toUInt32.toNat ++
          record.bytesBy (Column.valueBytes decoder.plan.order) decoder.plan.valueColumns) value := by
  rw [run, readValue_eq_toEnd] at h
  obtain ⟨stop, h⟩ := exists_after h
  obtain ⟨h, hend⟩ := toEnd_eq_ok_iff.1 h
  obtain ⟨⟨⟩, headed, hheader, hslots⟩ := bind_ok_iff.1 h
  have hheaded := follows_readHeader hheader
  have hvalues := decoder.plan.ordinal_lt_of_subset decoder.plan.valueColumns_subset
  have hread : ∀ (column : Column) (slot : Slot) (cursor after : Cursor),
      cursor.order = decoder.plan.order → column.readValue cursor = (.ok slot, after) →
      (column.Admits slot ∧ slot.Fits) ∧ cursor.Accepts after (column.valueScrutiny slot)
        (column.valueBytes decoder.plan.order slot) := by
    intro column slot cursor after horder hread
    obtain ⟨hadmits, hfits, haccepts⟩ := Column.accepts_readValue hread
    exact ⟨⟨hadmits, hfits⟩, horder ▸ haccepts⟩
  obtain ⟨hrow, hkept, hall, found, hfound, hpass⟩ :=
    accepts_readSlots hread decoder.plan.nodup_valueOrdinals (hsize.symm ▸ hvalues) hheaded.order hslots
  have hvalue := (Cursor.unread_of value decoder.plan.order).symm.trans hheaded.unread
  rw [hfound.unread, hend, List.append_nil] at hvalue
  refine ⟨hrow.trans hsize, hkept, hall, ?_⟩
  rw [hvalue]
  exact (allPass_word decoder.plan.order 4 _).append hpass

end Decoder

end KeyedRows
