import KeyedRows.Proofs.Row.Written
import KeyedRows.Proofs.Schema.Checked

namespace KeyedRows

namespace Scalar

private theorem exists_writeItem {kind : Scalar} {item : kind.Item} (hfits : kind.Fits item)
    (region : Region) : ∃ after, kind.writeItem item region = .ok after := by
  cases kind with
  | bool | int32 | int64 | float32 | float64 => exact ⟨_, rfl⟩
  | string =>
    have hlength : (Utf8.encode item).length < Frame.lengthLimit := hfits
    rw [writeItem, Region.pushSized, if_pos hlength]
    exact ⟨_, rfl⟩

private theorem exists_writeItems {kind : Scalar} {items : List kind.Item}
    (hfits : ∀ item ∈ items, kind.Fits item) (region : Region) :
    ∃ after, kind.writeItems items region = .ok after := by
  induction items generalizing region with
  | nil => exact ⟨region, rfl⟩
  | cons item items ih =>
    rw [List.forall_mem_cons] at hfits
    obtain ⟨middle, hitem⟩ := exists_writeItem hfits.1 region
    obtain ⟨after, hrest⟩ := ih hfits.2 middle
    exact ⟨after, bind_eq_ok_iff.2 ⟨middle, hitem, hrest⟩⟩

end Scalar

namespace Column

variable {column : Column} {slot : Slot}

/-- A slot that a key column admits can always be written, and no bound on lengths
is needed. The column must be no list, which has no form in keys. -/
theorem exists_writeKey (hscalar : column.type.isList = false) (hadmits : column.Admits slot)
    (region : Region) : ∃ after, column.writeKey slot region = .ok after := by
  have hcheck := checkSlot_eq_ok_iff.2 hadmits
  cases slot with
  | none => exact ⟨_, bind_eq_ok_iff.2 ⟨⟨⟩, hcheck, rfl⟩⟩
  | some value =>
    cases value with
    | scalar kind item => exact ⟨_, bind_eq_ok_iff.2 ⟨⟨⟩, hcheck, rfl⟩⟩
    | list kind items =>
      have htype : ColumnType.list kind = column.type := hadmits
      rw [← htype] at hscalar
      cases hscalar

/-- A slot that a column admits can be written outside the key if its strings and
lists are short enough for their length fields. -/
theorem exists_writeValue (hadmits : column.Admits slot) (hfits : slot.Fits) (region : Region) :
    ∃ after, column.writeValue slot region = .ok after := by
  have hcheck := checkSlot_eq_ok_iff.2 hadmits
  cases slot with
  | none => exact ⟨_, bind_eq_ok_iff.2 ⟨⟨⟩, hcheck, rfl⟩⟩
  | some value =>
    have hvalue : value.Fits := hfits value rfl
    cases value with
    | scalar kind item =>
      obtain ⟨after, hitem⟩ := Scalar.exists_writeItem hvalue (column.writeMarker _ region)
      exact ⟨after, bind_eq_ok_iff.2 ⟨⟨⟩, hcheck, hitem⟩⟩
    | list kind items =>
      obtain ⟨after, hitems⟩ := Scalar.exists_writeItems hvalue.2 _
      refine ⟨after, bind_eq_ok_iff.2 ⟨⟨⟩, hcheck, ?_⟩⟩
      exact (if_pos hvalue.1).trans hitems

end Column

namespace Encoder

private theorem exists_writeSlots {write : Column → Slot → Region → Except Error Region}
    {record : Record} {columns : Schema}
    (hwrite : ∀ column ∈ columns, ∃ slot, record.slot? column.ordinal = some slot ∧
      ∀ region, ∃ after, write column slot region = .ok after) (region : Region) :
    ∃ after, writeSlots write record columns region = .ok after := by
  induction columns generalizing region with
  | nil => exact ⟨region, rfl⟩
  | cons column columns ih =>
    rw [List.forall_mem_cons] at hwrite
    obtain ⟨⟨slot, hslot, hfirst⟩, hrest⟩ := hwrite
    obtain ⟨middle, hmiddle⟩ := hfirst region
    obtain ⟨after, hafter⟩ := ih hrest middle
    refine ⟨after, ?_⟩
    rw [writeSlots]
    simp only [hslot]
    exact bind_eq_ok_iff.2 ⟨middle, hmiddle, hafter⟩

variable {encoder : Encoder} {record : Record}

/-- Slots that key columns admit are written, since no key column holds lists. No
bound on lengths is needed, and the region may be any. -/
theorem exists_writeKeySlots {columns : Schema} (hsubset : columns ⊆ encoder.plan.keyColumns)
    (hfills : record.Fills columns) (region : Region) :
    ∃ after, writeSlots Column.writeKey record columns region = .ok after := by
  apply exists_writeSlots
  intro column hmem
  obtain ⟨slot, hslot, hadmits⟩ := hfills column hmem
  have hscalar := encoder.plan.isList_of_mem_keyColumns (hsubset hmem)
  exact ⟨slot, hslot, Column.exists_writeKey hscalar hadmits⟩

/-- A key is written of a row if all key columns admit their slots. Slots outside
the key are not looked at, and no bound on lengths is needed. -/
theorem exists_encodeKey (tag : UInt8) (hsize : record.size = encoder.plan.rowLength)
    (hfills : record.Fills encoder.plan.keyColumns) :
    ∃ key, encoder.encodeKey tag record = .ok key := by
  let roomy := encoder.keyRegion.reserve (Frame.openingSize + Frame.trailerSize)
  obtain ⟨region, hslots⟩ := exists_writeKeySlots (List.Subset.refl _) hfills
    (writeTrailer (writeOpening tag encoder.commonId roomy))
  refine ⟨region.toBytes, map_eq_ok_iff.2 ⟨region, ?_, rfl⟩⟩
  rw [writeKey, bind_eq_ok_iff]
  exact ⟨⟨⟩, checkLength_eq_ok_iff.2 hsize, hslots⟩

/-- A value is written of a row if all other columns admit their slots, and the
values in them are short enough for their length fields. Slots of the key are not
looked at. -/
theorem exists_encodeValue (hsize : record.size = encoder.plan.rowLength)
    (hslots : ∀ column ∈ encoder.plan.valueColumns, ∃ slot,
      record.slot? column.ordinal = some slot ∧ column.Admits slot ∧ slot.Fits) :
    ∃ value, encoder.encodeValue record = .ok value := by
  have hwrite : ∀ column ∈ encoder.plan.valueColumns, ∃ slot,
      record.slot? column.ordinal = some slot ∧
        ∀ region, ∃ after, column.writeValue slot region = .ok after := by
    intro column hmem
    obtain ⟨slot, hslot, hadmits, hfits⟩ := hslots column hmem
    exact ⟨slot, hslot, Column.exists_writeValue hadmits hfits⟩
  let roomy := encoder.valueRegion.reserve Frame.headerSize
  obtain ⟨region, hslots⟩ := exists_writeSlots hwrite (roomy.pushInt32 encoder.schemaVersion)
  refine ⟨region.toBytes, map_eq_ok_iff.2 ⟨region, ?_, rfl⟩⟩
  rw [writeValue, bind_eq_ok_iff]
  exact ⟨⟨⟩, checkLength_eq_ok_iff.2 hsize, hslots⟩

end Encoder

end KeyedRows
