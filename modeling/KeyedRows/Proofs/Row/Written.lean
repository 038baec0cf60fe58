import KeyedRows.Proofs.Error.Outcome
import KeyedRows.Row.Conforming
import KeyedRows.Row.Encoder
import KeyedRows.Row.Layout

namespace KeyedRows

/-- Whether a value, if there is one, is short enough for its length fields. -/
def Slot.Fits (slot : Slot) : Prop :=
  ∀ value, slot = some value → value.Fits

theorem Slot.fits_none : Slot.Fits none := by
  intro value hvalue
  cases hvalue

theorem Slot.fits_some {value : Value} (hfits : value.Fits) : Slot.Fits (some value) := by
  intro other hother
  cases hother
  exact hfits

/-- Whether each of some columns finds a slot in a row that it admits. -/
def Record.Fills (record : Record) (columns : Schema) : Prop :=
  ∀ column ∈ columns, ∃ slot, record.slot? column.ordinal = some slot ∧ column.Admits slot

theorem Record.value?_of_slot? {record : Record} {ordinal : Nat} {slot : Slot}
    (hslot : record.slot? ordinal = some slot) : record.value? ordinal = slot := by
  rw [value?, hslot]
  rfl

namespace Column

variable {column : Column} {slot : Slot} {region after : Region}

/-- What was written of a key column was admitted by it. -/
theorem admits_of_writeKey (h : column.writeKey slot region = .ok after) : column.Admits slot := by
  rw [writeKey, bind_eq_ok_iff] at h
  obtain ⟨⟨⟩, hcheck, -⟩ := h
  exact checkSlot_eq_ok_iff.1 hcheck

private theorem admits_of_writeValue (h : column.writeValue slot region = .ok after) :
    column.Admits slot := by
  rw [writeValue, bind_eq_ok_iff] at h
  obtain ⟨⟨⟩, hcheck, -⟩ := h
  exact checkSlot_eq_ok_iff.1 hcheck

end Column

namespace Scalar

private theorem fits_of_writeItem {kind : Scalar} {item : kind.Item} {region after : Region}
    (h : kind.writeItem item region = .ok after) : kind.Fits item := by
  cases kind with
  | bool | int32 | int64 | float32 | float64 => trivial
  | string =>
    simp only [writeItem, Region.pushSized] at h
    split at h
    · assumption
    · cases h

private theorem fits_of_writeItems {kind : Scalar} {items : List kind.Item} {region after : Region}
    (h : kind.writeItems items region = .ok after) : ∀ item ∈ items, kind.Fits item := by
  induction items generalizing region with
  | nil => simp
  | cons item items ih =>
    rw [writeItems, bind_eq_ok_iff] at h
    obtain ⟨middle, hitem, hrest⟩ := h
    intro other hmem
    obtain rfl | htail := List.mem_cons.1 hmem
    · exact fits_of_writeItem hitem
    · exact ih hrest other htail

end Scalar

private theorem Column.fits_of_writeValue {column : Column} {slot : Slot} {region after : Region}
    (h : column.writeValue slot region = .ok after) : slot.Fits := by
  rw [writeValue, bind_eq_ok_iff] at h
  obtain ⟨⟨⟩, -, hwrite⟩ := h
  intro value hvalue
  subst hvalue
  cases value with
  | scalar kind item => exact Scalar.fits_of_writeItem hwrite
  | list kind items =>
    simp only at hwrite
    split at hwrite
    · exact ⟨by assumption, Scalar.fits_of_writeItems hwrite⟩
    · cases hwrite

namespace Encoder

/-- What is written of the slots of columns, given what is written of each. Each
column must append its bytes in a region of the given order, and so does the whole.
The induction is on the columns. -/
theorem writeSlots_eq_ok {write : Column → Slot → Region → Except Error Region}
    {slotBytes : Column → Slot → Bytes} {order : ByteOrder} {columns : Schema} {record : Record}
    {region after : Region} (horder : region.order = order)
    (hwrite : ∀ column slot before after, before.order = order →
      write column slot before = .ok after → after.Extends before (slotBytes column slot))
    (h : writeSlots write record columns region = .ok after) :
    after.Extends region (record.bytesBy slotBytes columns) ∧
      ∀ column ∈ columns, ∃ slot before after, record.slot? column.ordinal = some slot ∧
        write column slot before = .ok after := by
  induction columns generalizing region with
  | nil =>
    cases h
    exact ⟨Region.extends_refl _, by simp⟩
  | cons column columns ih =>
    rw [writeSlots] at h
    cases hslot : record.slot? column.ordinal with
    | none => simp [hslot] at h
    | some slot =>
      simp only [hslot, bind_eq_ok_iff] at h
      obtain ⟨middle, hfirst, hrest⟩ := h
      have hextends := hwrite column slot region middle horder hfirst
      obtain ⟨hbehind, hall⟩ := ih (hextends.order.trans horder) hrest
      constructor
      · rw [Record.bytesBy, List.flatMap_cons, Record.value?_of_slot? hslot]
        exact hbehind.trans hextends
      · intro other hmem
        obtain rfl | htail := List.mem_cons.1 hmem
        · exact ⟨slot, region, middle, hslot, hfirst⟩
        · exact hall other htail

/-- The first check of every row is that it has one slot for each column. -/
theorem checkLength_eq_ok_iff {encoder : Encoder} {record : Record} :
    encoder.checkLength record = .ok () ↔ record.size = encoder.plan.rowLength := by
  simp [checkLength]

private theorem writeKeySlots_eq_ok {columns : Schema} {record : Record} {region after : Region}
    (h : writeSlots Column.writeKey record columns region = .ok after) :
    after.Extends region (record.bytesBy Column.keyBytes columns) ∧ record.Fills columns := by
  obtain ⟨hextends, hall⟩ :=
    writeSlots_eq_ok rfl (fun _ _ _ _ _ hwrite => Column.extends_writeKey hwrite) h
  refine ⟨hextends, ?_⟩
  intro column hmem
  obtain ⟨slot, before, after, hslot, hwrite⟩ := hall column hmem
  exact ⟨slot, hslot, Column.admits_of_writeKey hwrite⟩

/-- The tag byte and the common id in front of the columns of a key. -/
def opening (encoder : Encoder) (tag : UInt8) : Bytes :=
  tag :: ByteOrder.big.word 8 encoder.commonId.toUInt64.toNat

/-- The opening is written from the front, for any tag byte and in any region. -/
theorem extends_writeOpening (encoder : Encoder) (tag : UInt8) (region : Region) :
    (writeOpening tag encoder.commonId region).Extends region (encoder.opening tag) :=
  (Region.extends_pushUInt64 _ _).trans (region.extends_push [tag])

/-- The opening is written into a fresh region as it is into any other, whatever
room is made in front of it. -/
theorem extends_writeOpening_reserve (encoder : Encoder) (tag : UInt8) (count : Nat) :
    (writeOpening tag encoder.commonId (encoder.keyRegion.reserve count)).Extends encoder.keyRegion
      (encoder.opening tag) :=
  (encoder.extends_writeOpening tag _).trans (encoder.keyRegion.extends_reserve count)

private theorem backBytes_writeTrailer (region : Region) :
    (writeTrailer region).backBytes = Frame.trailer ++ region.backBytes := by
  simp only [writeTrailer, Region.backBytes_pushBack]
  rfl

private theorem frontBytes_writeTrailer (region : Region) :
    (writeTrailer region).frontBytes = region.frontBytes := by
  simp only [writeTrailer, Region.frontBytes_pushBack]

variable {encoder : Encoder} {tag : UInt8} {record : Record}

/-- A key is its opening, the bytes of the key columns and the trailer, and the row
has a slot that is admitted for each key column. All of this is known from its
having been written, and nothing is asked of the room that was set aside. -/
theorem encodeKey_eq_ok {key : Bytes} (h : encoder.encodeKey tag record = .ok key) :
    record.size = encoder.plan.rowLength ∧ record.Fills encoder.plan.keyColumns ∧
      key = encoder.opening tag ++ record.bytesBy Column.keyBytes encoder.plan.keyColumns ++
        Frame.trailer := by
  obtain ⟨region, hwrite, rfl⟩ := map_eq_ok_iff.1 h
  rw [writeKey, bind_eq_ok_iff] at hwrite
  obtain ⟨⟨⟩, hlength, hslots⟩ := hwrite
  obtain ⟨hextends, hfills⟩ := writeKeySlots_eq_ok hslots
  refine ⟨checkLength_eq_ok_iff.1 hlength, hfills, ?_⟩
  have hopened := encoder.extends_writeOpening_reserve tag (Frame.openingSize + Frame.trailerSize)
  obtain ⟨hfront, hback⟩ :=
    List.append_eq_nil_iff.1 (Region.toBytes_empty encoder.keyRoom encoder.plan.order)
  rw [Region.toBytes_eq, hextends.front, hextends.back, frontBytes_writeTrailer, hopened.front,
    backBytes_writeTrailer, hopened.back, keyRegion, hfront, hback, List.nil_append,
    List.append_nil]

/-- A value is the schema version and the bytes of the other columns, and the row
has a slot for each of them that is admitted and short enough for its length fields. -/
theorem encodeValue_eq_ok {value : Bytes} (h : encoder.encodeValue record = .ok value) :
    record.size = encoder.plan.rowLength ∧
      (∀ column ∈ encoder.plan.valueColumns, ∃ slot, record.slot? column.ordinal = some slot ∧
        column.Admits slot ∧ slot.Fits) ∧
      value = encoder.plan.order.word 4 encoder.schemaVersion.toUInt32.toNat ++
        record.bytesBy (Column.valueBytes encoder.plan.order) encoder.plan.valueColumns := by
  obtain ⟨region, hwrite, rfl⟩ := map_eq_ok_iff.1 h
  rw [writeValue, bind_eq_ok_iff] at hwrite
  obtain ⟨⟨⟩, hlength, hslots⟩ := hwrite
  have hroomy := encoder.valueRegion.extends_reserve Frame.headerSize
  have horder : (encoder.valueRegion.reserve Frame.headerSize).order = encoder.plan.order :=
    hroomy.order
  have hnumber := (encoder.valueRegion.reserve Frame.headerSize).extends_pushInt32
    encoder.schemaVersion
  rw [horder] at hnumber
  have hheaded := hnumber.trans hroomy
  obtain ⟨hextends, hall⟩ := writeSlots_eq_ok hheaded.order
    (fun _ _ _ _ hbefore hwrite => hbefore ▸ Column.extends_writeValue hwrite) hslots
  refine ⟨checkLength_eq_ok_iff.1 hlength, ?_, (hextends.trans hheaded).toBytes_of_empty⟩
  intro column hmem
  obtain ⟨slot, before, after, hslot, hwrite⟩ := hall column hmem
  exact ⟨slot, hslot, Column.admits_of_writeValue hwrite, Column.fits_of_writeValue hwrite⟩

/-- A row whose value is written has a slot that is admitted for every column
outside the key. -/
theorem fills_of_encodeValue {value : Bytes} (h : encoder.encodeValue record = .ok value) :
    record.Fills encoder.plan.valueColumns := by
  obtain ⟨-, hslots, -⟩ := encodeValue_eq_ok h
  intro column hmem
  obtain ⟨slot, hslot, hadmits, -⟩ := hslots column hmem
  exact ⟨slot, hslot, hadmits⟩

/-- What all keys with the same first key columns start with is the opening and the
bytes of these columns. The row need not be complete. -/
theorem leadingKey_eq_ok {count : Nat} {start : Bytes}
    (h : encoder.leadingKey tag record count = .ok start) :
    record.Fills (encoder.plan.keyColumns.take count) ∧
      start = encoder.opening tag ++
        record.bytesBy Column.keyBytes (encoder.plan.keyColumns.take count) := by
  obtain ⟨region, hslots, rfl⟩ := map_eq_ok_iff.1 h
  obtain ⟨hextends, hfills⟩ := writeKeySlots_eq_ok hslots
  have hopened := encoder.extends_writeOpening_reserve tag Frame.openingSize
  exact ⟨hfills, (hextends.trans hopened).toBytes_of_empty⟩

end Encoder

end KeyedRows
