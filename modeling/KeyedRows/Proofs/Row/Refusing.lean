import KeyedRows.Proofs.Record.Slots
import KeyedRows.Proofs.Row.Conforming
import KeyedRows.Proofs.Row.KeyOrder

namespace KeyedRows

namespace Column

/-- What is wrong with a slot that a column does not admit. -/
def misfit (column : Column) : Slot → Error
  | some value => .wrongType column.ordinal column.type value.type
  | none => .valueMissing column.ordinal

variable {column : Column} {slot : Slot}

private theorem checkSlot_of_not_admits (h : ¬column.Admits slot) :
    column.checkSlot slot = .error (column.misfit slot) := by
  cases slot with
  | none => exact if_neg h
  | some value => exact if_neg h

private theorem writeKey_of_not_admits (h : ¬column.Admits slot) (region : Region) :
    column.writeKey slot region = .error (column.misfit slot) := by
  rw [writeKey, bind_eq_error_iff]
  exact .inl (checkSlot_of_not_admits h)

private theorem writeValue_of_not_admits (h : ¬column.Admits slot) (region : Region) :
    column.writeValue slot region = .error (column.misfit slot) := by
  rw [writeValue, bind_eq_error_iff]
  exact .inl (checkSlot_of_not_admits h)

end Column

namespace Record

variable {record other : Record} {columns : Schema}

/-- What is wrong with the slot of the first of some columns that does not admit its
own. -/
def misfit? (record : Record) (columns : Schema) : Option Error :=
  (columns.find? fun column => ¬column.Admits (record.value? column.ordinal)).map fun column =>
    column.misfit (record.value? column.ordinal)

private theorem misfit?_cons {column : Column} {slot : Slot} (hslot : record.slot? column.ordinal = some slot) :
    record.misfit? (column :: columns) =
      if column.Admits slot then record.misfit? columns else some (column.misfit slot) := by
  rw [misfit?, List.find?_cons, value?_of_slot? hslot]
  by_cases hadmits : column.Admits slot
  · simp [hadmits, misfit?]
  · simp [hadmits, value?_of_slot? hslot]

/-- Whether a row has a slot for each of some columns, whatever it holds. -/
def Reaches (record : Record) (columns : Schema) : Prop :=
  ∀ column ∈ columns, ∃ slot, record.slot? column.ordinal = some slot

private theorem misfit?_eq_none_iff (hreaches : record.Reaches columns) :
    record.misfit? columns = none ↔ record.Fills columns := by
  rw [misfit?, Option.map_eq_none_iff, List.find?_eq_none]
  constructor
  · intro h column hmem
    obtain ⟨slot, hslot⟩ := hreaches column hmem
    have hadmits := h column hmem
    rw [value?_of_slot? hslot, decide_not, Bool.not_eq_true', decide_eq_false_iff_not,
      not_not] at hadmits
    exact ⟨slot, hslot, hadmits⟩
  · intro h column hmem
    obtain ⟨slot, hslot, hadmits⟩ := h column hmem
    simpa [value?_of_slot? hslot] using hadmits

/-- What is wrong with a slot is about its value, never about its place or its
column. -/
theorem misfit?_cases {e : Error} (h : record.misfit? columns = some e) :
    ∃ column ∈ columns, e = column.misfit (record.value? column.ordinal) := by
  obtain ⟨column, hfound, rfl⟩ := Option.map_eq_some_iff.1 h
  exact ⟨column, List.mem_of_find?_eq_some hfound, rfl⟩

private theorem Fits.slot_fits (hfits : record.Fits) {ordinal : Nat} {slot : Slot}
    (hslot : record.slot? ordinal = some slot) : slot.Fits := by
  intro value hvalue
  apply hfits value
  rw [← hvalue]
  exact List.mem_of_getElem? hslot

end Record

namespace Encoder

variable {encoder : Encoder} {tag : UInt8} {record other : Record} {columns : Schema} {e : Error}
  {write : Column → Slot → Region → Except Error Region}

/-- The columns in front of the first misfit are written, and the misfit is the
answer. The row must have a slot for each column, each column must refuse what it
does not admit, and must write what it does. -/
theorem writeSlots_of_misfit (hreaches : record.Reaches columns)
    (hrefuses : ∀ column slot region, ¬column.Admits slot →
      write column slot region = .error (column.misfit slot))
    (hwrites : ∀ column ∈ columns, ∀ slot, record.slot? column.ordinal = some slot →
      column.Admits slot → ∀ region, ∃ after, write column slot region = .ok after)
    (h : record.misfit? columns = some e) (region : Region) :
    writeSlots write record columns region = .error e := by
  induction columns generalizing region with
  | nil => cases h
  | cons column columns ih =>
    obtain ⟨slot, hslot⟩ := hreaches column List.mem_cons_self
    rw [Record.misfit?_cons hslot] at h
    rw [writeSlots]
    simp only [hslot]
    rw [bind_eq_error_iff]
    split at h
    · rename_i hadmits
      obtain ⟨middle, hmiddle⟩ := hwrites column List.mem_cons_self slot hslot hadmits region
      exact .inr ⟨middle, hmiddle, ih
        (fun other hmem => hreaches other (List.mem_cons_of_mem _ hmem))
        (fun other hmem => hwrites other (List.mem_cons_of_mem _ hmem)) h middle⟩
    · rename_i hadmits
      exact .inl ((hrefuses column slot region hadmits).trans (congrArg _ (Option.some.inj h)))

/-- Slots of other columns are not looked at. -/
theorem writeSlots_congr
    (hsame : ∀ column ∈ columns, other.slot? column.ordinal = record.slot? column.ordinal)
    (region : Region) :
    writeSlots write other columns region = writeSlots write record columns region := by
  induction columns generalizing region with
  | nil => rfl
  | cons column columns ih =>
    rw [List.forall_mem_cons] at hsame
    rw [writeSlots, writeSlots, hsame.1]
    split
    · rfl
    · congr 1
      funext middle
      exact ih hsame.2 middle

private theorem reaches_of_size (hsize : record.size = encoder.plan.rowLength)
    (hsubset : columns ⊆ encoder.plan.columns) : record.Reaches columns := by
  intro column hmem
  exact Record.exists_slot_of_lt (hsize ▸ encoder.plan.ordinal_lt (hsubset hmem))

private theorem checkLength_of_ne (hsize : record.size ≠ encoder.plan.rowLength) :
    encoder.checkLength record = .error (.rowLength record.size encoder.plan.rowLength) :=
  if_neg hsize

private theorem encodeKey_of_misfit (hsize : record.size = encoder.plan.rowLength)
    (h : record.misfit? encoder.plan.keyColumns = some e) : encoder.encodeKey tag record = .error e := by
  let roomy := encoder.keyRegion.reserve (Frame.openingSize + Frame.trailerSize)
  have hslots := writeSlots_of_misfit (reaches_of_size hsize encoder.plan.keyColumns_subset)
    (fun _ _ region hadmits => Column.writeKey_of_not_admits hadmits region)
    (fun column hmem _ _ hadmits =>
      Column.exists_writeKey (encoder.plan.isList_of_mem_keyColumns hmem) hadmits)
    h (writeTrailer (writeOpening tag encoder.commonId roomy))
  rw [encodeKey, writeKey, checkLength_eq_ok_iff.2 hsize]
  exact congrArg (Except.map Region.toBytes) hslots

private theorem encodeValue_of_misfit (hfits : record.Fits) (hsize : record.size = encoder.plan.rowLength)
    (h : record.misfit? encoder.plan.valueColumns = some e) :
    encoder.encodeValue record = .error e := by
  let roomy := encoder.valueRegion.reserve Frame.headerSize
  have hslots := writeSlots_of_misfit (reaches_of_size hsize encoder.plan.valueColumns_subset)
    (fun _ _ region hadmits => Column.writeValue_of_not_admits hadmits region)
    (fun _ _ _ hslot hadmits => Column.exists_writeValue hadmits (hfits.slot_fits hslot))
    h (roomy.pushInt32 encoder.schemaVersion)
  rw [encodeValue, writeValue, checkLength_eq_ok_iff.2 hsize]
  exact congrArg (Except.map Region.toBytes) hslots

/-- Why a row is refused: for its length, else for the first key column that does
not admit its slot, else for the first other column that does not. -/
def refusal? (encoder : Encoder) (record : Record) : Option Error :=
  if record.size = encoder.plan.rowLength then
    (record.misfit? encoder.plan.keyColumns).or (record.misfit? encoder.plan.valueColumns)
  else some (.rowLength record.size encoder.plan.rowLength)

private theorem conforms_iff_fills :
    record.Conforms encoder.plan.columns ↔ record.size = encoder.plan.rowLength ∧
      record.Fills encoder.plan.keyColumns ∧ record.Fills encoder.plan.valueColumns := by
  constructor
  · intro ⟨hsize, hall⟩
    exact ⟨hsize, fun column hmem => hall column (encoder.plan.keyColumns_subset hmem),
      fun column hmem => hall column (encoder.plan.valueColumns_subset hmem)⟩
  · intro ⟨hsize, hkeys, hvalues⟩
    refine ⟨hsize, ?_⟩
    intro column hmem
    cases hkey : column.isKey with
    | true => exact hkeys column (encoder.plan.mem_keyColumns.2 ⟨hmem, hkey⟩)
    | false => exact hvalues column (encoder.plan.mem_valueColumns.2 ⟨hmem, hkey⟩)

private theorem refusal?_eq_none_iff :
    encoder.refusal? record = none ↔ record.Conforms encoder.plan.columns := by
  rw [conforms_iff_fills, refusal?]
  by_cases hsize : record.size = encoder.plan.rowLength
  · rw [if_pos hsize, Option.or_eq_none_iff,
      Record.misfit?_eq_none_iff (reaches_of_size hsize encoder.plan.keyColumns_subset),
      Record.misfit?_eq_none_iff (reaches_of_size hsize encoder.plan.valueColumns_subset)]
    simp [hsize]
  · simp [hsize]

/-- A row that conforms is written if its values are short enough. That bound is
about length fields, which only columns outside the key have. -/
theorem exists_encode (tag : UInt8) (hfits : record.Fits) (hconforms : record.Conforms encoder.plan.columns) :
    ∃ key value, encoder.encode tag record = .ok (key, value) := by
  obtain ⟨hsize, hkeys, hvalues⟩ := conforms_iff_fills.1 hconforms
  have hslots : ∀ column ∈ encoder.plan.valueColumns, ∃ slot,
      record.slot? column.ordinal = some slot ∧ column.Admits slot ∧ slot.Fits := by
    intro column hmem
    obtain ⟨slot, hslot, hadmits⟩ := hvalues column hmem
    exact ⟨slot, hslot, hadmits, hfits.slot_fits hslot⟩
  obtain ⟨key, hkey⟩ := exists_encodeKey tag hsize hkeys
  obtain ⟨value, hvalue⟩ := exists_encodeValue hsize hslots
  refine ⟨key, value, ?_⟩
  rw [encode, hkey, hvalue]
  rfl

/-- A row that is refused is refused for the first reason that there is. The values
must be short enough, or a value that is too long could be found first. -/
theorem encode_of_refusal (tag : UInt8) (hfits : record.Fits)
    (h : encoder.refusal? record = some e) :
    encoder.encode tag record = .error e := by
  rw [refusal?] at h
  split at h
  · rename_i hsize
    rw [encode, bind_eq_error_iff]
    obtain hkey | ⟨hkey, hvalue⟩ := Option.or_eq_some_iff.1 h
    · exact .inl (encodeKey_of_misfit hsize hkey)
    · have hfills := (Record.misfit?_eq_none_iff
        (reaches_of_size hsize encoder.plan.keyColumns_subset)).1 hkey
      obtain ⟨key, hwritten⟩ := exists_encodeKey tag hsize hfills
      refine .inr ⟨key, hwritten, ?_⟩
      rw [encodeValue_of_misfit hfits hsize hvalue]
      rfl
  · rename_i hsize
    cases h
    rw [encode, encodeKey, writeKey, checkLength_of_ne hsize]
    rfl

/-- A refusal is a mismatch with the schema, and none of those that no row meets. -/
theorem refusal?_cases (h : encoder.refusal? record = some e) :
    (∃ slots columns, e = .rowLength slots columns) ∨
      (∃ ordinal expected given, e = .wrongType ordinal expected given) ∨
      ∃ ordinal, e = .valueMissing ordinal := by
  have hmisfit : ∀ columns, record.misfit? columns = some e →
      (∃ ordinal expected given, e = .wrongType ordinal expected given) ∨
        ∃ ordinal, e = .valueMissing ordinal := by
    intro columns hcolumns
    obtain ⟨column, -, rfl⟩ := Record.misfit?_cases hcolumns
    cases record.value? column.ordinal with
    | none => exact .inr ⟨_, rfl⟩
    | some value => exact .inl ⟨_, _, _, rfl⟩
  rw [refusal?] at h
  split at h
  · obtain hkey | ⟨-, hvalue⟩ := Option.or_eq_some_iff.1 h
    · exact .inr (hmisfit _ hkey)
    · exact .inr (hmisfit _ hvalue)
  · cases h
    exact .inl ⟨_, _, rfl⟩

private theorem encodeKey_of_same_slots (hsize : other.size = record.size)
    (hsame : ∀ column ∈ encoder.plan.keyColumns,
      other.slot? column.ordinal = record.slot? column.ordinal) :
    encoder.encodeKey tag other = encoder.encodeKey tag record := by
  rw [encodeKey, encodeKey, writeKey, writeKey, checkLength, checkLength, hsize]
  simp only [writeSlots_congr hsame]

private theorem encodeValue_of_same_slots (hsize : other.size = record.size)
    (hsame : ∀ column ∈ encoder.plan.valueColumns,
      other.slot? column.ordinal = record.slot? column.ordinal) :
    encoder.encodeValue other = encoder.encodeValue record := by
  rw [encodeValue, encodeValue, writeValue, writeValue, checkLength, checkLength, hsize]
  simp only [writeSlots_congr hsame]

/-- What keys with given first columns start with is written of every row that fills
these columns, whatever its length and its other slots. No length is checked here,
as keys have no length fields and the row may be one that is not complete. -/
theorem exists_leadingKey_iff (tag : UInt8) (count : Nat) :
    (∃ start, encoder.leadingKey tag record count = .ok start) ↔
      record.Fills (encoder.plan.keyColumns.take count) := by
  constructor
  · intro ⟨start, hstart⟩
    exact (leadingKey_eq_ok hstart).1
  · intro hfills
    obtain ⟨region, hregion⟩ := exists_writeKeySlots (List.take_subset count _) hfills
      (writeOpening tag encoder.commonId (encoder.keyRegion.reserve Frame.openingSize))
    exact ⟨region.toBytes, map_eq_ok_iff.2 ⟨region, hregion, rfl⟩⟩

/-- A row whose values are short enough is written exactly if it conforms to the
schema, and otherwise refused for the first reason that there is, which is always a
mismatch with the schema. The key depends on the key slots and the number of slots
alone, the value on the other slots and that number. What keys with given first
columns start with asks for these columns only. -/
theorem encode_decided_by_conforming (encoder : Encoder) (tag : UInt8) (record : Record) :
    (record.Fits →
      ((∃ key value, encoder.encode tag record = .ok (key, value)) ↔
        record.Conforms encoder.plan.columns) ∧
      ∀ e, encoder.encode tag record = .error e ↔ encoder.refusal? record = some e) ∧
    (∀ e, encoder.refusal? record = some e → e.kind = .schemaMismatch ∧
      (∀ ordinal, e ≠ .noSlot ordinal) ∧ ∀ ordinal type, e ≠ .notKeyType ordinal type) ∧
    (∀ other : Record, other.size = record.size →
      (∀ column ∈ encoder.plan.keyColumns,
        other.slot? column.ordinal = record.slot? column.ordinal) →
      encoder.encodeKey tag other = encoder.encodeKey tag record) ∧
    (∀ other : Record, other.size = record.size →
      (∀ column ∈ encoder.plan.valueColumns,
        other.slot? column.ordinal = record.slot? column.ordinal) →
      encoder.encodeValue other = encoder.encodeValue record) ∧
    (∀ count, (∃ start, encoder.leadingKey tag record count = .ok start) ↔
      record.Fills (encoder.plan.keyColumns.take (min count encoder.plan.keyColumns.length))) := by
  refine ⟨?_, ?_, ?_, ?_, ?_⟩
  · intro hfits
    cases hrefusal : encoder.refusal? record with
    | none =>
      have hconforms := refusal?_eq_none_iff.1 hrefusal
      obtain ⟨key, value, hencode⟩ := exists_encode tag hfits hconforms
      simp [hencode, hconforms]
    | some e =>
      have hencode := encode_of_refusal tag hfits hrefusal
      have hconforms : ¬record.Conforms encoder.plan.columns := by
        rw [← refusal?_eq_none_iff, hrefusal]
        exact Option.some_ne_none e
      simp [hencode, hconforms]
  · intro e hrefusal
    obtain ⟨slots, columns, rfl⟩ | ⟨ordinal, expected, given, rfl⟩ | ⟨ordinal, rfl⟩ :=
      refusal?_cases hrefusal
    · exact ⟨rfl, by simp, by simp⟩
    · exact ⟨rfl, by simp, by simp⟩
    · exact ⟨rfl, by simp, by simp⟩
  · intro other hsize hsame
    exact encodeKey_of_same_slots hsize hsame
  · intro other hsize hsame
    exact encodeValue_of_same_slots hsize hsame
  · intro count
    rw [← List.take_eq_take_min]
    exact exists_leadingKey_iff tag count

/-- A row of the table of readings; one that is wrong in both halves and in both key
columns, of which the first one in the key is named; and rows that differ only in
the half that is not asked for. -/
theorem encode_decided_at_two_misfits :
    let row : Record := ⟨[some (.list .int64 [-1]), some (.scalar .float64 ⟨0⟩), none]⟩
    let misfit : Record := ⟨[some (.scalar .bool true), none, some (.scalar .bool true)]⟩
    let keyed : Record := ⟨[some (.scalar .bool true), some (.scalar .float64 ⟨0⟩), none]⟩
    let valued : Record := ⟨[some (.list .int64 [-1]), none, some (.scalar .bool true)]⟩
    (∃ key value, (readings .big 5).encode 114 row = .ok (key, value)) ∧
      (readings .big 5).encode 114 misfit =
        .error (.wrongType 2 (.scalar .string) (.scalar .bool)) ∧
      (Error.wrongType 2 (.scalar .string) (.scalar .bool)).kind = .schemaMismatch ∧
      (readings .big 5).encodeKey 114 keyed = (readings .big 5).encodeKey 114 row ∧
      (readings .big 5).encodeValue valued = (readings .big 5).encodeValue row := by
  intro row misfit keyed valued
  have hrow : row.Fits := by
    intro value hmem
    simp only [row, List.mem_cons, Option.some.injEq, List.not_mem_nil, or_false, reduceCtorEq] at hmem
    obtain rfl | rfl := hmem
    · exact ⟨by decide, fun _ _ => trivial⟩
    · trivial
  have hmisfit : misfit.Fits := by
    intro value hmem
    simp only [misfit, List.mem_cons, Option.some.injEq, List.not_mem_nil, or_false, reduceCtorEq,
      false_or, or_self] at hmem
    rw [hmem]
    trivial
  have hconforms : row.Conforms (readings .big 5).plan.columns := refusal?_eq_none_iff.1 (by decide)
  have hrefusal : (readings .big 5).refusal? misfit =
      some (.wrongType 2 (.scalar .string) (.scalar .bool)) := by decide
  obtain ⟨houtcome, -, hkey, hvalue, -⟩ := encode_decided_by_conforming (readings .big 5) 114 row
  obtain ⟨hrefused, hkind, -⟩ := encode_decided_by_conforming (readings .big 5) 114 misfit
  exact ⟨(houtcome hrow).1.2 hconforms, ((hrefused hmisfit).2 _).2 hrefusal, (hkind _ hrefusal).1,
    hkey keyed rfl (by decide), hvalue valued rfl (by decide)⟩

end Encoder

end KeyedRows
