import KeyedRows.Command.Run
import KeyedRows.Proofs.Error.Outcome
import KeyedRows.Proofs.Record.Slots
import KeyedRows.Proofs.Schema.Checked

namespace KeyedRows

/-- The text of a column in a row of texts, which has one for each column. -/
def Column.textIn (column : Column) (texts : List String) : String :=
  (texts[column.ordinal]?).getD ""

namespace Command.Options

variable {options : Options} {columns : Schema} {texts : List String} {record after : Record}

/-- A text stands for an absent value if it is the text set for that, and otherwise
for the value that is read from it, if there is one. -/
theorem readSlot_eq_ok_iff {column : Column} {text : String} {slot : Slot} :
    options.readSlot column text = .ok slot ↔
      text = options.absentText ∧ slot = none ∨
      text ≠ options.absentText ∧
        ∃ value, Value.parse column.type text = .ok value ∧ slot = some value := by
  rw [readSlot]
  split
  · rename_i habsent
    simp [habsent, eq_comm]
  · rename_i hpresent
    rw [map_eq_ok_iff]
    simp [hpresent, @eq_comm _ slot]

/-- Each column gets the slot that its text spells, and all other slots stay as they
are. No two columns may share a slot, or the later one would overwrite what the
earlier one has read. -/
theorem readSlots_eq_ok (hnodup : (columns.map Column.ordinal).Nodup)
    (hlt : ∀ column ∈ columns, column.ordinal < record.size)
    (h : options.readSlots texts columns record = .ok after) :
    after.size = record.size ∧
      (∀ column ∈ columns, ∃ slot, options.readSlot column (column.textIn texts) = .ok slot ∧
        after.slot? column.ordinal = some slot) ∧
      ∀ place, place ∉ columns.map Column.ordinal → after.slot? place = record.slot? place := by
  induction columns generalizing record with
  | nil =>
    cases h
    simp
  | cons column columns ih =>
    rw [List.map_cons, List.nodup_cons] at hnodup
    rw [List.forall_mem_cons] at hlt
    rw [readSlots, bind_eq_ok_iff] at h
    obtain ⟨slot, hslot, hrest⟩ := h
    have hsize : (record.set column.ordinal slot).size = record.size := Record.size_set hlt.1
    obtain ⟨hsame, hspelled, hkept⟩ := ih hnodup.2 (hsize.symm ▸ hlt.2) hrest
    refine ⟨hsame.trans hsize, ?_, ?_⟩
    · rw [List.forall_mem_cons]
      refine ⟨⟨slot, hslot, ?_⟩, hspelled⟩
      rw [hkept _ hnodup.1, Record.slot?_set hlt.1, if_pos rfl]
    · intro place hplace
      rw [List.map_cons, List.mem_cons, not_or] at hplace
      rw [hkept place hplace.2, Record.slot?_set hlt.1, if_neg (Ne.symm hplace.1)]

/-- A row that is read from texts has a slot for each column, the one that the
column's text spells. There must be as many texts as columns, which is checked
first. The schema has passed its check, so that every slot has one text. -/
theorem readRecord_eq_ok (hcheck : columns.check = .ok ())
    (h : options.readRecord columns texts = .ok record) :
    texts.length = columns.length ∧ record.size = columns.length ∧
      ∀ column ∈ columns, ∃ slot, options.readSlot column (column.textIn texts) = .ok slot ∧
        record.slot? column.ordinal = some slot := by
  rw [readRecord] at h
  split at h
  · rename_i hlength
    obtain ⟨hsound, hnodup⟩ := Schema.check_eq_ok_iff.1 hcheck
    have habsent := Record.size_absent columns.length
    obtain ⟨hsize, hspelled, -⟩ := readSlots_eq_ok hnodup
      (fun column hmem => habsent.symm ▸ (hsound column hmem).1) h
    exact ⟨hlength, hsize.trans habsent, hspelled⟩
  · cases h

private theorem encoder_eq_ok {encoder : Encoder} (h : options.encoder columns = .ok encoder) :
    encoder.plan.columns = columns := by
  rw [Options.encoder, Encoder.of?, bind_eq_ok_iff] at h
  obtain ⟨plan, hplan, h⟩ := h
  cases h
  exact (Plan.of?_eq_ok hplan).1

/-- A tag byte is an ASCII character, so it can always be counted up. -/
theorem tagByte_ne_full {tag : UInt8} (h : options.tagByte = .ok tag) : tag ≠ 0xFF := by
  rw [tagByte] at h
  split at h
  · rename_i hascii
    cases h
    intro hfull
    have hcode := congrArg UInt8.toNat hfull
    rw [UInt8.toNat_ofNat_of_lt' (Nat.lt_trans hascii (by decide))] at hcode
    rw [hcode] at hascii
    exact absurd hascii (by decide)
  · cases h

end Command.Options

namespace Command

/-- What a run that writes a row goes through: the schema and the tag byte of its
options, the row that its texts spell, and the encoder that writes the row. -/
structure Writes (options : Options) (load : Load) (texts : List String) (columns : Schema)
    (tag : UInt8) (encoder : Encoder) (record : Record) (key value : Bytes) : Prop where
  schema_eq : options.schema load = .ok columns
  tagByte_eq : options.tagByte = .ok tag
  encoder_eq : options.encoder columns = .ok encoder
  columns_eq : encoder.plan.columns = columns
  length_eq : texts.length = columns.length
  spelled : ∀ column ∈ columns, ∃ slot, options.readSlot column (column.textIn texts) = .ok slot ∧
    record.slot? column.ordinal = some slot
  key_eq : encoder.encodeKey tag record = .ok key
  value_eq : encoder.encodeValue record = .ok value

variable {hex : HexForm} {options : Options} {load : Load} {texts : List String} {key value : Bytes}

/-- A run that writes a row has gone through all the steps of writing one. This is
the only place where the steps of a run are taken apart. -/
theorem writes_of_run
    (h : Invocation.run hex ⟨options, .encode texts⟩ load = .ok (.written key value)) :
    ∃ columns tag encoder record, Writes options load texts columns tag encoder record key value := by
  simp only [Invocation.run, Action.run, Encoder.encode, bind_eq_ok_iff] at h
  obtain ⟨columns, hschema, tag, htag, record, hrecord, encoder, hencoder, ⟨key, value⟩,
    ⟨key', hkey, value', hvalue, hpair⟩, hreport⟩ := h
  cases hpair
  cases hreport
  have hcolumns := Options.encoder_eq_ok hencoder
  obtain ⟨hlength, -, hspelled⟩ :=
    Options.readRecord_eq_ok (hcolumns ▸ encoder.plan.checked) hrecord
  exact ⟨columns, tag, encoder, record,
    ⟨hschema, htag, hencoder, hcolumns, hlength, hspelled, hkey, hvalue⟩⟩

/-- The only answer to texts of a row is the row that is written. Hence what holds
of written rows holds of every run that is asked to write one. -/
theorem exists_written_of_run {report : Report}
    (h : Invocation.run hex ⟨options, .encode texts⟩ load = .ok report) :
    ∃ key value, report = .written key value := by
  simp only [Invocation.run, Action.run, bind_eq_ok_iff] at h
  obtain ⟨columns, -, tag, -, record, -, encoder, -, ⟨key, value⟩, -, hreport⟩ := h
  cases hreport
  exact ⟨key, value, rfl⟩

variable {columns : Schema} {tag : UInt8} {encoder : Encoder} {record : Record}

/-- Once the schema and the tag byte are read, an invocation does what its action
does. -/
theorem Invocation.run_eq (hschema : options.schema load = .ok columns)
    (htag : options.tagByte = .ok tag) (action : Action) :
    Invocation.run hex ⟨options, action⟩ load = action.run hex options columns tag := by
  simp only [Invocation.run, hschema, htag]
  rfl

/-- Other actions with the same options start from the same schema and tag byte.
This is how a row that was written is read again: with the options that it was
written with. -/
theorem Writes.run_eq (h : Writes options load texts columns tag encoder record key value)
    (action : Action) :
    Invocation.run hex ⟨options, action⟩ load = action.run hex options columns tag :=
  Invocation.run_eq h.schema_eq h.tagByte_eq action

/-- Each column's text is one of the texts that are given. So no column is read from
the empty text that stands in for a missing one. -/
theorem Writes.getElem?_texts (h : Writes options load texts columns tag encoder record key value)
    {column : Column} (hmem : column ∈ columns) : texts[column.ordinal]? = some (column.textIn texts) := by
  have hordinal : column.ordinal < encoder.plan.columns.length :=
    encoder.plan.ordinal_lt (h.columns_eq.symm ▸ hmem)
  rw [h.columns_eq, ← h.length_eq] at hordinal
  rw [Column.textIn, List.getElem?_eq_getElem hordinal]
  rfl

end Command

end KeyedRows
