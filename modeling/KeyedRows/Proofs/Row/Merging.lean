import KeyedRows.Proofs.Row.Selection
import KeyedRows.Proofs.Row.Typing

namespace KeyedRows.Decoder

open Reader

section Columns

variable {read : Column → Reader Slot} {skip : Column → Reader Unit} {columns : Schema}
  {cursor after : Cursor} {record row : Record}

/-- Columns that are read into one row are read into any other row alike, and fill
the same places. No two columns may share a slot, and every slot must be there. -/
theorem readSlots_over (hnodup : (columns.map Column.ordinal).Nodup)
    (hlt : ∀ ordinal ∈ columns.map Column.ordinal, ordinal < record.size)
    (h : readSlots read skip .all columns record cursor = (.ok row, after)) (base : Record) :
    readSlots read skip .all columns base cursor =
      (.ok (base.fill row (columns.map Column.ordinal)), after) := by
  induction columns generalizing record base cursor with
  | nil =>
    cases h
    rfl
  | cons column columns ih =>
    rw [List.map_cons, List.nodup_cons] at hnodup
    rw [List.map_cons, List.forall_mem_cons] at hlt
    have hall : ∀ record : Record, readSlots read skip .all (column :: columns) record =
        read column >>= fun slot =>
          readSlots read skip .all columns (record.set column.ordinal slot) := fun _ => rfl
    rw [hall] at h
    obtain ⟨slot, middle, hread, hrest⟩ := bind_ok_iff.1 h
    have hsize : (record.set column.ordinal slot).size = record.size := Record.size_set hlt.1
    have hlater := hsize.symm ▸ hlt.2
    -- The columns behind leave the slot alone: reading them over the very same row changes nothing.
    have hself : (record.set column.ordinal slot).fill row (columns.map Column.ordinal) = row := by
      have hagain := ih hnodup.2 hlater hrest (record.set column.ordinal slot)
      rw [hrest] at hagain
      exact (Except.ok.inj (Prod.mk.inj hagain).1).symm
    have hslot : row.slot? column.ordinal = some slot := by
      rw [← hself, Record.slot?_fill _ hlater, if_neg hnodup.1, Record.slot?_set hlt.1, if_pos rfl]
    have hfill : base.fill row (column.ordinal :: columns.map Column.ordinal) =
        (base.set column.ordinal slot).fill row (columns.map Column.ordinal) := by
      rw [Record.fill, List.foldl_cons, Record.value?_of_slot? hslot, ← Record.fill]
    rw [hall, bind_of_ok hread, ih hnodup.2 hlater hrest, List.map_cons, hfill]

end Columns

namespace Half

variable {plan : Plan} {half : Half plan} {cursor after : Cursor} {record row : Record} {e : Error}

/-- A half that is read into one row is read into any other row alike. In particular
nothing that is read depends on what the row held before. -/
theorem reader_over (hnodup : (half.columns.map Column.ordinal).Nodup)
    (hsize : record.size = plan.rowLength)
    (h : half.reader .all record cursor = (.ok row, after)) (base : Record) :
    half.reader .all base cursor =
      (.ok (base.fill row (half.columns.map Column.ordinal)), after) := by
  obtain ⟨⟨⟩, framed, hframe, h⟩ := bind_ok_iff.1 h
  obtain ⟨found, middle, hslots, h⟩ := bind_ok_iff.1 h
  obtain ⟨⟨⟩, stop, hend, h⟩ := bind_ok_iff.1 h
  cases h
  have hother := readSlots_over hnodup (hsize ▸ plan.ordinal_lt_of_subset half.subset) hslots base
  rw [reader, bind_of_ok hframe, bind_of_ok hother, bind_of_ok hend]
  rfl

/-- A half that is not read into one row is not read into any other, for the same
fault. -/
theorem reader_over_error (hnodup : (half.columns.map Column.ordinal).Nodup)
    (hsize : record.size = plan.rowLength)
    (h : half.reader .all record cursor = (.error e, after)) (base : Record) :
    ∃ stop, half.reader .all base cursor = (.error e, stop) := by
  obtain hframe | ⟨⟨⟩, framed, hframe, h⟩ := bind_error_iff.1 h
  · exact ⟨after, bind_of_error hframe⟩
  · obtain hslots | ⟨found, middle, hslots, h⟩ := bind_error_iff.1 h
    · obtain ⟨column, -, hstops⟩ := Decoder.exists_stopsAt hslots
      have hhere : half.StopsAt cursor column e := ⟨framed, hframe, hstops⟩
      exact hhere.reader_eq_error (Or.inr (wants_all _))
    · obtain hend | ⟨⟨⟩, stop, -, h⟩ := bind_error_iff.1 h
      · have hother :=
          readSlots_over hnodup (hsize ▸ plan.ordinal_lt_of_subset half.subset) hslots base
        exact ⟨after, by rw [reader, bind_of_ok hframe, bind_of_ok hother, bind_of_error hend]⟩
      · cases h

end Half

variable {decoder : Decoder} {key value : Bytes} {keyed valued : Record} {e : Error}

private theorem decode_eq (decoder : Decoder) (key value : Bytes) :
    decoder.decode key value =
      decoder.decodeKey key >>= fun keyed => decoder.run (decoder.readValue .all keyed) value :=
  rfl

/-- The value is read into the row of the key as it is read alone. That row may hold
anything, and even have another size. -/
theorem run_readValue_over (h : decoder.decodeValue value = .ok valued) (base : Record) :
    decoder.run (decoder.readValue .all base) value =
      .ok (base.fill valued (decoder.plan.valueColumns.map Column.ordinal)) := by
  rw [decodeValue, run, readValue_eq] at h
  obtain ⟨after, hvalue⟩ := exists_after h
  rw [run, readValue_eq]
  exact congrArg Prod.fst (Half.reader_over decoder.plan.nodup_valueOrdinals size_absentRecord hvalue base)

private theorem run_readValue_over_error (h : decoder.decodeValue value = .error e) (base : Record) :
    decoder.run (decoder.readValue .all base) value = .error e := by
  rw [decodeValue, run, readValue_eq] at h
  obtain ⟨after, hvalue⟩ := exists_after h
  obtain ⟨stop, hother⟩ :=
    Half.reader_over_error decoder.plan.nodup_valueOrdinals size_absentRecord hvalue base
  rw [run, readValue_eq]
  exact congrArg Prod.fst hother

/-- What is read of a key alone holds nothing outside the key columns. -/
theorem slot?_decodeKey (h : decoder.decodeKey key = .ok keyed) :
    keyed.size = decoder.plan.rowLength ∧ ∀ column ∈ decoder.plan.columns, column.isKey = false →
      keyed.slot? column.ordinal = some none := by
  have htyped := typedBy_readKey decoder.typedBy_absentRecord h
  refine ⟨htyped.size, ?_⟩
  intro column hmem hvalue
  apply htyped.slot?_of_unwanted hmem
  rw [hvalue, Bool.false_and, Bool.or_self]

/-- What is read of a value alone holds nothing in the key columns. -/
theorem slot?_decodeValue (h : decoder.decodeValue value = .ok valued) :
    valued.size = decoder.plan.rowLength ∧ ∀ column ∈ decoder.plan.columns, column.isKey = true →
      valued.slot? column.ordinal = some none := by
  have htyped := typedBy_readValue decoder.typedBy_absentRecord h
  refine ⟨htyped.size, ?_⟩
  intro column hmem hkey
  apply htyped.slot?_of_unwanted hmem
  rw [hkey, Bool.not_true, Bool.false_and, Bool.or_self]

/-- A row is read from any bytes by reading its key and its value apart and putting
both together. If the key cannot be read, the row is at fault for the same reason,
whatever the value is, and if only the value cannot be read, for that of the value.
If both are read, so is the row: in every key column stands what was read of the
key, in every other one what was read of the value, and the other half has nothing
there. -/
theorem decode_merges_halves (decoder : Decoder) (key value : Bytes) :
    (∀ e, decoder.decodeKey key = .error e → decoder.decode key value = .error e) ∧
    (∀ keyed e, decoder.decodeKey key = .ok keyed → decoder.decodeValue value = .error e →
      decoder.decode key value = .error e) ∧
    (∀ keyed valued, decoder.decodeKey key = .ok keyed → decoder.decodeValue value = .ok valued →
      ∃ row, decoder.decode key value = .ok row ∧
        row.size = decoder.plan.rowLength ∧
        (∀ place < row.size, ∃ column ∈ decoder.plan.columns, column.ordinal = place) ∧
        ∀ column ∈ decoder.plan.columns,
          row.slot? column.ordinal = (if column.isKey then keyed else valued).slot? column.ordinal ∧
          (if column.isKey then valued else keyed).slot? column.ordinal = some none) := by
  refine ⟨?_, ?_, ?_⟩
  · intro e hkey
    rw [decode_eq, hkey]
    rfl
  · intro keyed e hkey hvalue
    rw [decode_eq, hkey]
    exact run_readValue_over_error hvalue keyed
  · intro keyed valued hkey hvalue
    obtain ⟨hkeyedSize, hkeyed⟩ := slot?_decodeKey hkey
    obtain ⟨hvaluedSize, hvalued⟩ := slot?_decodeValue hvalue
    have hvalues := decoder.plan.ordinal_lt_of_subset decoder.plan.valueColumns_subset
    rw [← hkeyedSize] at hvalues
    have hrun := run_readValue_over hvalue keyed
    have htyped := typedBy_readValue (typedBy_readKey decoder.typedBy_absentRecord hkey) hrun
    have hdecode : decoder.decode key value =
        .ok (keyed.fill valued (decoder.plan.valueColumns.map Column.ordinal)) := by
      rw [decode_eq, hkey]
      exact hrun
    refine ⟨_, hdecode, htyped.size, htyped.places, ?_⟩
    intro column hmem
    have hplace := decoder.plan.mem_valueOrdinals_iff hmem
    rw [Record.slot?_fill _ hvalues]
    cases hside : column.isKey with
    | true =>
      refine ⟨if_neg fun hin => ?_, hvalued column hmem hside⟩
      rw [hplace.1 hin] at hside
      cases hside
    | false =>
      have hlt : column.ordinal < valued.size := hvaluedSize ▸ decoder.plan.ordinal_lt hmem
      obtain ⟨slot, hslot⟩ := Record.exists_slot_of_lt hlt
      refine ⟨?_, hkeyed column hmem hside⟩
      rw [if_pos (hplace.2 hside), Record.value?_of_slot? hslot]
      exact hslot.symm

/-- A row of the table of readings with a slot from each half; a key that is cut,
for which it makes no difference what the value is; and a value whose first marker
is neither zero nor one. -/
theorem decode_merges_halves_of_readings :
    let key : Bytes := [114, 0, 0, 0, 0, 0, 0, 0, 5, 1, 69, 108, 98, 101, 0, 0, 0, 0, 251,
      0, 15, 255, 255, 255, 255, 255, 254, 0, 0, 0, 1]
    let value : Bytes := [1, 0, 0, 0, 1, 1, 0, 0, 0, 255, 255, 255, 255, 255, 255, 255, 255]
    (∀ value, (readings .little 5).decode [114] value = .error (.truncated 8 0)) ∧
      (readings .little 5).decode key [1, 0, 0, 0, 7] = .error (.badNullMarker 7 0) ∧
      ∃ row, (readings .little 5).decode key value = .ok row ∧ row.size = 3 ∧
        row.slot? 0 = some (some (.list .int64 [-1])) ∧
        row.slot? 2 = some (some (.scalar .string "Elbe")) := by
  intro key value
  have hkey : (readings .little 5).decodeKey key =
      .ok ⟨[none, some (.scalar .float64 ⟨0xFFF0000000000001⟩), some (.scalar .string "Elbe")]⟩ := by
    decide +kernel
  have hvalue : (readings .little 5).decodeValue value =
      .ok ⟨[some (.list .int64 [-1]), none, none]⟩ := by
    decide +kernel
  have hshort : (readings .little 5).decodeKey [114] = .error (.truncated 8 0) := by decide +kernel
  have hmarker : (readings .little 5).decodeValue [1, 0, 0, 0, 7] = .error (.badNullMarker 7 0) := by
    decide +kernel
  obtain ⟨-, hbad, -⟩ := decode_merges_halves (readings .little 5) key [1, 0, 0, 0, 7]
  obtain ⟨-, -, hboth⟩ := decode_merges_halves (readings .little 5) key value
  obtain ⟨row, hdecode, hsize, -, hslots⟩ := hboth _ _ hkey hvalue
  obtain ⟨hname, hcounts, -⟩ := List.forall_mem_cons.1 hslots |>.imp_right List.forall_mem_cons.1
  exact ⟨fun value => (decode_merges_halves (readings .little 5) [114] value).1 _ hshort,
    hbad _ _ hkey hmarker, row, hdecode, hsize, hcounts.1, hname.1⟩

end KeyedRows.Decoder
