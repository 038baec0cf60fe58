import KeyedRows.Proofs.Row.RoundTrip

namespace KeyedRows.Decoder

open Reader

/-- Reading columns in turn fails at one of them: those in front of it are read, and
it is not. -/
inductive StopsAt (read : Column → Reader Slot) : Schema → Cursor → Column → Error → Prop where
  | here {column : Column} {columns : Schema} {cursor after : Cursor} {e : Error}
      (hread : read column cursor = (.error e, after)) :
      StopsAt read (column :: columns) cursor column e
  | later {column other : Column} {columns : Schema} {cursor middle : Cursor} {slot : Slot}
      {e : Error} (hread : read column cursor = (.ok slot, middle))
      (hrest : StopsAt read columns middle other e) :
      StopsAt read (column :: columns) cursor other e

variable {read : Column → Reader Slot} {skip : Column → Reader Unit} {columns : Schema}
  {cursor after : Cursor} {record full : Record} {ordinals : List Nat} {selection : Selection}
  {e : Error}

theorem wants_all (ordinal : Nat) : Selection.all.wants ordinal = true :=
  rfl

private theorem wants_only {ordinal : Nat} :
    (Selection.only ordinals).wants ordinal = true ↔ ordinal ∈ ordinals := by
  simp [Selection.wants]

/-- If all columns can be read, the selected ones are read and the others moved
over. Moving over a column must do what reading it does, and the row must have all
slots of the columns. -/
theorem readSlots_only (hshadows : ∀ column cursor, Shadows (skip column) (read column) cursor)
    (hlt : ∀ ordinal ∈ columns.map Column.ordinal, ordinal < record.size)
    (h : readSlots read skip .all columns record cursor = (.ok full, after)) :
    full.size = record.size ∧
      readSlots read skip (.only ordinals) columns (record.only ordinals) cursor =
        (.ok (full.only ordinals), after) := by
  -- Both runs stand at the same cursor, and the one's row is the other's row kept to the selection.
  induction columns generalizing record cursor with
  | nil =>
    cases h
    exact ⟨rfl, rfl⟩
  | cons column columns ih =>
    rw [List.map_cons, List.forall_mem_cons] at hlt
    obtain ⟨hfirst, hlt⟩ := hlt
    have hall : readSlots read skip .all (column :: columns) record =
        read column >>= fun slot =>
          readSlots read skip .all columns (record.set column.ordinal slot) := rfl
    rw [hall] at h
    obtain ⟨slot, middle, hread, hrest⟩ := bind_ok_iff.1 h
    have hsize : (record.set column.ordinal slot).size = record.size := Record.size_set hfirst
    obtain ⟨hsame, hselected⟩ := ih (by rwa [hsize]) hrest
    refine ⟨hsame.trans hsize, ?_⟩
    rw [readSlots]
    by_cases hmem : column.ordinal ∈ ordinals
    · rw [if_pos (wants_only.2 hmem), bind_of_ok hread, ← Record.only_set_of_mem hfirst hmem]
      exact hselected
    · rw [if_neg (mt wants_only.1 hmem), bind_of_ok ((hshadows column cursor).ok hread),
        ← Record.only_set_of_not_mem hfirst hmem]
      exact hselected

/-- If reading fails at a column, it fails there under any selection that notices. A
selection notices every fault but text that is no UTF-8, and that one in its own
columns. -/
theorem StopsAt.readSlots_eq_error
    (hshadows : ∀ column cursor, Shadows (skip column) (read column) cursor) {column : Column}
    (hstops : StopsAt read columns cursor column e)
    (hnotices : e.kind ≠ .invalidUtf8 ∨ selection.wants column.ordinal = true) :
    ∃ stop, readSlots read skip selection columns record cursor = (.error e, stop) := by
  induction hstops generalizing record with
  | @here column columns cursor after e hread =>
    rw [readSlots]
    by_cases hwants : selection.wants column.ordinal = true
    · exact ⟨after, by rw [if_pos hwants, bind_of_error hread]⟩
    · obtain ⟨stop, hskip⟩ :=
        (hshadows column cursor).error hread (hnotices.resolve_right hwants)
      exact ⟨stop, by rw [if_neg hwants, bind_of_error hskip]⟩
  | @later column other columns cursor middle slot e hread _ ih =>
    rw [readSlots]
    by_cases hwants : selection.wants column.ordinal = true
    · rw [if_pos hwants, bind_of_ok hread]
      exact ih hnotices
    · rw [if_neg hwants, bind_of_ok ((hshadows column cursor).ok hread)]
      exact ih hnotices

/-- If reading columns in turn fails, it fails at one of them. -/
theorem exists_stopsAt (h : readSlots read skip .all columns record cursor = (.error e, after)) :
    ∃ column ∈ columns, StopsAt read columns cursor column e := by
  induction columns generalizing record cursor with
  | nil => cases h
  | cons column columns ih =>
    have hall : readSlots read skip .all (column :: columns) record =
        read column >>= fun slot =>
          readSlots read skip .all columns (record.set column.ordinal slot) := rfl
    rw [hall] at h
    obtain hread | ⟨slot, middle, hread, hrest⟩ := bind_error_iff.1 h
    · exact ⟨column, List.mem_cons_self, .here hread⟩
    · obtain ⟨other, hmem, hstops⟩ := ih hrest
      exact ⟨other, List.mem_cons_of_mem _ hmem, .later hread hstops⟩

namespace Half

variable {plan : Plan} {half : Half plan}

/-- Reading a half fails at one of its columns. -/
def StopsAt (half : Half plan) (cursor : Cursor) (column : Column) (e : Error) : Prop :=
  ∃ middle, half.frame cursor = (.ok (), middle) ∧
    Decoder.StopsAt half.read half.columns middle column e

private theorem reader_only (hsize : record.size = plan.rowLength)
    (h : half.reader .all record cursor = (.ok full, after)) :
    full.size = plan.rowLength ∧
      half.reader (.only ordinals) (record.only ordinals) cursor =
        (.ok (full.only ordinals), after) := by
  obtain ⟨⟨⟩, middle, hframe, h⟩ := bind_ok_iff.1 h
  obtain ⟨row, place, hslots, h⟩ := bind_ok_iff.1 h
  obtain ⟨⟨⟩, stop, hend, h⟩ := bind_ok_iff.1 h
  cases h
  have hlt := plan.ordinal_lt_of_subset half.subset
  rw [← hsize] at hlt
  obtain ⟨hsame, hselected⟩ := readSlots_only half.shadows hlt hslots
  refine ⟨hsame.trans hsize, ?_⟩
  rw [reader, bind_of_ok hframe, bind_of_ok hselected, bind_of_ok hend]
  rfl

/-- If reading a half fails at a column, it does so under every selection that
notices: for text that is no UTF-8 the column must be selected, and for any other
fault it need not be. -/
theorem StopsAt.reader_eq_error {column : Column} (hstops : half.StopsAt cursor column e)
    (hnotices : e.kind ≠ .invalidUtf8 ∨ selection.wants column.ordinal = true) :
    ∃ stop, half.reader selection record cursor = (.error e, stop) := by
  obtain ⟨middle, hframe, hcolumns⟩ := hstops
  obtain ⟨stop, hslots⟩ := hcolumns.readSlots_eq_error half.shadows hnotices
  exact ⟨stop, by rw [reader, bind_of_ok hframe, bind_of_error hslots]⟩

/-- A fault with text lies in a column. What frames the columns never finds fault
with text. -/
theorem exists_stopsAt (h : half.reader .all record cursor = (.error e, after))
    (hkind : e.kind = .invalidUtf8) : ∃ column ∈ half.columns, half.StopsAt cursor column e := by
  obtain hframe | ⟨⟨⟩, middle, hframe, h⟩ := bind_error_iff.1 h
  · exact absurd hkind (half.frame_ignoresText cursor e after hframe)
  · obtain hslots | ⟨row, place, hslots, h⟩ := bind_error_iff.1 h
    · obtain ⟨column, hmem, hstops⟩ := Decoder.exists_stopsAt hslots
      exact ⟨column, hmem, middle, hframe, hstops⟩
    · obtain hend | ⟨⟨⟩, stop, -, h⟩ := bind_error_iff.1 h
      · exact absurd hkind (ignoresText_expectEnd half.kind_unread place e after hend)
      · cases h

/-- Any other fault is met under every selection. The row must have a slot for each
column, as it has when reading starts. -/
theorem reader_only_error (hsize : record.size = plan.rowLength)
    (h : half.reader .all record cursor = (.error e, after)) (hkind : e.kind ≠ .invalidUtf8) :
    ∃ stop, half.reader (.only ordinals) (record.only ordinals) cursor = (.error e, stop) := by
  obtain hframe | ⟨⟨⟩, middle, hframe, h⟩ := bind_error_iff.1 h
  · exact ⟨after, bind_of_error hframe⟩
  · obtain hslots | ⟨row, place, hslots, h⟩ := bind_error_iff.1 h
    · obtain ⟨column, -, hstops⟩ := Decoder.exists_stopsAt hslots
      have hhere : half.StopsAt cursor column e := ⟨middle, hframe, hstops⟩
      exact hhere.reader_eq_error (Or.inl hkind)
    · obtain hend | ⟨⟨⟩, stop, -, h⟩ := bind_error_iff.1 h
      · have hlt := plan.ordinal_lt_of_subset half.subset
        rw [← hsize] at hlt
        obtain ⟨-, hselected⟩ := readSlots_only half.shadows hlt hslots
        exact ⟨after, by rw [reader, bind_of_ok hframe, bind_of_ok hselected, bind_of_error hend]⟩
      · cases h

end Half

variable {decoder : Decoder} {key value : Bytes} {column : Column}

/-- Reading a whole row fails at one of its columns. Those of the value are read
only behind the whole key. -/
inductive FailsAt (decoder : Decoder) (key value : Bytes) (column : Column) (e : Error) : Prop where
  | inKey (hstops : decoder.keyHalf.StopsAt (Cursor.of key decoder.plan.order) column e)
  | inValue {record : Record} (hkey : decoder.decodeKey key = .ok record)
      (hstops : decoder.valueHalf.StopsAt (Cursor.of value decoder.plan.order) column e)

private theorem decodeWith_eq (decoder : Decoder) (selection : Selection) (key value : Bytes) :
    decoder.decodeWith selection key value =
      (decoder.keyHalf.reader selection decoder.absentRecord
        (Cursor.of key decoder.plan.order)).1 >>= fun record =>
          (decoder.valueHalf.reader selection record (Cursor.of value decoder.plan.order)).1 := by
  simp only [decodeWith, run, readKey_eq, readValue_eq]

theorem size_absentRecord : decoder.absentRecord.size = decoder.plan.rowLength :=
  Record.size_absent _

private theorem only_absentRecord : decoder.absentRecord.only ordinals = decoder.absentRecord :=
  Record.only_absent _

/-- The key of a row under a selection, beside the whole key. -/
theorem readKey_only (h : decoder.decodeKey key = .ok record) :
    record.size = decoder.plan.rowLength ∧
      (decoder.keyHalf.reader (.only ordinals) decoder.absentRecord
        (Cursor.of key decoder.plan.order)).1 = .ok (record.only ordinals) := by
  rw [decodeKey, run, readKey_eq] at h
  obtain ⟨after, hkey⟩ := exists_after h
  obtain ⟨hsize, honly⟩ := Half.reader_only size_absentRecord hkey
  rw [only_absentRecord] at honly
  exact ⟨hsize, congrArg Prod.fst honly⟩

/-- If the whole row can be read, the selection is read as the row kept to it. -/
theorem decodeWith_only (h : decoder.decode key value = .ok record) :
    decoder.decodeWith (.only ordinals) key value = .ok (record.only ordinals) := by
  rw [decode, decodeWith_eq, bind_eq_ok_iff] at h
  obtain ⟨part, hkey, hvalue⟩ := h
  obtain ⟨after, hvalue⟩ := exists_after hvalue
  rw [← readKey_eq] at hkey
  obtain ⟨hsize, hpart⟩ := readKey_only hkey
  obtain ⟨-, honly⟩ := Half.reader_only hsize hvalue
  rw [decodeWith_eq, bind_eq_ok_iff]
  exact ⟨_, hpart, congrArg Prod.fst honly⟩

private theorem decodeWith_only_error (h : decoder.decode key value = .error e)
    (hkind : e.kind ≠ .invalidUtf8) : decoder.decodeWith (.only ordinals) key value = .error e := by
  rw [decode, decodeWith_eq, bind_eq_error_iff] at h
  rw [decodeWith_eq, bind_eq_error_iff]
  obtain hkey | ⟨part, hkey, hvalue⟩ := h
  · obtain ⟨after, hkey⟩ := exists_after hkey
    obtain ⟨stop, honly⟩ := Half.reader_only_error size_absentRecord hkey hkind
    rw [only_absentRecord] at honly
    exact Or.inl (congrArg Prod.fst honly)
  · obtain ⟨after, hvalue⟩ := exists_after hvalue
    rw [← readKey_eq] at hkey
    obtain ⟨hsize, hpart⟩ := readKey_only hkey
    obtain ⟨stop, honly⟩ := Half.reader_only_error hsize hvalue hkind
    exact Or.inr ⟨_, hpart, congrArg Prod.fst honly⟩

private theorem FailsAt.decode_eq_error (hfails : decoder.FailsAt key value column e) :
    decoder.decode key value = .error e := by
  rw [decode, decodeWith_eq, bind_eq_error_iff]
  cases hfails with
  | inKey hstops =>
    obtain ⟨stop, hkey⟩ := hstops.reader_eq_error (Or.inr (wants_all _))
    exact Or.inl (congrArg Prod.fst hkey)
  | inValue hkey hstops =>
    rw [decodeKey, run, readKey_eq] at hkey
    obtain ⟨stop, hvalue⟩ := hstops.reader_eq_error (Or.inr (wants_all _))
    exact Or.inr ⟨_, hkey, congrArg Prod.fst hvalue⟩

private theorem FailsAt.decodeWith_only_eq_error (hfails : decoder.FailsAt key value column e)
    (hmem : column.ordinal ∈ ordinals) :
    decoder.decodeWith (.only ordinals) key value = .error e := by
  rw [decodeWith_eq, bind_eq_error_iff]
  cases hfails with
  | inKey hstops =>
    obtain ⟨stop, hkey⟩ := hstops.reader_eq_error (Or.inr (wants_only.2 hmem))
    exact Or.inl (congrArg Prod.fst hkey)
  | inValue hkey hstops =>
    obtain ⟨-, hpart⟩ := readKey_only hkey
    obtain ⟨stop, hvalue⟩ := hstops.reader_eq_error (Or.inr (wants_only.2 hmem))
    exact Or.inr ⟨_, hpart, congrArg Prod.fst hvalue⟩

private theorem exists_failsAt (h : decoder.decode key value = .error e) (hkind : e.kind = .invalidUtf8) :
    ∃ column ∈ decoder.plan.columns, decoder.FailsAt key value column e := by
  rw [decode, decodeWith_eq, bind_eq_error_iff] at h
  obtain hkey | ⟨part, hkey, hvalue⟩ := h
  · obtain ⟨after, hkey⟩ := exists_after hkey
    obtain ⟨column, hmem, hstops⟩ := Half.exists_stopsAt hkey hkind
    exact ⟨column, decoder.keyHalf.subset hmem, .inKey hstops⟩
  · obtain ⟨after, hvalue⟩ := exists_after hvalue
    obtain ⟨column, hmem, hstops⟩ := Half.exists_stopsAt hvalue hkind
    rw [← readKey_eq] at hkey
    exact ⟨column, decoder.valueHalf.subset hmem, .inValue hkey hstops⟩

private theorem readSlots_congr {other : Selection}
    (hsame : ∀ ordinal, selection.wants ordinal = other.wants ordinal) :
    readSlots read skip selection columns record = readSlots read skip other columns record := by
  induction columns generalizing record with
  | nil => rfl
  | cons column columns ih => simp only [readSlots, hsame, ih]

private theorem decodeWith_congr {other : Selection}
    (hsame : ∀ ordinal, selection.wants ordinal = other.wants ordinal) :
    decoder.decodeWith selection key value = decoder.decodeWith other key value := by
  simp only [decodeWith_eq, Half.reader, readSlots_congr hsame]

/-- A selection of slots that exist is not refused as one. -/
theorem decodeSelection_of_lt (hlt : ∀ ordinal ∈ ordinals, ordinal < decoder.plan.rowLength) :
    decoder.decodeSelection key value ordinals = decoder.decodeWith (.only ordinals) key value := by
  have hnone : ordinals.find? (decoder.plan.rowLength ≤ ·) = none := by
    rw [List.find?_eq_none]
    intro ordinal hmem
    simpa using hlt ordinal hmem
  rw [decodeSelection, hnone]

/-- A selection of columns is read from any bytes as the whole row is: what is read
is the row kept to the selection, and a fault is the same fault. Only text that is
no UTF-8 goes unnoticed, if it stands in a column that is not selected. -/
theorem decodeSelection_agrees (decoder : Decoder) (key value : Bytes) {ordinals : List Nat}
    (hlt : ∀ ordinal ∈ ordinals, ordinal < decoder.plan.rowLength) :
    (∀ record, decoder.decode key value = .ok record →
      decoder.decodeSelection key value ordinals = .ok (record.only ordinals)) ∧
    (∀ e, decoder.decode key value = .error e → e.kind ≠ .invalidUtf8 →
      decoder.decodeSelection key value ordinals = .error e) ∧
    (∀ e, decoder.decode key value = .error e → e.kind = .invalidUtf8 →
      ∃ column ∈ decoder.plan.columns, decoder.FailsAt key value column e) ∧
    (∀ column e, decoder.FailsAt key value column e →
      decoder.decode key value = .error e ∧
        (column.ordinal ∈ ordinals → decoder.decodeSelection key value ordinals = .error e)) ∧
    (∀ others : List Nat, (∀ ordinal, ordinal ∈ others ↔ ordinal ∈ ordinals) →
      decoder.decodeSelection key value others =
        decoder.decodeSelection key value ordinals) := by
  rw [decodeSelection_of_lt hlt]
  refine ⟨?_, ?_, ?_, ?_, ?_⟩
  · intro record hdecode
    exact decodeWith_only hdecode
  · intro e hdecode hkind
    exact decodeWith_only_error hdecode hkind
  · intro e hdecode hkind
    exact exists_failsAt hdecode hkind
  · intro column e hfails
    exact ⟨hfails.decode_eq_error, fun hmem => hfails.decodeWith_only_eq_error hmem⟩
  · intro others hsame
    rw [decodeSelection_of_lt fun ordinal hmem => hlt ordinal ((hsame ordinal).1 hmem)]
    apply decodeWith_congr
    intro ordinal
    rw [Bool.eq_iff_iff, wants_only, wants_only, hsame]

/-- A selection that names a slot twice, and a key whose text is no UTF-8 in a
column that is selected among others. -/
theorem decodeSelection_agrees_on_readings :
    let value : Bytes := [1, 0, 0, 0, 1, 1, 0, 0, 0, 255, 255, 255, 255, 255, 255, 255, 255]
    let key : Bytes := [114, 0, 0, 0, 0, 0, 0, 0, 5, 1, 69, 108, 98, 101, 0, 0, 0, 0, 251,
      0, 15, 255, 255, 255, 255, 255, 254, 0, 0, 0, 1]
    let noText : Bytes := [114, 0, 0, 0, 0, 0, 0, 0, 5, 1, 69, 255, 98, 101, 0, 0, 0, 0, 251,
      0, 15, 255, 255, 255, 255, 255, 254, 0, 0, 0, 1]
    (readings .little 5).decodeSelection key value [1, 1] =
        .ok ⟨[none, some (.scalar .float64 ⟨0xFFF0000000000001⟩), none]⟩ ∧
      (readings .little 5).decodeSelection noText value [2, 0, 1] = .error (.notText ⟨1, some 1⟩) := by
  intro value key noText
  have hlt : ∀ ordinal ∈ [1, 1], ordinal < (readings .little 5).plan.rowLength := by decide
  have hall : ∀ ordinal ∈ [2, 0, 1], ordinal < (readings .little 5).plan.rowLength := by decide
  have hdecode : (readings .little 5).decode key value =
      .ok ⟨[some (.list .int64 [-1]), some (.scalar .float64 ⟨0xFFF0000000000001⟩),
        some (.scalar .string "Elbe")]⟩ := by decide +kernel
  have hfault : (readings .little 5).decode noText value = .error (.notText ⟨1, some 1⟩) := by
    decide +kernel
  obtain ⟨hok, -⟩ := decodeSelection_agrees (readings .little 5) key value hlt
  obtain ⟨-, -, hcolumn, hfails, -⟩ :=
    decodeSelection_agrees (readings .little 5) noText value hall
  obtain ⟨column, hmem, hat⟩ := hcolumn _ hfault rfl
  have hordinal : column.ordinal < 3 := (readings .little 5).plan.ordinal_lt hmem
  have hselected : column.ordinal ∈ [2, 0, 1] := by
    simp only [List.mem_cons, List.not_mem_nil, or_false]
    omega
  exact ⟨hok _ hdecode, (hfails column _ hat).2 hselected⟩

end KeyedRows.Decoder
