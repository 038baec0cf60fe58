import KeyedRows.Proofs.Schema.Entry
import KeyedRows.Proofs.Schema.Partition

namespace KeyedRows

namespace Schema

variable {text : String} {columns : Schema} {position : Nat} {e : Error}

/-- Entries are read one by one, each at its place. -/
theorem readEntries_eq_mapM {parts : List (List Char)} : readEntries position parts =
    ((parts.map Text.trim).zipIdx position).mapM fun (entry, place) => readEntry place entry := by
  induction parts generalizing position with
  | nil => rfl
  | cons part rest ih =>
    rw [readEntries, List.map_cons, List.zipIdx_cons, List.mapM_cons, ih]

private theorem readEntries_eq_ok_iff :
    readEntries 0 (text.toList.splitOn ',') = .ok columns ↔ DescribesColumns text columns := by
  rw [readEntries_eq_mapM, mapM_eq_ok_iff]
  simp only [readEntry_eq_ok_iff]
  rfl

private theorem entryFailure_of_readEntries {parts : List (List Char)}
    (h : readEntries position parts = .error e) : EntryFailure e := by
  rw [readEntries_eq_mapM] at h
  obtain ⟨_, -, hentry⟩ := exists_of_mapM_eq_error h
  exact entryFailure_of_readEntry hentry

/-- The columns of a text have the ordinals from zero on. -/
theorem DescribesColumns.ordinals (h : DescribesColumns text columns) :
    columns.map Column.ordinal = List.range columns.length := by
  have hplaces : List.Forall₂ Eq ((entries text).zipIdx.map Prod.snd)
      (columns.map Column.ordinal) := by
    rw [List.forall₂_map_left_iff, List.forall₂_map_right_iff]
    exact h.imp fun _ _ ⟨_, _, hordinal, _⟩ => hordinal.symm
  rw [List.forall₂_eq_eq_eq, List.zipIdx_map_snd] at hplaces
  rw [← hplaces, ← h.length_eq, List.length_zipIdx, List.range_eq_range']

/-- Whether a text has columns with some property is seen from its entries, if the
property is seen from types and flags. The property must not depend on where a
column stands. -/
theorem exists_describesColumns_iff (text : String) {P : Column → Prop}
    {Q : ColumnType → List ColumnFlag → Prop}
    (hsame : ∀ place type flags, P (described place type flags) ↔ Q type flags) :
    (∃ columns, DescribesColumns text columns ∧ ∀ column ∈ columns, P column) ↔
      ∀ entry ∈ entries text, ∃ type flags, Describes entry type flags ∧ Q type flags := by
  have hentry : ∀ entry place, (∃ column, DescribesColumn entry place column ∧ P column) ↔
      ∃ type flags, Describes entry type flags ∧ Q type flags := by
    intro entry place
    constructor
    · rintro ⟨column, hcolumn, hP⟩
      obtain ⟨type, flags, hdescribes, rfl⟩ := describesColumn_iff.1 hcolumn
      exact ⟨type, flags, hdescribes, (hsame ..).1 hP⟩
    · rintro ⟨type, flags, hdescribes, hQ⟩
      exact ⟨_, describesColumn_iff.2 ⟨type, flags, hdescribes, rfl⟩, (hsame place ..).2 hQ⟩
  conv_rhs => rw [← List.zipIdx_map_fst 0 (entries text)]
  rw [List.forall_mem_map]
  simp only [DescribesColumns, exists_forall₂_iff, hentry]

private theorem exists_describesColumns_iff_each (text : String) : (∃ columns, DescribesColumns text columns) ↔
    ∀ entry ∈ entries text, ∃ type flags, Describes entry type flags := by
  have hall := exists_describesColumns_iff text (P := fun _ => True) (Q := fun _ _ => True)
    fun _ _ _ => Iff.rfl
  simpa only [implies_true, and_true] using hall

/-- Of columns with the ordinals from zero on, only a list in the key is refused.
Ordinals that follow position are neither too large nor repeated. -/
theorem exists_listKey_of_check (hordinals : columns.map Column.ordinal = List.range columns.length)
    (h : columns.check = .error e) : ∃ ordinal type, e = .listKey ordinal type := by
  obtain ⟨place, column, hcolumn, hfault, -⟩ := check_eq_error_iff.1 h
  cases hfault with
  | outside hout =>
    have hmem : column.ordinal ∈ columns.map Column.ordinal :=
      List.mem_map_of_mem (List.mem_of_getElem? hcolumn)
    rw [hordinals, List.mem_range] at hmem
    exact absurd hmem (Nat.not_lt.2 hout)
  | repeated _ hused =>
    have hnodup : (columns.map Column.ordinal).Nodup := hordinals ▸ List.nodup_range
    exact absurd hused (ordinal_not_mem_take hnodup hcolumn)
  | listKey => exact ⟨_, _, rfl⟩

/-- A text is read as columns exactly if it describes them and they pass the check. -/
theorem parse_eq_ok_iff : parse text = .ok columns ↔
    DescribesColumns text columns ∧ columns.check = .ok () := by
  rw [parse, bind_eq_ok_iff]
  constructor
  · rintro ⟨found, hfound, h⟩
    obtain ⟨⟨⟩, hcheck, h⟩ := bind_eq_ok_iff.1 h
    cases h
    exact ⟨readEntries_eq_ok_iff.1 hfound, hcheck⟩
  · rintro ⟨hcolumns, hcheck⟩
    exact ⟨columns, readEntries_eq_ok_iff.2 hcolumns, bind_eq_ok_iff.2 ⟨(), hcheck, rfl⟩⟩

/-- The check has nothing else to look for in the columns of a text than lists in
the key. -/
theorem parse_eq_ok_iff_describes : parse text = .ok columns ↔ DescribesColumns text columns ∧
    ∀ column ∈ columns, column.isKey = true → column.type.isList = false := by
  rw [parse_eq_ok_iff]
  refine and_congr_right fun hcolumns => ?_
  rw [check_eq_ok_iff_perm, hcolumns.ordinals]
  exact and_iff_right (List.Perm.refl _)

private theorem exists_parse_iff : (∃ columns, parse text = .ok columns) ↔
    ∀ entry ∈ entries text,
      ∃ type flags, Describes entry type flags ∧ (type.isList = true → .key ∉ flags) := by
  rw [← exists_describesColumns_iff text
    (P := fun column => column.isKey = true → column.type.isList = false)]
  · exact exists_congr fun columns => parse_eq_ok_iff_describes
  · intro place type flags
    rw [described_type, described_isKey, ← Bool.not_eq_true]
    exact imp_not_comm

/-- A text is refused for one of its entries, or for the columns that all of them
describe. The first comes before the second: columns are only checked when all
entries are read. -/
theorem error_of_parse (h : parse text = .error e) :
    ((¬∃ columns, DescribesColumns text columns) ∧ EntryFailure e) ∨
      ∃ columns, DescribesColumns text columns ∧ columns.check = .error e := by
  rw [parse, bind_eq_error_iff] at h
  obtain h | ⟨columns, hcolumns, h⟩ := h
  · refine .inl ⟨?_, entryFailure_of_readEntries h⟩
    rintro ⟨columns, hcolumns⟩
    have hread := readEntries_eq_ok_iff.2 hcolumns
    rw [h] at hread
    cases hread
  · obtain h | ⟨-, -, h⟩ := bind_eq_error_iff.1 h
    · exact .inr ⟨columns, readEntries_eq_ok_iff.1 hcolumns, h⟩
    · cases h

private theorem entries_describe (hsome : columns ≠ []) :
    entries (describe columns) = columns.map describeColumn := by
  have hparts : (describe columns).toList.splitOn ',' = columns.map describeColumn := by
    rw [describe, String.toList_ofList]
    refine List.splitOn_intercalate _ ?_ (mt List.map_eq_nil_iff.1 hsome)
    intro part hpart hcomma
    obtain ⟨column, -, rfl⟩ := List.mem_map.1 hpart
    exact (describeColumn_plain hcomma).2 rfl
  rw [entries, hparts, List.map_map]
  exact List.map_congr_left fun column _ => Text.trim_eq_self fun _ hmem => (describeColumn_plain hmem).1

/-- The text of a schema whose ordinals follow position describes it. There must be
at least one column, as an empty text has one entry, which is empty. -/
theorem describesColumns_describe (hsome : columns ≠ [])
    (hordinals : columns.map Column.ordinal = List.range columns.length) :
    DescribesColumns (describe columns) columns := by
  have hplaces : (columns.map describeColumn).zipIdx =
      columns.map fun column => (describeColumn column, column.ordinal) := by
    rw [List.zipIdx_eq_zip_range', List.length_map, ← List.range_eq_range', ← hordinals, List.zip_map']
  rw [DescribesColumns, entries_describe hsome, hplaces, List.forall₂_map_left_iff, List.forall₂_same]
  exact fun column _ => describesColumn_describeColumn column

/-- A text is read exactly if every entry of it gives a type by one of its spellings
and flags by their names, and none makes a list part of the key; the columns are
then those which the entries describe, in their order and with the ordinals from
zero on. All that is refused is an invalid schema, for a list in the key only if
each entry by itself is good. The text of a schema whose ordinals follow position is
read as that schema. -/
theorem parse_decided_by_grammar :
    (∀ text : String,
      ((∃ columns, parse text = .ok columns) ↔ ∀ entry ∈ entries text, entry ≠ [] ∧
        ∃ type flags, Describes entry type flags ∧ (type.isList = true → .key ∉ flags)) ∧
      (∀ columns, parse text = .ok columns ↔ DescribesColumns text columns ∧
        ∀ column ∈ columns, column.isKey = true → column.type.isList = false) ∧
      (∀ e, parse text = .error e → e.kind = .invalidSchema ∧
        ((∃ ordinal type, e = .listKey ordinal type) ↔
          ∀ entry ∈ entries text, ∃ type flags, Describes entry type flags))) ∧
    ∀ plan : Plan, plan.columns ≠ [] →
      plan.columns.map Column.ordinal = List.range plan.columns.length →
      parse (describe plan.columns) = .ok plan.columns := by
  refine ⟨fun text => ⟨?_, ?_, ?_⟩, ?_⟩
  · rw [exists_parse_iff]
    refine forall₂_congr fun entry _ => ⟨fun h => ⟨?_, h⟩, And.right⟩
    obtain ⟨type, flags, hdescribes, -⟩ := h
    exact hdescribes.ne_nil
  · exact fun columns => parse_eq_ok_iff_describes
  · -- Either no columns could be read at all, or all of them were and only the check can have failed.
    intro e h
    rw [← exists_describesColumns_iff_each]
    obtain ⟨hnone, hkind, hother⟩ | ⟨columns, hcolumns, hcheck⟩ := error_of_parse h
    · refine ⟨hkind, ?_, fun hcolumns => absurd hcolumns hnone⟩
      rintro ⟨ordinal, type, rfl⟩
      exact absurd rfl (hother ordinal type)
    · exact ⟨kind_of_check_eq_error hcheck, fun _ => ⟨columns, hcolumns⟩,
        fun _ => exists_listKey_of_check hcolumns.ordinals hcheck⟩
  · intro plan hsome hordinals
    exact parse_eq_ok_iff.2 ⟨describesColumns_describe hsome hordinals, plan.checked⟩

/-- Spellings in mixed case with blanks around them and both flags for absent
values, the last of which decides, in front of a key column; and a text with a list
in the key and a type that does not exist, of which the type is found fault with. -/
theorem parse_decided_at_conflicting_flags :
    let good := " List<Long> : NULL : notnull ,varchar:key:null"
    let bad := "int32[]:key,int33"
    let columns : Schema := [{ type := .list .int64, ordinal := 0, nullable := false },
      { type := .scalar .string, ordinal := 1, isKey := true }]
    parse good = .ok columns ∧ DescribesColumns good columns ∧
      (∃ e, parse bad = .error e ∧ e.kind = .invalidSchema ∧
        ∀ ordinal type, e ≠ .listKey ordinal type) ∧
      describe columns = "int64[]:notnull,string:key" ∧
      parse "int64[]:notnull,string:key" = .ok columns := by
  intro good bad columns
  have hgood : parse good = .ok columns := by decide +kernel
  have hbad : parse bad = .error (.unknownType "int33") := by decide +kernel
  have hshown : describe columns = "int64[]:notnull,string:key" := by decide +kernel
  obtain ⟨-, hread, -⟩ := parse_decided_by_grammar.1 good
  obtain ⟨-, -, hrefused⟩ := parse_decided_by_grammar.1 bad
  have hcheck : columns.check = .ok () := by decide
  have hback := parse_decided_by_grammar.2 ⟨columns, .big, hcheck⟩ (List.cons_ne_nil _ _) rfl
  refine ⟨hgood, ((hread _).1 hgood).1, ⟨_, hbad, (hrefused _ hbad).1, nofun⟩, hshown, ?_⟩
  rwa [hshown] at hback

end Schema

end KeyedRows
