import KeyedRows.Proofs.Row.Accepting
import KeyedRows.Proofs.Row.PrefixScan
import KeyedRows.Proofs.Row.Refusing

namespace KeyedRows

/-- Right behind a byte string comes the same string followed by a zero. -/
theorem Bytes.between_append_zero_iff {a b : Bytes} : a ≤ b ∧ b < a ++ [0] ↔ b = a := by
  induction a generalizing b with
  | nil => cases b <;> simp [List.cons_lt_cons_iff]
  | cons d a ih =>
    cases b with
    | nil => simp
    | cons c b =>
      rw [List.cons_append, List.cons_le_cons_iff, List.cons_lt_cons_iff, List.cons.injEq, ← ih]
      constructor
      · intro ⟨hlow, hhigh⟩
        obtain hless | ⟨heq, hlow⟩ := hlow
        · obtain hmore | ⟨heq, -⟩ := hhigh
          · exact absurd hmore (UInt8.lt_asymm hless)
          · exact absurd heq.symm (UInt8.ne_of_lt hless)
        · obtain hmore | ⟨-, hhigh⟩ := hhigh
          · exact absurd heq.symm (UInt8.ne_of_lt hmore)
          · exact ⟨heq.symm, hlow, hhigh⟩
      · intro ⟨heq, hlow, hhigh⟩
        exact ⟨.inr ⟨heq.symm, hlow⟩, .inr ⟨heq, hhigh⟩⟩

private theorem Utf8.encode_push_nul (text : String) : encode (text.push '\x00') = encode text ++ [0] := by
  have hchars : text.push '\x00' = String.ofList (text.toList ++ ['\x00']) := by
    rw [← String.toList_push, String.ofList_toList]
  rw [hchars, encode_ofList, List.flatMap_append, ← encode_ofList, String.ofList_toList]
  rfl

/-- A slot that does not come before a text, but before the next one, holds the
text. An absent slot comes before all texts. That the column is one of strings and
admits the slot is needed to know that there is nothing else to compare with. -/
theorem Column.slot_between_texts_iff {column : Column} {text : String} {slot : Slot}
    (htype : column.type = .scalar .string) (hadmits : column.Admits slot) :
    Slot.compare slot (some (.scalar .string text)) ≠ .lt ∧
        Slot.compare slot (some (.scalar .string (text.push '\x00'))) = .lt ↔
      slot = some (.scalar .string text) := by
  obtain ⟨rfl, -⟩ | ⟨other, rfl⟩ := hadmits.absent_or_scalar htype
  · simp [Slot.compare]
  · have hless : ∀ upper : String,
        Slot.compare (some (.scalar .string other)) (some (.scalar .string upper)) = .lt ↔
          Utf8.encode other < Utf8.encode upper := by
      intro upper
      rw [Slot.compare_scalar]
      exact Bytes.compare_eq_lt_iff
    rw [Ne, hless, hless, Utf8.encode_push_nul, List.not_lt, Bytes.between_append_zero_iff,
      Utf8.encode_inj]
    simp

namespace Record

variable {columns : Schema} {a b c : Record}

/-- The last of some columns decides where those before it are the same. -/
theorem compareBy_concat (column : Column) : Record.compareBy (columns ++ [column]) a b =
    (Record.compareBy columns a b).then
      (Slot.compare (a.value? column.ordinal) (b.value? column.ordinal)) := by
  induction columns with
  | nil => exact Ordering.then_eq
  | cons first columns ih => rw [List.cons_append, compareBy, compareBy, ih, Ordering.then_assoc]

private theorem compareBy_congr (h : ∀ column ∈ columns, b.slot? column.ordinal = c.slot? column.ordinal) :
    Record.compareBy columns a b = Record.compareBy columns a c := by
  induction columns with
  | nil => rfl
  | cons column columns ih =>
    rw [List.forall_mem_cons] at h
    rw [compareBy, compareBy, h.1, ih h.2]

end Record

namespace Encoder

variable {encoder : Encoder} {tag : UInt8} {record row : Record} {start key : Bytes}

/-- A key is longer than what keys with given first columns start with, so it comes
later unless one of these columns decides. Both must be of the same encoder and tag,
and the rows may be different. -/
theorem compare_encodeKey_leadingKey {count : Nat}
    (hstart : encoder.leadingKey tag record count = .ok start)
    (hkey : encoder.encodeKey tag row = .ok key) :
    compare key start =
      (Record.compareBy (encoder.plan.keyColumns.take count) row record).then .gt := by
  obtain ⟨hleading, hstart⟩ := leadingKey_eq_ok hstart
  obtain ⟨-, hfills, hkey⟩ := encodeKey_eq_ok hkey
  have hfront : row.Fills (encoder.plan.keyColumns.take count) :=
    fun column hmem => hfills column (List.mem_of_mem_take hmem)
  have hscalar : ∀ column ∈ encoder.plan.keyColumns.take count, column.type.isList = false :=
    fun column hmem => encoder.plan.isList_of_mem_keyColumns (List.mem_of_mem_take hmem)
  have hsplit : row.bytesBy Column.keyBytes encoder.plan.keyColumns =
      row.bytesBy Column.keyBytes (encoder.plan.keyColumns.take count) ++
        row.bytesBy Column.keyBytes (encoder.plan.keyColumns.drop count) := by
    rw [Record.bytesBy, Record.bytesBy, Record.bytesBy, ← List.flatMap_append,
      List.take_append_drop]
  have hlonger : ∀ behind : Bytes, compare (behind ++ Frame.trailer) [] = .gt := by
    intro behind
    cases behind <;> exact List.compare_cons_nil
  have hcompare := Record.compare_bytesBy_append hscalar hfront hleading
    (row.bytesBy Column.keyBytes (encoder.plan.keyColumns.drop count) ++ Frame.trailer) []
  rw [List.append_nil, hlonger] at hcompare
  rw [hstart, hkey, hsplit, List.append_assoc, List.append_assoc, Bytes.compare_append_same, hcompare]

private theorem lt_leadingKey_iff {count : Nat} (hstart : encoder.leadingKey tag record count = .ok start)
    (hkey : encoder.encodeKey tag row = .ok key) :
    key < start ↔ Record.compareBy (encoder.plan.keyColumns.take count) row record = .lt := by
  rw [← Bytes.compare_eq_lt_iff, compare_encodeKey_leadingKey hstart hkey, Ordering.then_eq_lt]
  simp

/-- The key columns up to a place are those in front of it and the one there. -/
theorem take_keyColumns_succ {place : Nat} {column : Column}
    (hcolumn : encoder.plan.keyColumns[place]? = some column) :
    encoder.plan.keyColumns.take (place + 1) = encoder.plan.keyColumns.take place ++ [column] := by
  rw [List.take_add_one, hcolumn]
  rfl

/-- Setting the slot of a key column leaves those of the key columns in front of it
as they are. A plan uses no ordinal twice, so they are other slots. -/
theorem slot?_set_of_mem_take {place : Nat} {column : Column} (slot : Slot)
    (hcolumn : encoder.plan.keyColumns[place]? = some column) (hlt : column.ordinal < record.size) :
    ∀ other ∈ encoder.plan.keyColumns.take place,
      (record.set column.ordinal slot).slot? other.ordinal = record.slot? other.ordinal := by
  intro other hmem
  have hnodup : ((encoder.plan.keyColumns.take (place + 1)).map Column.ordinal).Nodup :=
    ((List.take_sublist _ _).map _).nodup encoder.plan.nodup_keyOrdinals
  rw [take_keyColumns_succ hcolumn, List.map_append, List.nodup_append] at hnodup
  have hne : other.ordinal ≠ column.ordinal :=
    hnodup.2.2 _ (List.mem_map_of_mem hmem) _ List.mem_cons_self
  rw [Record.slot?_set hlt, if_neg hne.symm]

/-- With another slot that the last column admits, what keys start with is still
written. The new slot must be admitted too, and nothing else is asked of the row. -/
theorem exists_leadingKey_set {place : Nat} {column : Column} (slot : Slot)
    (hcolumn : encoder.plan.keyColumns[place]? = some column) (hlt : column.ordinal < record.size)
    (hadmits : column.Admits slot)
    (hstart : encoder.leadingKey tag record (place + 1) = .ok start) :
    ∃ next, encoder.leadingKey tag (record.set column.ordinal slot) (place + 1) = .ok next := by
  have hleading := take_keyColumns_succ hcolumn
  have hfills := (leadingKey_eq_ok hstart).1
  rw [exists_leadingKey_iff, hleading]
  intro other hmem
  obtain hfront | hlast := List.mem_append.1 hmem
  · rw [slot?_set_of_mem_take slot hcolumn hlt other hfront]
    exact hfills other (hleading ▸ hmem)
  · obtain rfl := List.mem_singleton.1 hlast
    exact ⟨slot, by rw [Record.slot?_set hlt, if_pos rfl], hadmits⟩

/-- A key comes before what keys with given first columns start with if its row does
by the columns in front of the last one, or has the same slots there and comes
before in the last column. -/
theorem lt_leadingKey_succ_iff {place : Nat} {column : Column} {slot found : Slot}
    (hcolumn : encoder.plan.keyColumns[place]? = some column)
    (hslot : record.slot? column.ordinal = some slot)
    (hfound : row.slot? column.ordinal = some found)
    (hstart : encoder.leadingKey tag record (place + 1) = .ok start)
    (hkey : encoder.encodeKey tag row = .ok key) :
    key < start ↔
      Record.compareBy (encoder.plan.keyColumns.take place) row record = .lt ∨
        Record.compareBy (encoder.plan.keyColumns.take place) row record = .eq ∧
          Slot.compare found slot = .lt := by
  rw [lt_leadingKey_iff hstart hkey, take_keyColumns_succ hcolumn, Record.compareBy_concat,
    Record.value?_of_slot? hslot, Record.value?_of_slot? hfound, Ordering.then_eq_lt]

/-- A key starts with what keys with given first columns start with exactly if its
row has the same slots in these columns. The key must be of the same encoder and
tag. -/
theorem leadingKey_prefix_iff {count : Nat}
    (hstart : encoder.leadingKey tag record count = .ok start)
    (hkey : encoder.encodeKey tag row = .ok key) :
    start <+: key ↔ ∀ column ∈ encoder.plan.keyColumns.take count,
      record.slot? column.ordinal = row.slot? column.ordinal := by
  obtain ⟨hleading, hstart⟩ := leadingKey_eq_ok hstart
  obtain ⟨-, hfills, hbytes⟩ := encodeKey_eq_ok hkey
  rw [hstart, hbytes, List.append_assoc, opening_append_prefix_iff, Record.bytesBy_prefix_iff
    (fun column hmem => encoder.plan.isList_of_mem_keyColumns hmem) hleading hfills]
  simp

/-- Take what keys with given first columns start with, the last of which holds a
text, and what they start with if that text is followed by U+0000. A key of the
table lies in the range from the first up to the second, which itself lies outside,
exactly if its row has the given slots, that is, if the scan from the first meets
it. -/
theorem between_next_text_iff {place : Nat} {column : Column} {text : String}
    (hcolumn : encoder.plan.keyColumns[place]? = some column)
    (htype : column.type = .scalar .string)
    (hslot : record.slot? column.ordinal = some (some (.scalar .string text)))
    (hstart : encoder.leadingKey tag record (place + 1) = .ok start) :
    ∃ next, encoder.leadingKey tag
        (record.set column.ordinal (some (.scalar .string (text.push '\x00')))) (place + 1) =
          .ok next ∧
      ∀ (row : Record) (key : Bytes), encoder.encodeKey tag row = .ok key →
        (start ≤ key ∧ key < next ↔ ∀ other ∈ encoder.plan.keyColumns.take (place + 1),
          record.slot? other.ordinal = row.slot? other.ordinal) ∧
        (start ≤ key ∧ key < next ↔ start.InScan key) := by
  have hlt : column.ordinal < record.size := by
    by_contra hout
    rw [Record.slot?_eq_none_iff.2 (Nat.le_of_not_lt hout)] at hslot
    cases hslot
  have hlater : (record.set column.ordinal (some (.scalar .string (text.push '\x00')))).slot?
      column.ordinal = some (some (.scalar .string (text.push '\x00'))) := by
    rw [Record.slot?_set hlt, if_pos rfl]
  obtain ⟨next, hnext⟩ := exists_leadingKey_set (some (.scalar .string (text.push '\x00'))) hcolumn
    hlt htype.symm hstart
  refine ⟨next, hnext, ?_⟩
  intro row key hkey
  obtain ⟨-, hrow, -⟩ := encodeKey_eq_ok hkey
  obtain ⟨found, hfound, hadmits⟩ := hrow column (List.mem_of_getElem? hcolumn)
  have hbetween : start ≤ key ∧ key < next ↔
      ∀ other ∈ encoder.plan.keyColumns.take (place + 1),
        record.slot? other.ordinal = row.slot? other.ordinal := by
    have hleading := take_keyColumns_succ hcolumn
    have hfront : row.Fills (encoder.plan.keyColumns.take place) :=
      fun other hmem => hrow other (List.mem_of_mem_take hmem)
    have hrecord : record.Fills (encoder.plan.keyColumns.take place) :=
      fun other hmem => (leadingKey_eq_ok hstart).1 other (hleading ▸ List.mem_append_left _ hmem)
    have hsame := Record.compareBy_eq_eq_iff (fun other hmem =>
      encoder.plan.isList_of_mem_keyColumns (List.mem_of_mem_take hmem)) hfront hrecord
    simp only [@eq_comm _ (record.slot? _)]
    rw [← List.not_lt, lt_leadingKey_succ_iff hcolumn hslot hfound hstart hkey,
      lt_leadingKey_succ_iff hcolumn hlater hfound hnext hkey,
      Record.compareBy_congr (slot?_set_of_mem_take _ hcolumn hlt), hleading,
      List.forall_mem_append, List.forall_mem_singleton, hfound, hslot, Option.some.injEq, ← hsame,
      ← Column.slot_between_texts_iff htype hadmits]
    cases Record.compareBy (encoder.plan.keyColumns.take place) row record <;> simp
  exact ⟨hbetween, by rw [hbetween, Bytes.inScan_iff_prefix, leadingKey_prefix_iff hstart hkey]⟩

/-- A name of seven bytes, which leaves one byte of its group. Followed by U+0000 it
fills the group, so that one more group stands behind it, and its key lies no longer
in the range. -/
theorem between_next_text_at_whole_group :
    let row : Record := ⟨[none, some (.scalar .float64 ⟨0⟩), some (.scalar .string "Elbe 12")]⟩
    let beyond : Record :=
      ⟨[none, some (.scalar .float64 ⟨0⟩), some (.scalar .string "Elbe 12\x00")]⟩
    ∃ start next key outside,
      (readings .big 5).leadingKey 114 row 1 = .ok start ∧
      (readings .big 5).leadingKey 114 beyond 1 = .ok next ∧
      (readings .big 5).encodeKey 114 row = .ok key ∧
      (readings .big 5).encodeKey 114 beyond = .ok outside ∧
      (start ≤ key ∧ key < next) ∧ ¬(start ≤ outside ∧ outside < next) ∧ start.InScan key := by
  intro row beyond
  have hstart : (readings .big 5).leadingKey 114 row 1 =
      .ok [114, 0, 0, 0, 0, 0, 0, 0, 5, 1, 69, 108, 98, 101, 32, 49, 50, 0, 254] := by
    decide +kernel
  have hkey : (readings .big 5).encodeKey 114 row =
      .ok [114, 0, 0, 0, 0, 0, 0, 0, 5, 1, 69, 108, 98, 101, 32, 49, 50, 0, 254,
        128, 0, 0, 0, 0, 0, 0, 0, 0, 0, 0, 1] := by
    decide +kernel
  have houtside : (readings .big 5).encodeKey 114 beyond =
      .ok [114, 0, 0, 0, 0, 0, 0, 0, 5, 1, 69, 108, 98, 101, 32, 49, 50, 0, 255,
        0, 0, 0, 0, 0, 0, 0, 0, 247, 128, 0, 0, 0, 0, 0, 0, 0, 0, 0, 0, 1] := by
    decide +kernel
  have hcolumn : (readings .big 5).plan.keyColumns[0]? =
      some { type := .scalar .string, ordinal := 2, isKey := true } := rfl
  obtain ⟨next, hnext, hall⟩ := between_next_text_iff hcolumn rfl rfl hstart
  obtain ⟨hinside, hscan⟩ := hall row _ hkey
  obtain ⟨hbeyond, -⟩ := hall beyond _ houtside
  have hbetween := hinside.2 fun _ _ => rfl
  refine ⟨_, next, _, _, hstart, hnext, hkey, houtside, hbetween, ?_, hscan.1 hbetween⟩
  intro hin
  exact absurd (hbeyond.1 hin _ List.mem_cons_self) (by decide)

end Encoder

end KeyedRows
