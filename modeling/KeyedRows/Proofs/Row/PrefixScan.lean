import KeyedRows.Proofs.Bytes.Scan
import KeyedRows.Proofs.Row.KeyOrder

namespace KeyedRows

private theorem Bytes.append_prefix_append_iff {a b x y : Bytes} (hlength : a.length = b.length) :
    a ++ x <+: b ++ y ↔ a = b ∧ x <+: y := by
  constructor
  · intro ⟨rest, heq⟩
    rw [List.append_assoc] at heq
    obtain ⟨hfront, hbehind⟩ := List.append_inj heq hlength
    exact ⟨hfront, rest, hbehind⟩
  · intro ⟨hfront, hbehind⟩
    rw [hfront]
    exact (List.prefix_append_right_inj b).2 hbehind

private theorem Column.keyBytes_append_prefix_iff {column : Column} {a b : Slot} {x y : Bytes}
    (hscalar : column.type.isList = false) (ha : column.Admits a) (hb : column.Admits b) :
    column.keyBytes a ++ x <+: column.keyBytes b ++ y ↔ a = b ∧ x <+: y := by
  constructor
  · intro ⟨rest, heq⟩
    have hcompare := column.compare_keyBytes_append hscalar ha hb (x ++ rest) y
    rw [← List.append_assoc, heq, Std.ReflOrd.compare_self] at hcompare
    obtain ⟨hslots, hbehind⟩ := Ordering.then_eq_eq.1 hcompare.symm
    exact ⟨(compare_slot_eq_eq_iff hscalar ha hb).1 hslots, rest,
      Std.LawfulEqOrd.eq_of_compare hbehind⟩
  · intro ⟨hslots, hbehind⟩
    rw [hslots]
    exact (List.prefix_append_right_inj _).2 hbehind

/-- The bytes of the first key columns of a row are the beginning of those of
another row exactly if the rows have the same slots there. Each row must fill the
columns of its side, and none of them may be a list. What stands behind is free, so
the bytes of columns carry their own ends. -/
theorem Record.bytesBy_prefix_iff {columns : Schema} {a b : Record} {count : Nat} {behind : Bytes}
    (hscalar : ∀ column ∈ columns, column.type.isList = false) (ha : a.Fills (columns.take count))
    (hb : b.Fills columns) :
    a.bytesBy Column.keyBytes (columns.take count) <+:
        b.bytesBy Column.keyBytes columns ++ behind ↔
      ∀ column ∈ columns.take count, a.slot? column.ordinal = b.slot? column.ordinal := by
  induction columns generalizing count with
  | nil => simp [bytesBy]
  | cons column columns ih =>
    cases count with
    | zero => simp [bytesBy]
    | succ count =>
      rw [List.take_succ_cons] at ha ⊢
      obtain ⟨slot, hslot, hadmits⟩ := ha column List.mem_cons_self
      obtain ⟨slot', hslot', hadmits'⟩ := hb column List.mem_cons_self
      have hrest := ih (fun other hmem => hscalar other (List.mem_cons_of_mem _ hmem)) ha.tail hb.tail
      have hfirst := Column.keyBytes_append_prefix_iff (hscalar column List.mem_cons_self) hadmits
        hadmits' (x := a.bytesBy Column.keyBytes (columns.take count))
        (y := b.bytesBy Column.keyBytes columns ++ behind)
      simp only [bytesBy, List.flatMap_cons, List.append_assoc, value?_of_slot? hslot,
        value?_of_slot? hslot'] at hfirst hrest ⊢
      rw [hfirst, hrest, List.forall_mem_cons, hslot, hslot', Option.some.injEq]

namespace Encoder

variable {encoder other : Encoder} {tag tag' : UInt8}

private theorem opening_eq_iff :
    encoder.opening tag = other.opening tag' ↔
      tag = tag' ∧ encoder.commonId = other.commonId := by
  have hcompare := compare_opening_append encoder other tag tag' [] []
  rw [List.append_nil, List.append_nil, List.compare_nil_nil, Ordering.then_eq] at hcompare
  rw [← Std.LawfulEqOrd.compare_eq_iff_eq, hcompare, Ordering.then_eq_eq,
    Std.LawfulEqOrd.compare_eq_iff_eq, Std.LawfulEqOrd.compare_eq_iff_eq, toUInt64_inj]

/-- Bytes behind one opening start with bytes behind another exactly if the openings
are the same and what stands behind them does. Openings are all of one length, so
none ends within the other. -/
theorem opening_append_prefix_iff {x y : Bytes} :
    encoder.opening tag ++ x <+: other.opening tag' ++ y ↔
      tag' = tag ∧ other.commonId = encoder.commonId ∧ x <+: y := by
  have hlength : (encoder.opening tag).length = (other.opening tag').length := by
    rw [opening, opening, List.length_cons, List.length_cons, ByteOrder.length_word,
      ByteOrder.length_word]
  rw [Bytes.append_prefix_append_iff hlength, opening_eq_iff, and_assoc, eq_comm,
    @eq_comm _ encoder.commonId]

/-- What is written of values read from texts is the beginning of the key columns of
those rows that hold these values. Rows must fill the columns, and none of these may
be a list. A row that lacks one of the values, an absent one included, has other
bytes there. -/
theorem writeTexts_eq_ok {columns : Schema} {texts : List String} {region after : Region}
    (hscalar : ∀ column ∈ columns, column.type.isList = false)
    (h : writeTexts columns texts region = .ok after) :
    ∃ written, after.Extends region written ∧ ∀ (row : Record) (behind : Bytes), row.Fills columns →
      (written <+: row.bytesBy Column.keyBytes columns ++ behind ↔
        ∀ given ∈ columns.zip texts, ∃ value, Value.parse given.1.type given.2 = .ok value ∧
          row.slot? given.1.ordinal = some (some value)) := by
  induction columns generalizing texts region with
  | nil =>
    cases h
    exact ⟨[], Region.extends_refl _, by simp⟩
  | cons column columns ih =>
    cases texts with
    | nil =>
      cases h
      exact ⟨[], Region.extends_refl _, by simp⟩
    | cons text texts =>
      simp only [writeTexts, bind_eq_ok_iff] at h
      obtain ⟨value, hparse, middle, hwrite, hrest⟩ := h
      obtain ⟨written, hextends, hprefix⟩ :=
        ih (fun other hmem => hscalar other (List.mem_cons_of_mem _ hmem)) hrest
      refine ⟨column.keyBytes (some value) ++ written,
        hextends.trans (Column.extends_writeKey hwrite), ?_⟩
      intro row behind hfills
      obtain ⟨slot, hslot, hadmits⟩ := hfills column List.mem_cons_self
      have hgiven : (∃ found, Value.parse column.type text = .ok found ∧
          row.slot? column.ordinal = some (some found)) ↔ some value = slot := by
        simp [hparse, hslot, eq_comm]
      rw [List.zip_cons_cons, List.forall_mem_cons, hgiven, ← hprefix row behind hfills.tail,
        Record.bytesBy, List.flatMap_cons, Record.value?_of_slot? hslot, List.append_assoc]
      exact Column.keyBytes_append_prefix_iff (hscalar column List.mem_cons_self)
        (Column.admits_of_writeKey hwrite) hadmits

/-- The scan from what keys with given first columns start with meets a key exactly
if its row has these slots and its tag byte and common id are the same. Where the
slots are read from texts, the row must hold the values that the texts stand for. -/
theorem inScan_leadingKey_iff {row : Record} {key : Bytes}
    (hcolumns : encoder.plan.columns = other.plan.columns)
    (hkey : other.encodeKey tag' row = .ok key) :
    (∀ record count start, encoder.leadingKey tag record count = .ok start →
      (start.InScan key ↔ tag' = tag ∧ other.commonId = encoder.commonId ∧
        ∀ column ∈ encoder.plan.keyColumns.take count,
          record.slot? column.ordinal = row.slot? column.ordinal)) ∧
    (∀ texts start, encoder.leadingKeyOfTexts tag texts = .ok start →
      texts.length ≤ encoder.plan.keyColumns.length ∧
      (start.InScan key ↔ tag' = tag ∧ other.commonId = encoder.commonId ∧
        ∀ given ∈ encoder.plan.keyColumns.zip texts,
          ∃ value, Value.parse given.1.type given.2 = .ok value ∧
            row.slot? given.1.ordinal = some (some value))) := by
  have hscalar : ∀ column ∈ encoder.plan.keyColumns, column.type.isList = false :=
    fun column hmem => encoder.plan.isList_of_mem_keyColumns hmem
  have hkeys : other.plan.keyColumns = encoder.plan.keyColumns :=
    congrArg Schema.keyColumns hcolumns.symm
  obtain ⟨-, hfills, hbytes⟩ := encodeKey_eq_ok hkey
  rw [hkeys] at hfills hbytes
  rw [List.append_assoc] at hbytes
  constructor
  · intro record count start hstart
    obtain ⟨hleading, hstart⟩ := leadingKey_eq_ok hstart
    rw [Bytes.inScan_iff_prefix, hstart, hbytes, opening_append_prefix_iff,
      Record.bytesBy_prefix_iff hscalar hleading hfills]
  · intro texts start hstart
    rw [leadingKeyOfTexts] at hstart
    split at hstart
    · cases hstart
    · rename_i hcount
      obtain ⟨region, htexts, rfl⟩ := map_eq_ok_iff.1 hstart
      obtain ⟨written, hextends, hprefix⟩ := writeTexts_eq_ok hscalar htexts
      have hopened := encoder.extends_writeOpening_reserve tag Frame.openingSize
      refine ⟨Nat.le_of_not_lt hcount, ?_⟩
      rw [(hextends.trans hopened).toBytes_of_empty, Bytes.inScan_iff_prefix, hbytes,
        opening_append_prefix_iff, hprefix row Frame.trailer hfills]

/-- The greatest tag byte and a common id of ones only: no bytes lie behind all that
start so, and the scan has no end. Under another common id the same text at the
start does not meet the key. -/
theorem inScan_leadingKey_without_end :
    ∃ everything known key,
      (readings .big (-1)).leadingKey 255 ⟨[]⟩ 0 = .ok everything ∧
      (readings .big (-7)).leadingKeyOfTexts 255 ["a"] = .ok known ∧
      (readings .little (-1)).encodeKey 255
        ⟨[none, some (.scalar .float64 ⟨0⟩), some (.scalar .string "a")]⟩ = .ok key ∧
      Bytes.successor? everything = none ∧ everything.InScan key ∧ ¬known.InScan key := by
  have heverything : (readings .big (-1)).leadingKey 255 ⟨[]⟩ 0 =
      .ok [255, 255, 255, 255, 255, 255, 255, 255, 255] := by
    decide +kernel
  have hknown : (readings .big (-7)).leadingKeyOfTexts 255 ["a"] =
      .ok [255, 255, 255, 255, 255, 255, 255, 255, 249, 1, 97, 0, 0, 0, 0, 0, 0, 0, 248] := by
    decide +kernel
  have hkey : (readings .little (-1)).encodeKey 255
      ⟨[none, some (.scalar .float64 ⟨0⟩), some (.scalar .string "a")]⟩ =
      .ok [255, 255, 255, 255, 255, 255, 255, 255, 255, 1, 97, 0, 0, 0, 0, 0, 0, 0, 248,
        128, 0, 0, 0, 0, 0, 0, 0, 0, 0, 0, 1] := by
    decide +kernel
  have hcolumns : ∀ id, (readings .big id).plan.columns = (readings .little (-1)).plan.columns :=
    fun _ => rfl
  have hall := (inScan_leadingKey_iff (hcolumns (-1)) hkey).1 ⟨[]⟩ 0 _ heverything
  have hsome := ((inScan_leadingKey_iff (hcolumns (-7)) hkey).2 ["a"] _ hknown).2
  refine ⟨_, _, _, heverything, hknown, hkey, by decide +kernel, hall.2 ⟨rfl, rfl, ?_⟩, ?_⟩
  · simp
  · intro hscan
    exact absurd (hsome.1 hscan).2.1 (by decide)

end Encoder

end KeyedRows
