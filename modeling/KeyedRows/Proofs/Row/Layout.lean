import KeyedRows.Proofs.Row.KeyOrder

namespace KeyedRows

namespace Region

/-- Whether writing succeeds, and how it fails, is the same in all regions. -/
def Indifferent (write : Region → Except Error Region) : Prop :=
  ∀ region other, (write region).map (fun _ => ()) = (write other).map fun _ => ()

variable {write next : Region → Except Error Region}

private theorem indifferent_ok (put : Region → Region) : Indifferent fun region => .ok (put region) :=
  fun _ _ => rfl

private theorem indifferent_error (e : Error) : Indifferent fun _ => .error e :=
  fun _ _ => rfl

/-- Writing twice is indifferent to the room if each part is. -/
theorem Indifferent.bind (hwrite : Indifferent write) (hnext : Indifferent next) :
    Indifferent fun region => write region >>= next := by
  intro region other
  have hsame := hwrite region other
  change (write region >>= next).map _ = (write other >>= next).map _
  cases hregion : write region with
  | error e =>
    cases hother : write other with
    | error e' =>
      rw [hregion, hother] at hsame
      cases hsame
      rfl
    | ok after =>
      rw [hregion, hother] at hsame
      cases hsame
  | ok after =>
    cases hother : write other with
    | error e =>
      rw [hregion, hother] at hsame
      cases hsame
    | ok after' => exact hnext after after'

/-- A check made before does not look at the region. -/
theorem Indifferent.check (check : Except Error Unit) (hwrite : Indifferent write) :
    Indifferent fun region => check >>= fun _ => write region := by
  intro region other
  cases check with
  | error e => rfl
  | ok => exact hwrite region other

/-- Writing may start from different regions without a difference. -/
theorem Indifferent.comp (hwrite : Indifferent write) (put : Region → Region) :
    Indifferent fun region => write (put region) :=
  fun region other => hwrite (put region) (put other)

private theorem indifferent_pushSized (bytes : Bytes) : Indifferent fun region => region.pushSized bytes := by
  simp only [pushSized]
  split
  · exact indifferent_ok _
  · exact indifferent_error _

end Region

open Region

namespace Scalar

private theorem indifferent_writeItem (kind : Scalar) (item : kind.Item) :
    Indifferent (kind.writeItem item) := by
  cases kind with
  | bool | int32 | int64 | float32 | float64 => exact indifferent_ok _
  | string => exact indifferent_pushSized _

private theorem indifferent_writeItems (kind : Scalar) (items : List kind.Item) :
    Indifferent (kind.writeItems items) := by
  induction items with
  | nil => exact indifferent_ok id
  | cons item items ih => exact (kind.indifferent_writeItem item).bind ih

end Scalar

namespace Column

variable (column : Column) (slot : Slot)

private theorem indifferent_writeKey : Indifferent (column.writeKey slot) := by
  apply Indifferent.check
  rcases slot with _ | ⟨kind, item⟩ | ⟨kind, items⟩
  · exact indifferent_ok _
  · exact indifferent_ok _
  · exact indifferent_error _

private theorem indifferent_writeValue : Indifferent (column.writeValue slot) := by
  apply Indifferent.check
  rcases slot with _ | ⟨kind, item⟩ | ⟨kind, items⟩
  · exact indifferent_ok _
  · exact (kind.indifferent_writeItem item).comp _
  · by_cases hlength : items.length < Frame.lengthLimit
    · simp only [if_pos hlength]
      exact (kind.indifferent_writeItems items).comp _
    · simp only [if_neg hlength]
      exact indifferent_error _

end Column

namespace Encoder

private theorem indifferent_writeSlots {write : Column → Slot → Region → Except Error Region}
    (hwrite : ∀ column slot, Indifferent (write column slot)) (record : Record) (columns : Schema) :
    Indifferent (writeSlots write record columns) := by
  induction columns with
  | nil => exact indifferent_ok id
  | cons column columns ih =>
    cases hslot : record.slot? column.ordinal with
    | none =>
      intro region other
      simp only [writeSlots, hslot]
    | some slot =>
      intro region other
      simp only [writeSlots, hslot]
      exact (hwrite column slot).bind ih region other

/-- Two computations that fail alike and cannot give different bytes are the same.
In this way indifference to the room is taken apart into failures and bytes, which
are shown by different means. -/
theorem outcome_eq {first second : Except Error Region}
    (hsame : first.map (fun _ => ()) = second.map fun _ => ())
    (hbytes : ∀ bytes bytes', first.map Region.toBytes = .ok bytes →
      second.map Region.toBytes = .ok bytes' → bytes = bytes') :
    first.map Region.toBytes = second.map Region.toBytes := by
  cases first with
  | error e =>
    cases second with
    | error e' =>
      cases hsame
      rfl
    | ok region => cases hsame
  | ok region =>
    cases second with
    | error e => cases hsame
    | ok region' => exact congrArg Except.ok (hbytes _ _ rfl rfl)

variable {encoder other : Encoder} {tag : UInt8} {record : Record}

private theorem opening_congr (hid : other.commonId = encoder.commonId) :
    other.opening tag = encoder.opening tag := by
  rw [opening, opening, hid]

private theorem checkLength_congr (hcolumns : other.plan.columns = encoder.plan.columns) :
    other.checkLength record = encoder.checkLength record := by
  rw [checkLength, checkLength, Plan.rowLength, Plan.rowLength, hcolumns]

private theorem encodeKey_congr (hcolumns : other.plan.columns = encoder.plan.columns)
    (hid : other.commonId = encoder.commonId) :
    other.encodeKey tag record = encoder.encodeKey tag record := by
  have hkeys : other.plan.keyColumns = encoder.plan.keyColumns :=
    congrArg Schema.keyColumns hcolumns
  apply outcome_eq
  · simp only [writeKey, checkLength_congr hcolumns, hkeys]
    exact (indifferent_writeSlots Column.indifferent_writeKey record _).check _ _ _
  · intro key key' hkey hkey'
    change other.encodeKey tag record = .ok key at hkey
    change encoder.encodeKey tag record = .ok key' at hkey'
    obtain ⟨-, -, hbytes⟩ := encodeKey_eq_ok hkey
    obtain ⟨-, -, hbytes'⟩ := encodeKey_eq_ok hkey'
    rw [hbytes, hbytes', hkeys, opening_congr hid]

private theorem leadingKey_congr (hcolumns : other.plan.columns = encoder.plan.columns)
    (hid : other.commonId = encoder.commonId) (count : Nat) :
    other.leadingKey tag record count = encoder.leadingKey tag record count := by
  have hkeys : other.plan.keyColumns = encoder.plan.keyColumns :=
    congrArg Schema.keyColumns hcolumns
  apply outcome_eq
  · rw [hkeys]
    exact indifferent_writeSlots Column.indifferent_writeKey record _ _ _
  · intro start start' hstart hstart'
    obtain ⟨-, hbytes⟩ := leadingKey_eq_ok hstart
    obtain ⟨-, hbytes'⟩ := leadingKey_eq_ok hstart'
    rw [hbytes, hbytes', hkeys, opening_congr hid]

private theorem encodeValue_congr (hcolumns : other.plan.columns = encoder.plan.columns)
    (horder : other.plan.order = encoder.plan.order)
    (hversion : other.schemaVersion = encoder.schemaVersion) :
    other.encodeValue record = encoder.encodeValue record := by
  have hvalues : other.plan.valueColumns = encoder.plan.valueColumns :=
    congrArg Schema.valueColumns hcolumns
  apply outcome_eq
  · simp only [writeValue, checkLength_congr hcolumns, hvalues]
    exact (indifferent_writeSlots Column.indifferent_writeValue record _).check _ _ _
  · intro value value' hvalue hvalue'
    obtain ⟨-, -, hbytes⟩ := encodeValue_eq_ok hvalue
    obtain ⟨-, -, hbytes'⟩ := encodeValue_eq_ok hvalue'
    rw [hbytes, hbytes', hvalues, horder, hversion]

/-- What all keys with the same first columns start with is the beginning of the key
of the same row. The key must have been written: a row can fill the first columns
and not the others. -/
theorem leadingKey_prefix {count : Nat} {start key : Bytes}
    (hstart : encoder.leadingKey tag record count = .ok start)
    (hkey : encoder.encodeKey tag record = .ok key) : start <+: key := by
  obtain ⟨-, hbytes⟩ := leadingKey_eq_ok hstart
  obtain ⟨-, -, hbytes'⟩ := encodeKey_eq_ok hkey
  have hcolumns := List.take_append_drop count encoder.plan.keyColumns
  rw [hbytes, hbytes', ← hcolumns, Record.bytesBy, Record.bytesBy, List.flatMap_append, hcolumns,
    List.append_assoc, List.append_assoc, ← List.append_assoc]
  exact List.prefix_append ..

/-- Keys, values and what keys start with are plain concatenations of the bytes of
single slots, which the row has. The same bytes are written, or the same fault is
met, whatever room was set aside; for keys the byte order makes no difference
either. -/
theorem encode_layout (encoder : Encoder) (tag : UInt8) (record : Record) :
    (∀ key, encoder.encodeKey tag record = .ok key → record.Fills encoder.plan.keyColumns ∧
      key = [tag] ++ ByteOrder.big.word 8 encoder.commonId.toUInt64.toNat ++
        record.bytesBy Column.keyBytes encoder.plan.keyColumns ++ [0, 0, 0, 1]) ∧
    (∀ value, encoder.encodeValue record = .ok value → record.Fills encoder.plan.valueColumns ∧
      value = encoder.plan.order.word 4 encoder.schemaVersion.toUInt32.toNat ++
        record.bytesBy (Column.valueBytes encoder.plan.order) encoder.plan.valueColumns) ∧
    (∀ count start, encoder.leadingKey tag record count = .ok start →
      record.Fills (encoder.plan.keyColumns.take (min count encoder.plan.keyColumns.length)) ∧
      start = [tag] ++ ByteOrder.big.word 8 encoder.commonId.toUInt64.toNat ++
        record.bytesBy Column.keyBytes
          (encoder.plan.keyColumns.take (min count encoder.plan.keyColumns.length)) ∧
      ∀ key, encoder.encodeKey tag record = .ok key → start <+: key) ∧
    (∀ other : Encoder, other.plan.columns = encoder.plan.columns →
      other.commonId = encoder.commonId →
        other.encodeKey tag record = encoder.encodeKey tag record ∧
        ∀ count, other.leadingKey tag record count = encoder.leadingKey tag record count) ∧
    (∀ other : Encoder, other.plan.columns = encoder.plan.columns →
      other.plan.order = encoder.plan.order → other.schemaVersion = encoder.schemaVersion →
        other.encodeValue record = encoder.encodeValue record) := by
  refine ⟨?_, ?_, ?_, ?_, ?_⟩
  · intro key hkey
    obtain ⟨-, hfills, hbytes⟩ := encodeKey_eq_ok hkey
    exact ⟨hfills, hbytes⟩
  · intro value hvalue
    obtain ⟨-, hslots, hbytes⟩ := encodeValue_eq_ok hvalue
    refine ⟨?_, hbytes⟩
    intro column hmem
    obtain ⟨slot, hslot, hadmits, -⟩ := hslots column hmem
    exact ⟨slot, hslot, hadmits⟩
  · intro count start hstart
    obtain ⟨hfills, hbytes⟩ := leadingKey_eq_ok hstart
    rw [← List.take_eq_take_min]
    exact ⟨hfills, hbytes, fun key hkey => leadingKey_prefix hstart hkey⟩
  · intro other hcolumns hid
    exact ⟨encodeKey_congr hcolumns hid, leadingKey_congr hcolumns hid⟩
  · intro other hcolumns horder hversion
    exact encodeValue_congr hcolumns horder hversion

/-- A key in a region of the least size, which it has to leave in the middle of a
column, and the same row under encoders that set aside more or less and differ in
what must not matter: the byte order for keys, the common id for values. -/
theorem encode_layout_in_little_room :
    let row : Record := ⟨[some (.list .int64 [-1]), some (.scalar .float64 ⟨0⟩),
      some (.scalar .string "Elbe")]⟩
    let roomy : Encoder := { readings .big 5 with keyRoom := 4096 }
    let roomyValues : Encoder := { readings .little 6 with valueRoom := 0 }
    ∃ key value start,
      (readings .little 5).encodeKey 114 row = .ok key ∧
      (readings .little 5).encodeValue row = .ok value ∧
      (readings .little 5).leadingKey 114 row 1 = .ok start ∧
      row.Fills (readings .little 5).plan.keyColumns ∧
      row.Fills (readings .little 5).plan.valueColumns ∧
      start <+: key ∧
      roomy.encodeKey 114 row = .ok key ∧ roomyValues.encodeValue row = .ok value := by
  intro row roomy roomyValues
  have hkey : (readings .little 5).encodeKey 114 row =
      .ok [114, 0, 0, 0, 0, 0, 0, 0, 5, 1, 69, 108, 98, 101, 0, 0, 0, 0, 251,
        128, 0, 0, 0, 0, 0, 0, 0, 0, 0, 0, 1] := by
    decide +kernel
  have hvalue : (readings .little 5).encodeValue row =
      .ok [1, 0, 0, 0, 1, 1, 0, 0, 0, 255, 255, 255, 255, 255, 255, 255, 255] := by
    decide +kernel
  have hstart : (readings .little 5).leadingKey 114 row 1 =
      .ok [114, 0, 0, 0, 0, 0, 0, 0, 5, 1, 69, 108, 98, 101, 0, 0, 0, 0, 251] := by
    decide +kernel
  obtain ⟨hkeys, hvalues, hstarts, hroom, hroom'⟩ := encode_layout (readings .little 5) 114 row
  exact ⟨_, _, _, hkey, hvalue, hstart, (hkeys _ hkey).1, (hvalues _ hvalue).1,
    (hstarts _ _ hstart).2.2 _ hkey, (hroom roomy rfl rfl).1.trans hkey,
    (hroom' roomyValues rfl rfl rfl).trans hvalue⟩

end Encoder

end KeyedRows
