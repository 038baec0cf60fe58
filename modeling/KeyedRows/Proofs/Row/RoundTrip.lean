import KeyedRows.Proofs.Column.Reading
import KeyedRows.Proofs.Row.Frame
import KeyedRows.Proofs.Row.KeyOrder

namespace KeyedRows.Decoder

open Reader

/-- A decoder is made for the same table as an encoder. -/
structure Suits (decoder : Decoder) (encoder : Encoder) : Prop where
  plan : decoder.plan = encoder.plan
  schemaVersion : decoder.schemaVersion = encoder.schemaVersion
  commonId : decoder.commonId = encoder.commonId

/-- An encoder and a decoder that are made from the same schema, version, id and
order suit. The settings for the room make no difference. -/
theorem suits_of_of? {decoder : Decoder} {encoder : Encoder} {columns : Schema}
    {schemaVersion : Int32} {commonId : Int64} {settings : Settings}
    (hdecoder : Decoder.of? schemaVersion columns commonId settings.order = .ok decoder)
    (hencoder : Encoder.of? schemaVersion columns commonId settings = .ok encoder) :
    decoder.Suits encoder := by
  rw [Decoder.of?, bind_eq_ok_iff] at hdecoder
  rw [Encoder.of?, bind_eq_ok_iff] at hencoder
  obtain ⟨plan, hplan, hdecoder⟩ := hdecoder
  obtain ⟨plan', hplan', hencoder⟩ := hencoder
  rw [hplan] at hplan'
  cases hplan'
  cases hdecoder
  cases hencoder
  exact ⟨rfl, rfl, rfl⟩

variable {decoder : Decoder} {encoder : Encoder}

/-- A decoder looks for the opening that its encoder writes. -/
theorem Suits.opening_eq (hsuits : decoder.Suits encoder) (tag : UInt8) :
    decoder.opening tag = encoder.opening tag := by
  rw [opening, Encoder.opening, hsuits.commonId]

private theorem readFrame_eq_ok (hsuits : decoder.Suits encoder) {tag : UInt8} {cursor : Cursor}
    {body : Bytes} (hunread : cursor.unread = encoder.opening tag ++ body ++ Frame.trailer) :
    ∃ after, decoder.readFrame cursor = (.ok (), after) ∧ after.unread = body ∧
      after.order = cursor.order := by
  rw [← hsuits.opening_eq, List.append_assoc] at hunread
  obtain ⟨middle, hopening, hmiddle, horder⟩ :=
    consumes_readOpening cursor.order tag cursor _ rfl hunread
  obtain ⟨after, htrailer, hafter, hsame⟩ := readTrailer_eq_ok hmiddle
  refine ⟨after, ?_, hafter, hsame.trans horder⟩
  rw [readFrame_eq, bind_of_ok hopening, htrailer]

private theorem consumes_readHeader (hsuits : decoder.Suits encoder) (order : ByteOrder) :
    Consumes order decoder.readHeader
      (order.word 4 encoder.schemaVersion.toUInt32.toNat) () := by
  intro cursor rest horder hunread
  obtain ⟨after, hversion, hafter, hsame⟩ :=
    consumes_int32 order encoder.schemaVersion cursor rest horder hunread
  refine ⟨after, ?_, hafter, hsame⟩
  rw [readHeader, bind_of_ok hversion, if_pos hsuits.schemaVersion.symm]
  rfl

/-- The slots of a key come back from the key, over whatever row it is read. Slots
outside the key need not even be admitted by their columns. -/
theorem run_readKey_encodeKey (hsuits : decoder.Suits encoder) {tag : UInt8} {record base : Record}
    {key : Bytes} (hkey : encoder.encodeKey tag record = .ok key) :
    record.size = decoder.plan.rowLength ∧ decoder.run (decoder.readKey .all base) key =
      .ok (base.fill record (decoder.plan.keyColumns.map Column.ordinal)) := by
  obtain ⟨hsize, hfills, hbytes⟩ := Encoder.encodeKey_eq_ok hkey
  rw [← hsuits.plan] at hsize hfills hbytes
  refine ⟨hsize, ?_⟩
  have hunread := (Cursor.unread_of key decoder.plan.order).trans hbytes
  obtain ⟨middle, hframe, hmiddle, horder⟩ := readFrame_eq_ok hsuits hunread
  rw [run, readKey_eq]
  apply Half.reader_eq_ok hframe rfl hmiddle
  intro column hmem
  obtain ⟨slot, hslot, hadmits⟩ := hfills column hmem
  rw [Record.value?_of_slot? hslot]
  exact Column.consumes_readKey (decoder.plan.isList_of_mem_keyColumns hmem) hadmits

/-- The slots of a value come back from the value, over whatever row it is read.
Slots of the key need not even be admitted by their columns. -/
theorem run_readValue_encodeValue (hsuits : decoder.Suits encoder) {record base : Record}
    {value : Bytes} (hvalue : encoder.encodeValue record = .ok value) :
    record.size = decoder.plan.rowLength ∧ decoder.run (decoder.readValue .all base) value =
      .ok (base.fill record (decoder.plan.valueColumns.map Column.ordinal)) := by
  obtain ⟨hsize, hslots, hbytes⟩ := Encoder.encodeValue_eq_ok hvalue
  rw [← hsuits.plan] at hsize hslots hbytes
  refine ⟨hsize, ?_⟩
  have hunread := (Cursor.unread_of value decoder.plan.order).trans hbytes
  obtain ⟨middle, hheader, hmiddle, horder⟩ :=
    consumes_readHeader hsuits decoder.plan.order _ _ rfl hunread
  rw [run, readValue_eq]
  apply Half.reader_eq_ok hheader horder hmiddle
  intro column hmem
  obtain ⟨slot, hslot, hadmits, hfits⟩ := hslots column hmem
  rw [Record.value?_of_slot? hslot]
  exact Column.consumes_readValue hadmits hfits

private theorem fill_absentRecord {record : Record} {ordinals : List Nat}
    (hsize : record.size = decoder.plan.rowLength)
    (hlt : ∀ ordinal ∈ ordinals, ordinal < decoder.plan.rowLength) :
    decoder.absentRecord.fill record ordinals = record.only ordinals := by
  rw [absentRecord, ← hsize, Record.fill_absent]
  rwa [hsize]

/-- The two halves of a row are put together again. -/
theorem decode_of_halves (hsuits : decoder.Suits encoder) {tag : UInt8} {record : Record}
    {key value : Bytes} (hkey : encoder.encodeKey tag record = .ok key)
    (hvalue : encoder.encodeValue record = .ok value) : decoder.decode key value = .ok record := by
  have hkeys := decoder.plan.ordinal_lt_of_subset decoder.plan.keyColumns_subset
  have hvalues := decoder.plan.ordinal_lt_of_subset decoder.plan.valueColumns_subset
  obtain ⟨hsize, hrunKey⟩ := run_readKey_encodeKey hsuits hkey
  obtain ⟨-, hrunValue⟩ := run_readValue_encodeValue hsuits hvalue
  rw [decode, decodeWith, bind_eq_ok_iff]
  refine ⟨_, hrunKey, ?_⟩
  rw [hrunValue, ← Record.fill_append, fill_absentRecord hsize, Record.only_eq_self]
  · intro place hplace
    exact decoder.plan.mem_ordinals_of_lt (hsize ▸ hplace)
  · intro ordinal hmem
    exact (List.mem_append.1 hmem).elim (hkeys ordinal) (hvalues ordinal)

/-- A row is read back as it was written, and so are its key slots and its other
slots alone, whatever the slots of the other half hold. The decoder must suit the
encoder: the same columns, order, version and id. Nothing is asked of the row but
that it has been written, and floating-point numbers come back with all their bits. -/
theorem decode_of_encode (hsuits : decoder.Suits encoder) (tag : UInt8) (record : Record) :
    (∀ key value, encoder.encode tag record = .ok (key, value) →
      decoder.decode key value = .ok record) ∧
    (∀ key, encoder.encodeKey tag record = .ok key →
      decoder.decodeKey key =
        .ok (record.only (decoder.plan.keyColumns.map Column.ordinal))) ∧
    (∀ value, encoder.encodeValue record = .ok value →
      decoder.decodeValue value =
        .ok (record.only (decoder.plan.valueColumns.map Column.ordinal))) := by
  have hkeys := decoder.plan.ordinal_lt_of_subset decoder.plan.keyColumns_subset
  have hvalues := decoder.plan.ordinal_lt_of_subset decoder.plan.valueColumns_subset
  refine ⟨?_, ?_, ?_⟩
  · intro key value hencode
    rw [Encoder.encode, bind_eq_ok_iff] at hencode
    obtain ⟨key, hkey, hencode⟩ := hencode
    rw [bind_eq_ok_iff] at hencode
    obtain ⟨value, hvalue, hpair⟩ := hencode
    cases hpair
    exact decode_of_halves hsuits hkey hvalue
  · intro key hkey
    obtain ⟨hsize, hrun⟩ := run_readKey_encodeKey hsuits hkey
    rw [decodeKey, hrun, fill_absentRecord hsize hkeys]
  · intro value hvalue
    obtain ⟨hsize, hrun⟩ := run_readValue_encodeValue hsuits hvalue
    rw [decodeValue, hrun, fill_absentRecord hsize hvalues]

/-- The table of readings as it is read. -/
def readings (order : ByteOrder) (commonId : Int64) : Decoder where
  plan := (Encoder.readings order commonId).plan
  schemaVersion := 1
  commonId

/-- A number that is not one, with its sign and the bits that tell such numbers
apart, in a key column. The key is the same if the other half does not even have the
type of its column. -/
theorem decode_of_encode_nan :
    ∃ key value,
      (Encoder.readings .little 5).encode 114
          ⟨[some (.list .int64 [-1]), some (.scalar .float64 ⟨0xFFF0000000000001⟩),
            some (.scalar .string "Elbe")]⟩ = .ok (key, value) ∧
      (readings .little 5).decode key value =
        .ok ⟨[some (.list .int64 [-1]), some (.scalar .float64 ⟨0xFFF0000000000001⟩),
          some (.scalar .string "Elbe")]⟩ ∧
      (Encoder.readings .little 5).encodeKey 114
          ⟨[some (.scalar .bool true), some (.scalar .float64 ⟨0xFFF0000000000001⟩),
            some (.scalar .string "Elbe")]⟩ = .ok key ∧
      (readings .little 5).decodeKey key =
        .ok ⟨[none, some (.scalar .float64 ⟨0xFFF0000000000001⟩),
          some (.scalar .string "Elbe")]⟩ := by
  have hencode : (Encoder.readings .little 5).encode 114
      ⟨[some (.list .int64 [-1]), some (.scalar .float64 ⟨0xFFF0000000000001⟩),
        some (.scalar .string "Elbe")]⟩ =
      .ok ([114, 0, 0, 0, 0, 0, 0, 0, 5, 1, 69, 108, 98, 101, 0, 0, 0, 0, 251,
          0, 15, 255, 255, 255, 255, 255, 254, 0, 0, 0, 1],
        [1, 0, 0, 0, 1, 1, 0, 0, 0, 255, 255, 255, 255, 255, 255, 255, 255]) := by
    decide +kernel
  have hkey : (Encoder.readings .little 5).encodeKey 114
      ⟨[some (.scalar .bool true), some (.scalar .float64 ⟨0xFFF0000000000001⟩),
        some (.scalar .string "Elbe")]⟩ =
      .ok [114, 0, 0, 0, 0, 0, 0, 0, 5, 1, 69, 108, 98, 101, 0, 0, 0, 0, 251,
        0, 15, 255, 255, 255, 255, 255, 254, 0, 0, 0, 1] := by
    decide +kernel
  have hsuits : (readings .little 5).Suits (Encoder.readings .little 5) := ⟨rfl, rfl, rfl⟩
  exact ⟨_, _, hencode, (decode_of_encode hsuits 114 _).1 _ _ hencode, hkey,
    (decode_of_encode hsuits 114 _).2.1 _ hkey⟩

end KeyedRows.Decoder
