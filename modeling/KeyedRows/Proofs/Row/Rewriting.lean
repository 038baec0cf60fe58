import KeyedRows.Proofs.Row.Accepting
import KeyedRows.Proofs.Row.Conforming
import KeyedRows.Proofs.Row.RoundTrip

namespace KeyedRows.Decoder

open Scrutiny

variable {decoder : Decoder} {encoder : Encoder} {record : Record} {key value : Bytes}

/-- The slots of the key are not touched when the value is read. -/
theorem slot?_of_mem_keyColumns {base : Record}
    (hkept : ∀ place, place ∉ decoder.plan.valueColumns.map Column.ordinal →
      record.slot? place = base.slot? place) :
    ∀ column ∈ decoder.plan.keyColumns, record.slot? column.ordinal = base.slot? column.ordinal := by
  intro column hmem
  apply hkept
  intro hvalue
  obtain ⟨hin, hkey⟩ := decoder.plan.mem_keyColumns.1 hmem
  rw [decoder.plan.mem_valueOrdinals_iff hin, hkey] at hvalue
  cases hvalue

/-- A row that is read can be written, and its bytes pass for those that are
written. Nothing is asked of the bytes but that they are read. The encoder must suit
the decoder, and the tag byte is the one that stood there. -/
theorem halves_of_decode (hsuits : decoder.Suits encoder)
    (h : decoder.decode key value = .ok record) :
    ∃ tag key' value', key.head? = some tag ∧ encoder.encodeKey tag record = .ok key' ∧
      encoder.encodeValue record = .ok value' ∧
      AllPass (record.keyScrutiny decoder.plan.columns) key' key ∧
      AllPass (record.valueScrutiny decoder.plan.columns) value' value := by
  rw [decode, decodeWith, bind_eq_ok_iff] at h
  obtain ⟨base, hkey, hvalue⟩ := h
  obtain ⟨hsize, hfills, tag, htag, hpassKey⟩ := allPass_of_readKey (Record.size_absent _) hkey
  obtain ⟨hrow, hkept, hslots, hpassValue⟩ := allPass_of_readValue hsize hvalue
  have hsame := slot?_of_mem_keyColumns hkept
  have hfilled : record.Fills decoder.plan.keyColumns := by
    intro column hmem
    rw [hsame column hmem]
    exact hfills column hmem
  have hscrutiny : record.keyScrutiny decoder.plan.columns = base.keyScrutiny decoder.plan.columns := by
    rw [Record.keyScrutiny, Record.keyScrutiny]
    congr 2
    exact Record.scrutinyBy_congr hsame
  rw [hsuits.opening_eq, ← Record.bytesBy_congr hsame, ← hscrutiny] at hpassKey
  rw [hsuits.schemaVersion] at hpassValue
  rw [hsuits.plan] at hrow hfilled hslots hpassKey hpassValue ⊢
  obtain ⟨key', hkey'⟩ := Encoder.exists_encodeKey tag hrow hfilled
  obtain ⟨value', hvalue'⟩ := Encoder.exists_encodeValue hrow hslots
  obtain ⟨-, -, hkeyBytes⟩ := Encoder.encodeKey_eq_ok hkey'
  obtain ⟨-, -, hvalueBytes⟩ := Encoder.encodeValue_eq_ok hvalue'
  exact ⟨tag, key', value', htag, hkey', hvalue', hkeyBytes ▸ hpassKey, hvalueBytes ▸ hpassValue⟩

/-- A row that is read can be written under the tag of its key. The bytes that are
written are read as the same row, and differ from those it was read from just in
bools that are neither zero nor one and in filling that is not zero. -/
theorem encode_of_decode (hsuits : decoder.Suits encoder)
    (h : decoder.decode key value = .ok record) :
    ∃ tag key' value', key.head? = some tag ∧ encoder.encode tag record = .ok (key', value') ∧
      decoder.decode key' value' = .ok record ∧
      Rewrites (record.keyScrutiny decoder.plan.columns) key key' ∧
      Rewrites (record.valueScrutiny decoder.plan.columns) value value' ∧
      (key' = key ∧ value' = value ↔ AllWritten (record.keyScrutiny decoder.plan.columns) key ∧
        AllWritten (record.valueScrutiny decoder.plan.columns) value) := by
  obtain ⟨tag, key', value', htag, hkey, hvalue, hpassKey, hpassValue⟩ := halves_of_decode hsuits h
  have hencode : encoder.encode tag record = .ok (key', value') := by
    rw [Encoder.encode, hkey, hvalue]
    rfl
  exact ⟨tag, key', value', htag, hencode, decode_of_halves hsuits hkey hvalue, hpassKey.rewrites,
    hpassValue.rewrites, and_congr hpassKey.rewrites.eq_iff hpassValue.rewrites.eq_iff⟩

/-- A key whose last group is filled up with a zero, a nine and two more zeros.
Written again the nine becomes a zero, and what was a zero stays one. -/
theorem encode_of_decode_odd_filling :
    ∃ record tag key' value',
      (readings .little 5).decode
          [114, 0, 0, 0, 0, 0, 0, 0, 5, 1, 69, 108, 98, 101, 0, 9, 0, 0, 251,
            128, 0, 0, 0, 0, 0, 0, 1, 0, 0, 0, 1] [1, 0, 0, 0, 0] = .ok record ∧
        (Encoder.readings .little 5).encode tag record = .ok (key', value') ∧
        value'.length = 5 ∧ key'[14]? = some 0 ∧ key'[15]? ≠ some 9 := by
  have hdecode : (readings .little 5).decode
      [114, 0, 0, 0, 0, 0, 0, 0, 5, 1, 69, 108, 98, 101, 0, 9, 0, 0, 251,
        128, 0, 0, 0, 0, 0, 0, 1, 0, 0, 0, 1] [1, 0, 0, 0, 0] =
      .ok ⟨[none, some (.scalar .float64 ⟨1⟩), some (.scalar .string "Elbe")]⟩ := by
    decide +kernel
  have hsuits : (readings .little 5).Suits (Encoder.readings .little 5) := ⟨rfl, rfl, rfl⟩
  obtain ⟨tag, key', value', -, hencode, -, hkey, hvalue, -⟩ := encode_of_decode hsuits hdecode
  have hzero := (hkey.keeps_iff 14 .filler 0 (by decide +kernel) rfl).2 rfl
  have hnine : ¬key'[15]? = some 9 := by
    rw [hkey.keeps_iff 15 .filler 9 (by decide +kernel) rfl]
    exact (by decide : ¬(9 : UInt8) = 0)
  exact ⟨_, tag, key', value', hdecode, hencode, hvalue.length_written, hzero, hnine⟩

end KeyedRows.Decoder
