import KeyedRows.Proofs.Row.Conforming
import KeyedRows.Proofs.Row.PrefixScan

namespace KeyedRows

/-- What is read as a value of a type is one. -/
theorem Value.type_of_parse {type : ColumnType} {text : String} {value : Value}
    (h : Value.parse type text = .ok value) : value.type = type := by
  cases type with
  | scalar kind =>
    obtain ⟨item, -, rfl⟩ := map_eq_ok_iff.1 h
    rfl
  | list kind =>
    obtain ⟨items, -, rfl⟩ := map_eq_ok_iff.1 h
    rfl

/-- A text that is no value of a scalar type is found fault with as a whole. For a
list it would be the text of one item that is named, so the type must be a scalar
one. -/
theorem Value.badText_of_parse {type : ColumnType} {text : String} {e : Error}
    (hscalar : type.isList = false) (h : Value.parse type text = .error e) :
    ∃ fault, e = .badText (.column type) text fault := by
  cases type with
  | scalar kind =>
    rw [parse, Scalar.parseFor, String.ofList_toList] at h
    cases hitem : kind.parseItem text.toList with
    | error fault =>
      rw [hitem] at h
      cases h
      exact ⟨fault, rfl⟩
    | ok item =>
      rw [hitem] at h
      cases h
  | list kind => cases hscalar

namespace Encoder

variable {encoder : Encoder} {tag : UInt8} {record : Record} {texts : List String}

/-- Values read from texts are written as the slots of a row that holds them. There
may be fewer texts than columns, and then only the first columns are written. -/
theorem writeTexts_eq_writeSlots {columns : Schema}
    (hholds : ∀ given ∈ columns.zip texts, ∃ value, Value.parse given.1.type given.2 = .ok value ∧
      record.slot? given.1.ordinal = some (some value)) (region : Region) :
    writeTexts columns texts region =
      writeSlots Column.writeKey record (columns.take texts.length) region := by
  induction columns generalizing texts region with
  | nil => simp [writeTexts, writeSlots]
  | cons column columns ih =>
    cases texts with
    | nil => rfl
    | cons text texts =>
      rw [List.zip_cons_cons, List.forall_mem_cons] at hholds
      obtain ⟨⟨value, hparse, hslot⟩, hrest⟩ := hholds
      rw [List.length_cons, List.take_succ_cons, writeTexts, writeSlots]
      simp only [hparse, hslot, ih hrest]
      rfl

/-- What keys start with is the same whether the first values are read from texts or
stand in a row. There must be no more texts than key columns. The row may have any
length and any other slots. -/
theorem leadingKeyOfTexts_eq_leadingKey (hcount : texts.length ≤ encoder.plan.keyColumns.length)
    (hholds : ∀ given ∈ encoder.plan.keyColumns.zip texts, ∃ value,
      Value.parse given.1.type given.2 = .ok value ∧
        record.slot? given.1.ordinal = some (some value)) :
    encoder.leadingKeyOfTexts tag texts = encoder.leadingKey tag record texts.length := by
  rw [leadingKeyOfTexts, if_neg (Nat.not_lt.2 hcount), leadingKey]
  simp only [writeTexts_eq_writeSlots hholds]

/-- What is read from texts is the opening and the bytes of the values that the
texts stand for. What is written is described by the rows whose keys start so, since
texts spell one value in many ways. -/
theorem leadingKeyOfTexts_eq_ok {start : Bytes}
    (h : encoder.leadingKeyOfTexts tag texts = .ok start) :
    ∃ written, start = encoder.opening tag ++ written ∧ ∀ (row : Record) (behind : Bytes),
      row.Fills encoder.plan.keyColumns →
        (written <+: row.bytesBy Column.keyBytes encoder.plan.keyColumns ++ behind ↔
          ∀ given ∈ encoder.plan.keyColumns.zip texts, ∃ value,
            Value.parse given.1.type given.2 = .ok value ∧
              row.slot? given.1.ordinal = some (some value)) := by
  rw [leadingKeyOfTexts] at h
  split at h
  · cases h
  · obtain ⟨region, htexts, rfl⟩ := map_eq_ok_iff.1 h
    obtain ⟨written, hextends, hstarts⟩ := writeTexts_eq_ok
      (fun column hmem => encoder.plan.isList_of_mem_keyColumns hmem) htexts
    have hopened := encoder.extends_writeOpening_reserve tag Frame.openingSize
    exact ⟨written, (hextends.trans hopened).toBytes_of_empty, hstarts⟩

/-- A key starts with what is read from texts exactly if its row holds the values
that the texts stand for. The key must be of the same encoder and tag. -/
theorem leadingKeyOfTexts_prefix_iff {start key : Bytes}
    (h : encoder.leadingKeyOfTexts tag texts = .ok start)
    (hkey : encoder.encodeKey tag record = .ok key) :
    start <+: key ↔ ∀ given ∈ encoder.plan.keyColumns.zip texts, ∃ value,
      Value.parse given.1.type given.2 = .ok value ∧
        record.slot? given.1.ordinal = some (some value) := by
  obtain ⟨written, rfl, hstarts⟩ := leadingKeyOfTexts_eq_ok h
  obtain ⟨-, hfills, hbytes⟩ := encodeKey_eq_ok hkey
  rw [hbytes, List.append_assoc, opening_append_prefix_iff, hstarts record Frame.trailer hfills]
  simp

/-- A text that stands for a value is written, and the texts behind it after it. -/
theorem exists_writeTexts_cons {column : Column} {columns : Schema} {text : String} {value : Value}
    (hscalar : column.type.isList = false) (hparse : Value.parse column.type text = .ok value)
    (region : Region) :
    ∃ middle, writeTexts (column :: columns) (text :: texts) region =
      writeTexts columns texts middle := by
  have hadmits : column.Admits (some value) := Value.type_of_parse hparse
  obtain ⟨middle, hwrite⟩ := Column.exists_writeKey hscalar hadmits region
  refine ⟨middle, ?_⟩
  rw [writeTexts, hparse]
  change column.writeKey (some value) region >>= writeTexts columns texts = _
  rw [hwrite]
  rfl

private theorem exists_writeTexts {columns : Schema}
    (hscalar : ∀ column ∈ columns, column.type.isList = false)
    (hparse : ∀ given ∈ columns.zip texts, ∃ value, Value.parse given.1.type given.2 = .ok value)
    (region : Region) : ∃ after, writeTexts columns texts region = .ok after := by
  induction columns generalizing texts region with
  | nil => exact ⟨region, by rw [writeTexts]; simp⟩
  | cons column columns ih =>
    cases texts with
    | nil => exact ⟨region, rfl⟩
    | cons text texts =>
      rw [List.zip_cons_cons, List.forall_mem_cons] at hparse
      rw [List.forall_mem_cons] at hscalar
      obtain ⟨⟨value, hvalue⟩, hrest⟩ := hparse
      obtain ⟨middle, hfirst⟩ := exists_writeTexts_cons hscalar.1 hvalue region
      rw [hfirst]
      exact ih hscalar.2 hrest middle

/-- The texts in front of the first one that stands for no value are written, and
its fault is the answer. Texts behind it are not looked at. -/
theorem writeTexts_of_bad_text {columns : Schema} {place : Nat} {column : Column} {text : String}
    {e : Error} (hscalar : ∀ column ∈ columns, column.type.isList = false)
    (hplace : (columns.zip texts)[place]? = some (column, text))
    (hearly : ∀ given ∈ (columns.zip texts).take place, ∃ value,
      Value.parse given.1.type given.2 = .ok value)
    (hbad : Value.parse column.type text = .error e) (region : Region) :
    writeTexts columns texts region = .error e := by
  induction columns generalizing texts place region with
  | nil => simp at hplace
  | cons first columns ih =>
    cases texts with
    | nil => simp at hplace
    | cons given texts =>
      rw [List.zip_cons_cons] at hplace hearly
      rw [List.forall_mem_cons] at hscalar
      cases place with
      | zero =>
        cases hplace
        rw [writeTexts, hbad]
        rfl
      | succ place =>
        rw [List.take_succ_cons, List.forall_mem_cons] at hearly
        rw [List.getElem?_cons_succ] at hplace
        obtain ⟨⟨value, hvalue⟩, hrest⟩ := hearly
        obtain ⟨middle, hfirst⟩ := exists_writeTexts_cons hscalar.1 hvalue region
        rw [hfirst]
        exact ih hscalar.2 hplace hrest middle

/-- What keys start with is read from texts if there are no more texts than key
columns and each text stands for a value of its column. Then it is the same as from
any row that holds these values, whatever the row's length and its other slots. More
texts are refused before any of them is read, and otherwise the first text that
stands for no value is found fault with. -/
theorem leadingKeyOfTexts_decided_by_parsing (encoder : Encoder) (tag : UInt8) (texts : List String) :
    (encoder.plan.keyColumns.length < texts.length →
      encoder.leadingKeyOfTexts tag texts =
          .error (.tooManyKeyTexts texts.length encoder.plan.keyColumns.length) ∧
        (Error.tooManyKeyTexts texts.length encoder.plan.keyColumns.length).kind = .schemaMismatch) ∧
    (texts.length ≤ encoder.plan.keyColumns.length →
      (∀ place column text e, (encoder.plan.keyColumns.zip texts)[place]? = some (column, text) →
        (∀ given ∈ (encoder.plan.keyColumns.zip texts).take place,
          ∃ value, Value.parse given.1.type given.2 = .ok value) →
        Value.parse column.type text = .error e →
        encoder.leadingKeyOfTexts tag texts = .error e ∧ e.kind = .invalidText ∧
          ∃ fault, e = .badText (.column column.type) text fault) ∧
      ((∀ given ∈ encoder.plan.keyColumns.zip texts,
          ∃ value, Value.parse given.1.type given.2 = .ok value) →
        ∃ start, encoder.leadingKeyOfTexts tag texts = .ok start ∧
          ∀ record : Record,
            (∀ given ∈ encoder.plan.keyColumns.zip texts, ∃ value,
              Value.parse given.1.type given.2 = .ok value ∧
                record.slot? given.1.ordinal = some (some value)) →
            encoder.leadingKey tag record texts.length = .ok start)) := by
  have hscalar : ∀ column ∈ encoder.plan.keyColumns, column.type.isList = false :=
    fun column hmem => encoder.plan.isList_of_mem_keyColumns hmem
  constructor
  · intro hmany
    exact ⟨if_pos hmany, rfl⟩
  · intro hcount
    have hopened : encoder.leadingKeyOfTexts tag texts =
        (writeTexts encoder.plan.keyColumns texts (writeOpening tag encoder.commonId
          (encoder.keyRegion.reserve Frame.openingSize))).map Region.toBytes :=
      if_neg (Nat.not_lt.2 hcount)
    constructor
    · intro place column text e hplace hearly hbad
      have hcolumn : column ∈ encoder.plan.keyColumns :=
        (List.of_mem_zip (List.mem_of_getElem? hplace)).1
      obtain ⟨fault, rfl⟩ := Value.badText_of_parse (hscalar column hcolumn) hbad
      refine ⟨?_, rfl, fault, rfl⟩
      rw [hopened, writeTexts_of_bad_text hscalar hplace hearly hbad]
      rfl
    · intro hparse
      obtain ⟨region, hwritten⟩ := exists_writeTexts hscalar hparse (writeOpening tag encoder.commonId
        (encoder.keyRegion.reserve Frame.openingSize))
      refine ⟨region.toBytes, by rw [hopened, hwritten]; rfl, ?_⟩
      intro record hholds
      rw [← leadingKeyOfTexts_eq_leadingKey hcount hholds, hopened, hwritten]
      rfl

/-- Three texts for two key columns, of which none is read; two of which the second
is no number; and two that are read as a place and the negative zero, blanks aside. -/
theorem leadingKeyOfTexts_decided_at_second_text :
    let row : Record := ⟨[none, some (.scalar .float64 ⟨0x8000000000000000⟩),
      some (.scalar .string "Elbe"), none]⟩
    (readings .little 5).leadingKeyOfTexts 114 ["Elbe", "low", ""] =
        .error (.tooManyKeyTexts 3 2) ∧
      (readings .little 5).leadingKeyOfTexts 114 ["Elbe", "low"] =
        .error (.badText (.column (.scalar .float64)) "low" (.float .invalid)) ∧
      ∃ start, (readings .little 5).leadingKeyOfTexts 114 ["Elbe", " -0 "] = .ok start ∧
        (readings .little 5).leadingKey 114 row 2 = .ok start := by
  intro row
  have hname : Value.parse (.scalar .string) "Elbe" = .ok (.scalar .string "Elbe") := by decide +kernel
  have hlow : Value.parse (.scalar .float64) "low" =
      .error (.badText (.column (.scalar .float64)) "low" (.float .invalid)) := by decide +kernel
  have hzero : Value.parse (.scalar .float64) " -0 " =
      .ok (.scalar .float64 ⟨0x8000000000000000⟩) := by decide +kernel
  obtain ⟨hmany, -⟩ := leadingKeyOfTexts_decided_by_parsing (readings .little 5) 114 ["Elbe", "low", ""]
  obtain ⟨-, hbad⟩ := leadingKeyOfTexts_decided_by_parsing (readings .little 5) 114 ["Elbe", "low"]
  obtain ⟨-, hgood⟩ := leadingKeyOfTexts_decided_by_parsing (readings .little 5) 114 ["Elbe", " -0 "]
  have hearly : ∀ given ∈ ((readings .little 5).plan.keyColumns.zip ["Elbe", "low"]).take 1,
      ∃ value, Value.parse given.1.type given.2 = .ok value := by
    intro given hmem
    obtain rfl : given = ((readings .little 5).plan.keyColumns[0], "Elbe") := List.mem_singleton.1 hmem
    exact ⟨_, hname⟩
  have hholds : ∀ given ∈ (readings .little 5).plan.keyColumns.zip ["Elbe", " -0 "], ∃ value,
      Value.parse given.1.type given.2 = .ok value ∧
        row.slot? given.1.ordinal = some (some value) :=
    List.forall_mem_cons.2 ⟨⟨_, hname, rfl⟩, List.forall_mem_cons.2 ⟨⟨_, hzero, rfl⟩, by simp⟩⟩
  obtain ⟨start, hstart, hsame⟩ := (hgood (by decide)).2 fun given hmem =>
    (hholds given hmem).imp fun _ => And.left
  exact ⟨(hmany (by decide)).1, ((hbad (by decide)).1 1 _ _ _ rfl hearly hlow).1, start, hstart,
    hsame row hholds⟩

end Encoder

end KeyedRows
