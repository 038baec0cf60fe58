import KeyedRows.Proofs.Command.Spelling
import KeyedRows.Proofs.Row.Layout
import KeyedRows.Proofs.Row.Refusing
import KeyedRows.Proofs.Row.TextPrefix

namespace KeyedRows.Command

/-- The texts of the first key columns in a row of texts. -/
def leadingTexts (columns : Schema) (texts : List String) (count : Nat) : List String :=
  (columns.keyColumns.take count).map fun column => column.textIn texts

private theorem mem_zip_map_take_iff {α β : Type} {f : α → β} {items : List α} {count : Nat} {pair : α × β} :
    pair ∈ items.zip ((items.take count).map f) ↔
      ∃ item ∈ items.take count, (item, f item) = pair := by
  induction items generalizing count with
  | nil => simp
  | cons item items ih =>
    cases count with
    | zero => simp
    | succ count =>
      rw [List.take_succ_cons, List.map_cons, List.zip_cons_cons, List.mem_cons, ih,
        List.exists_mem_cons_iff, @eq_comm _ pair]

section

variable {hex : HexForm} {options : Options} {load : Load} {texts given : List String} {columns : Schema}
  {tag : UInt8} {encoder : Encoder} {record : Record} {key value start : Bytes} {count : Nat}

/-- A scan whose start is read from texts under an ASCII tag byte has an end. Any
tag byte but the full one would do, and those that the command line takes are
characters. -/
theorem exists_stop (htag : tag ≠ 0xFF) (h : encoder.leadingKeyOfTexts tag given = .ok start) :
    ∃ stop, Bytes.successor? start = some stop := by
  obtain ⟨written, rfl, -⟩ := Encoder.leadingKeyOfTexts_eq_ok h
  rw [← Option.ne_none_iff_exists', Ne, Bytes.successor?_eq_none_iff]
  intro hfull
  exact htag (hfull tag List.mem_cons_self)

/-- The bounds that are given for texts are what is read from the texts, and its
successor. At least one text must be given; without any the scan is over the whole
table. -/
theorem Writes.run_bounds_eq_ok_iff {stop : Bytes}
    (h : Writes options load texts columns tag encoder record key value) (hgiven : given ≠ []) :
    Invocation.run hex ⟨options, .bounds given⟩ load = .ok (.bounds start stop) ↔
      encoder.leadingKeyOfTexts tag given = .ok start ∧ Bytes.successor? start = some stop := by
  have hsome : given.isEmpty = false := by
    rwa [List.isEmpty_eq_false_iff]
  rw [h.run_eq, Action.run, h.encoder_eq, hsome]
  cases hstart : encoder.leadingKeyOfTexts tag given with
  | error e => simp [hstart, bind, Except.bind]
  | ok found =>
    obtain ⟨last, hlast⟩ := exists_stop (Options.tagByte_ne_full h.tagByte_eq) hstart
    simp only [bind, Except.bind, Bool.false_eq_true, if_false, hstart, hlast, pure, Except.pure,
      Except.ok.injEq, Report.bounds.injEq]
    constructor
    · rintro ⟨rfl, rfl⟩
      exact ⟨rfl, hlast⟩
    · rintro ⟨rfl, hstop⟩
      exact ⟨rfl, Option.some.inj (hlast.symm.trans hstop)⟩

/-- Bounds that are read from texts hold a key exactly if the key starts with what
is read. That there is an end at all is part of the statement, on the left. -/
theorem Writes.exists_bounds_iff (h : Writes options load texts columns tag encoder record key value)
    (hgiven : given ≠ []) :
    (∃ start stop, Invocation.run hex ⟨options, .bounds given⟩ load = .ok (.bounds start stop) ∧
        start ≤ key ∧ key < stop) ↔
      ∃ start, encoder.leadingKeyOfTexts tag given = .ok start ∧ start <+: key := by
  constructor
  · intro ⟨start, stop, hbounds, hlow, hhigh⟩
    obtain ⟨hstart, hstop⟩ := (h.run_bounds_eq_ok_iff hgiven).1 hbounds
    refine ⟨start, hstart, Bytes.inScan_iff_prefix.1 ⟨hlow, ?_⟩⟩
    intro other hother
    rw [hstop] at hother
    cases hother
    exact hhigh
  · intro ⟨start, hstart, hstarts⟩
    obtain ⟨stop, hstop⟩ := exists_stop (Options.tagByte_ne_full h.tagByte_eq) hstart
    obtain ⟨hlow, hhigh⟩ := Bytes.inScan_iff_prefix.2 hstarts
    exact ⟨start, stop, (h.run_bounds_eq_ok_iff hgiven).2 ⟨hstart, hstop⟩, hlow, hhigh stop hstop⟩

/-- The texts of first key columns are the beginning of a row's key exactly if all
of them stand for values. Only the texts that are given count. A text for an absent
value that is a value of its column, too, makes a start that the key does not have. -/
theorem Writes.exists_start_iff (h : Writes options load texts columns tag encoder record key value)
    (hcount : count ≤ columns.keyColumns.length) :
    (∃ start, encoder.leadingKeyOfTexts tag (leadingTexts columns texts count) = .ok start ∧
        start <+: key) ↔
      ∀ column ∈ columns.keyColumns.take count, column.textIn texts ≠ options.absentText := by
  have hkeys : encoder.plan.keyColumns = columns.keyColumns := by
    rw [Plan.keyColumns, h.columns_eq]
  have hleading : ∀ column ∈ columns.keyColumns.take count, column ∈ columns := by
    intro column hmem
    exact List.filter_subset_self _ (List.mem_of_mem_take hmem)
  have hlength : (leadingTexts columns texts count).length = count := by
    rw [leadingTexts, List.length_map, List.length_take_of_le hcount]
  constructor
  · intro ⟨start, hstart, hstarts⟩ column hmem habsent
    obtain ⟨slot, hread, hslot⟩ := h.spelled column (hleading column hmem)
    have hgiven := (Encoder.leadingKeyOfTexts_prefix_iff hstart h.key_eq).1 hstarts
      (column, column.textIn texts) (hkeys ▸ mem_zip_map_take_iff.2 ⟨column, hmem, rfl⟩)
    obtain ⟨found, -, hfound⟩ := hgiven
    obtain ⟨-, hnone⟩ | ⟨hpresent, -⟩ := Options.readSlot_eq_ok_iff.1 hread
    · rw [hslot, hnone] at hfound
      cases hfound
    · exact hpresent habsent
  · intro hpresent
    have hholds : ∀ given ∈ encoder.plan.keyColumns.zip (leadingTexts columns texts count),
        ∃ value, Value.parse given.1.type given.2 = .ok value ∧
          record.slot? given.1.ordinal = some (some value) := by
      intro given hgiven
      rw [hkeys] at hgiven
      obtain ⟨column, hmem, rfl⟩ := mem_zip_map_take_iff.1 hgiven
      obtain ⟨slot, hread, hslot⟩ := h.spelled column (hleading column hmem)
      obtain ⟨habsent, -⟩ | ⟨-, found, hparse, rfl⟩ := Options.readSlot_eq_ok_iff.1 hread
      · exact absurd habsent (hpresent column hmem)
      · exact ⟨found, hparse, hslot⟩
    have hcounted : (leadingTexts columns texts count).length ≤ encoder.plan.keyColumns.length := by
      rwa [hlength, hkeys]
    obtain ⟨-, hfills, -⟩ := Encoder.encodeKey_eq_ok h.key_eq
    obtain ⟨start, hstart⟩ := (Encoder.exists_leadingKey_iff tag count).2 fun column hmem =>
      hfills column (List.mem_of_mem_take hmem)
    refine ⟨start, ?_, Encoder.leadingKey_prefix hstart h.key_eq⟩
    rw [Encoder.leadingKeyOfTexts_eq_leadingKey hcounted hholds, hlength, hstart]

end

/-- A command line that writes a row gives bounds for it too: from the texts of any
first key columns of the row it reads a scan, and the scan meets the key of the row
exactly if none of these texts stands for an absent value. -/
theorem bounds_cover_iff_present {hex : HexForm} {options : Options} {load : Load}
    {texts : List String} {key value : Bytes}
    (h : Invocation.run hex ⟨options, .encode texts⟩ load = .ok (.written key value)) :
    ∃ columns, options.schema load = .ok columns ∧
      (∀ column ∈ columns, texts[column.ordinal]? = some (column.textIn texts)) ∧
      ∀ count, 1 ≤ count → count ≤ columns.keyColumns.length →
        ((∃ start stop, Invocation.run hex ⟨options, .bounds (leadingTexts columns texts count)⟩ load =
            .ok (.bounds start stop) ∧ start ≤ key ∧ key < stop) ↔
          ∀ column ∈ columns.keyColumns.take count,
            column.textIn texts ≠ options.absentText) := by
  obtain ⟨columns, tag, encoder, record, hwrites⟩ := writes_of_run h
  refine ⟨columns, hwrites.schema_eq, fun column hmem => hwrites.getElem?_texts hmem, ?_⟩
  intro count hone hcount
  have hgiven : leadingTexts columns texts count ≠ [] := by
    apply List.ne_nil_of_length_pos
    rwa [leadingTexts, List.length_map, List.length_take_of_le hcount]
  rw [hwrites.exists_bounds_iff hgiven, hwrites.exists_start_iff hcount]

/-- A row whose second key text stands for an absent value: its key lies in the scan
for the first key text, and in none that is given for both. -/
theorem bounds_cover_up_to_absent :
    let options : Options := { source := .spec "string,int32:key,string:key", commonId := -1 }
    let load : Load := fun _ => .error .notFound
    ∃ key value,
      Invocation.run .digitPairs ⟨options, .encode ["Elbe", "-7", "\\N"]⟩ load = .ok (.written key value) ∧
      (∃ start stop, Invocation.run .digitPairs ⟨options, .bounds ["-7"]⟩ load = .ok (.bounds start stop) ∧
        start ≤ key ∧ key < stop) ∧
      ¬∃ start stop, Invocation.run .digitPairs ⟨options, .bounds ["-7", "\\N"]⟩ load = .ok (.bounds start stop) ∧
        start ≤ key ∧ key < stop := by
  intro options load
  have hencode : Invocation.run .digitPairs ⟨options, .encode ["Elbe", "-7", "\\N"]⟩ load =
      .ok (.written [114, 255, 255, 255, 255, 255, 255, 255, 255, 1, 127, 255, 255, 249, 0, 0, 0, 0, 1]
        [0, 0, 0, 0, 1, 0, 0, 0, 4, 69, 108, 98, 101]) := by
    decide +kernel
  have hschema : options.schema load = .ok
      [{ type := .scalar .string, ordinal := 0 },
        { type := .scalar .int32, ordinal := 1, isKey := true },
        { type := .scalar .string, ordinal := 2, isKey := true }] := by
    decide +kernel
  obtain ⟨columns, hcolumns, -, hcover⟩ := bounds_cover_iff_present hencode
  rw [hschema] at hcolumns
  cases hcolumns
  refine ⟨_, _, hencode, (hcover 1 (by decide) (by decide)).2 (by decide +kernel), ?_⟩
  intro hcovered
  exact absurd ((hcover 2 (by decide) (by decide)).1 hcovered) (by decide +kernel)

/-- The text for an absent value is read as a value of its own where bounds are
given, so the scan that should start at a row starts behind it. In a string column
nothing fails: a row is written, bounds are given for its own text, and its key lies
outside. -/
theorem bounds_behind_absent :
    let options : Options := { source := .spec "string:key" }
    let load : Load := fun _ => .error .notFound
    ∃ key value start stop,
      Invocation.run .digitPairs ⟨options, .encode ["\\N"]⟩ load = .ok (.written key value) ∧
      Invocation.run .digitPairs ⟨options, .bounds ["\\N"]⟩ load = .ok (.bounds start stop) ∧ key < start := by
  intro options load
  have hencode : Invocation.run .digitPairs ⟨options, .encode ["\\N"]⟩ load =
      .ok (.written [114, 0, 0, 0, 0, 0, 0, 0, 0, 0, 0, 0, 0, 1] [0, 0, 0, 0]) := by
    decide +kernel
  have hbounds : Invocation.run .digitPairs ⟨options, .bounds ["\\N"]⟩ load =
      .ok (.bounds [114, 0, 0, 0, 0, 0, 0, 0, 0, 1, 92, 78, 0, 0, 0, 0, 0, 0, 249]
        [114, 0, 0, 0, 0, 0, 0, 0, 0, 1, 92, 78, 0, 0, 0, 0, 0, 0, 250]) := by
    decide +kernel
  exact ⟨_, _, _, _, hencode, hbounds, by decide⟩

end KeyedRows.Command
