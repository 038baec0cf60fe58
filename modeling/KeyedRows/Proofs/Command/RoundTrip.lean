import KeyedRows.Proofs.Bytes.Hex
import KeyedRows.Proofs.Command.Printing
import KeyedRows.Proofs.Command.Storing

namespace KeyedRows.Command

/-- The schema that options name while the files are in a state. -/
def Options.schemaIn {σ : Type} (options : Options) (files : Files (StateM σ)) (state : σ) :
    Except Error Schema :=
  options.schema ((options.fetch files).run state).1

/-- What the command line prints for a row is read again. The two texts that
`encode` prints are taken by `decode` under the same options as long as these name
the same schema, and it prints for each column in schema order the ordinal, the
type's name and what the column's text stands for, each with a line break behind it;
columns that are not selected show the text for an absent value. These are as many
lines as columns exactly if nothing that is shown breaks its line, which only the
text for an absent value and lists of strings can do. Of the form of hexadecimal
text only `HexForm.ReadsBack` is needed, and of the files nothing.

A file that a schema was stored in stands for the text that it was stored from:
every run with the file ends as the run with the text does and leaves the same
behind. This needs `Files.Keeps` for the path of the file, that nothing else is read
from it later, and that the number of columns fits eight bytes. -/
theorem run_decode_of_run_encode {σ : Type} {hex : HexForm} (hhex : hex.ReadsBack)
    (files : Files (StateM σ)) (options : Options) :
    (∀ texts state,
      ((Invocation.outcome hex files ⟨options, .encode texts⟩).run state).1.status = 0 →
      ∃ (keyText valueText : String) (columns : Schema) (shown : Column → String),
        ((Invocation.outcome hex files ⟨options, .encode texts⟩).run state).1 =
          { status := 0, output := "key:   " ++ keyText ++ "\nvalue: " ++ valueText ++ "\n" } ∧
        options.schemaIn files state = .ok columns ∧
        (∀ column ∈ columns, ∃ text, texts[column.ordinal]? = some text ∧
          options.Shows column text (shown column) ∧
          ('\n' ∈ (shown column).toList ↔
            '\n' ∈ text.toList ∧ (text = options.absentText ∨ column.type = .list .string))) ∧
        ∀ later, options.schemaIn files later = .ok columns →
          ∀ selected, (∀ ordinal ∈ selected, ordinal < columns.length) →
            ((Invocation.outcome hex files ⟨options, .decode keyText valueText selected⟩).run
                later).1 =
              { status := 0, output := columns.lines (options.shownOf shown selected) } ∧
            ((columns.lines (options.shownOf shown selected)).toList.count '\n' = columns.length ↔
              ∀ column ∈ columns, '\n' ∉ (options.shownOf shown selected column).toList)) ∧
    ∀ text path, files.Keeps path → ∀ state stored after,
      (Invocation.outcome hex files ⟨{ options with source := .spec text }, .schema path⟩).run state =
        (stored, after) → stored.status = 0 →
      (∀ columns, Schema.parse text = .ok columns → columns.length < Nat.pow 256 8) →
      ∀ later, ((files.read path).run later).1 = ((files.read path).run after).1 →
        ∀ (other : Options) (action : Action),
          (Invocation.outcome hex files ⟨{ other with source := .file path }, action⟩).run later =
            (Invocation.outcome hex files ⟨{ other with source := .spec text }, action⟩).run later := by
  constructor
  · intro texts state h
    obtain ⟨report, hrun, houtcome, -⟩ := Invocation.exists_run_of_status rfl h
    obtain ⟨key, value, rfl⟩ := exists_written_of_run hrun
    obtain ⟨columns, tag, encoder, record, hwrites⟩ := writes_of_run hrun
    refine ⟨hex.encode key, hex.encode value, columns,
      fun column => (options.columnLine record column).text, houtcome, hwrites.schema_eq, ?_, ?_⟩
    · intro column hmem
      have hshows := hwrites.shows hmem
      exact ⟨_, hwrites.getElem?_texts hmem, hshows, hshows.newline_mem_iff⟩
    · intro later hschema selected hlt
      refine ⟨?_, columns.count_newline_lines_iff _⟩
      have hdecode := hwrites.run_decode hhex hschema hlt
      rw [Invocation.run_outcome_of_run rfl hdecode rfl, Report.render, List.map_map]
      simp only [Function.comp_def, ColumnLine.render_eq_line, Schema.lines]
  · intro text path hkeeps state stored after h hstatus hlength later huntouched other action
    have hload := load_eq_parse_of_stored hkeeps h hstatus hlength huntouched
    exact outcome_file_eq_spec hkeeps hload action

/-- Files in a list with their paths, the latest first. Every path leads to a file
of its own. -/
def Files.listed : Files (StateM (List (String × Bytes))) where
  read path files := ((files.lookup path).elim (.error .notFound) .ok, files)
  write path bytes files := (.ok (), (path, bytes) :: files)

private theorem Files.listed_keeps (path : String) : Files.listed.Keeps path := by
  constructor
  · intro files
    rfl
  · intro files bytes after h
    cases h
    simp [listed, StateT.run]

/-- A row with an absent name and a number whose text is not its shortest one, read
in whole and in part; and a file of a schema that another file is written beside. -/
theorem run_decode_of_run_encode_at_absent_name :
    let options : Options := { source := .spec "string,int32:key", absentText := "-" }
    let outcome (action : Action) := (Invocation.outcome .digitPairs .listed ⟨options, action⟩).run []
    let later := ("other", []) :: (outcome (.schema "rows")).2
    (∃ keyText valueText,
      (outcome (.encode ["-", "+07"])).1 =
        { status := 0, output := "key:   " ++ keyText ++ "\nvalue: " ++ valueText ++ "\n" } ∧
      (outcome (.decode keyText valueText [])).1 =
        { status := 0, output := "   0 string     -\n   1 int32      7\n" } ∧
      (outcome (.decode keyText valueText [0])).1 =
        { status := 0, output := "   0 string     -\n   1 int32      -\n" }) ∧
    (Invocation.outcome .digitPairs .listed ⟨{ source := .file "rows" }, .encode ["a", "1"]⟩).run
        later =
      (Invocation.outcome .digitPairs .listed
        ⟨{ source := .spec "string,int32:key" }, .encode ["a", "1"]⟩).run later := by
  intro options outcome later
  obtain ⟨hrow, hfile⟩ :=
    run_decode_of_run_encode HexForm.digitPairs_readsBack Files.listed options
  let name : Column := { type := .scalar .string, ordinal := 0 }
  let size : Column := { type := .scalar .int32, ordinal := 1, isKey := true }
  have hparse : Schema.parse "string,int32:key" = .ok [name, size] := by
    decide +kernel
  constructor
  · have hstatus : (outcome (.encode ["-", "+07"])).1.status = 0 := by
      decide +kernel
    obtain ⟨keyText, valueText, columns, shown, hencode, hschema, hshown, hdecode⟩ :=
      hrow ["-", "+07"] [] hstatus
    have hcolumns : [name, size] = columns := Except.ok.inj (hparse.symm.trans hschema)
    subst hcolumns
    rw [List.forall_mem_cons, List.forall_mem_singleton] at hshown
    obtain ⟨⟨nameText, hname, hshowsName, -⟩, sizeText, hsize, hshowsSize, -⟩ := hshown
    cases hname
    cases hsize
    have hname : shown name = "-" := hshowsName.of_absent rfl
    have hsize : shown size = "7" := by
      obtain ⟨value, hvalue, hrender⟩ := hshowsSize.of_present (by decide)
      have hseven : Value.parse size.type "+07" = .ok (.scalar .int32 (7 : Int32)) := by
        decide +kernel
      rw [hseven] at hvalue
      cases hvalue
      exact hrender.trans (by decide +kernel)
    have hwhole : Schema.lines [name, size] (options.shownOf shown []) =
        "   0 string     -\n   1 int32      7\n" := by
      change String.join [name.line (shown name), size.line (shown size)] = _
      rw [hname, hsize]
      decide +kernel
    have hselected : Schema.lines [name, size] (options.shownOf shown [0]) =
        "   0 string     -\n   1 int32      -\n" := by
      change String.join [name.line (shown name), size.line "-"] = _
      rw [hname]
      decide +kernel
    refine ⟨keyText, valueText, hencode, ?_, ?_⟩
    · rw [← hwhole]
      exact (hdecode [] hschema [] (by decide)).1
    · rw [← hselected]
      exact (hdecode [] hschema [0] (by decide)).1
  · refine hfile "string,int32:key" "rows" (Files.listed_keeps "rows") [] _ _ rfl ?_ ?_ later rfl
      { source := .file "rows" } (.encode ["a", "1"])
    · decide +kernel
    · intro columns hcolumns
      rw [hparse] at hcolumns
      cases hcolumns
      decide

/-- A string in a list is shown as it is, so a line break in it cuts the line of its
column in two. One column is printed on two lines, and a reader of the output cannot
tell where the value ends. -/
theorem line_break_in_list_of_strings :
    let options : Options := { source := .spec "string[]" }
    Schema.parse "string[]" = .ok [{ type := .list .string, ordinal := 0 }] ∧
    ((Invocation.outcome .digitPairs .listed ⟨options, .encode ["a\nb"]⟩).run []).1 =
      { status := 0
        output := "key:   72000000000000000000000001\nvalue: 00000000010000000100000003610a62\n" } ∧
    ((Invocation.outcome .digitPairs .listed ⟨options, .decode "72000000000000000000000001"
      "00000000010000000100000003610a62" []⟩).run []).1 =
      { status := 0, output := "   0 string[]   [a\nb]\n" } ∧
    "   0 string[]   [a\nb]\n".toList.count '\n' = 2 := by
  decide +kernel

end KeyedRows.Command
