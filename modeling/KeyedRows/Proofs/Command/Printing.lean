import Mathlib.Algebra.BigOperators.Group.List.Basic
import KeyedRows.Proofs.Command.Outcome
import KeyedRows.Proofs.Command.Spelling
import KeyedRows.Proofs.Row.RoundTrip
import KeyedRows.Proofs.Row.Selection
import KeyedRows.Proofs.Value.LineBreak

namespace KeyedRows

/-- The line of a column: its ordinal at the end of four places, the name of its
type at the beginning of ten, and what is shown of it. Longer ordinals and names
take the places that they need. -/
def Column.line (column : Column) (shown : String) : String :=
  String.ofList (List.leftpad 4 ' ' (Nat.toDigits 10 column.ordinal) ++ ' ' ::
    List.rightpad 10 ' ' column.type.name.toList ++ ' ' :: shown.toList ++ ['\n'])

/-- The lines of columns in their order. -/
def Schema.lines (columns : Schema) (shown : Column → String) : String :=
  String.join (columns.map fun column => column.line (shown column))

private theorem ColumnType.newline_not_mem_name (type : ColumnType) : '\n' ∉ type.name.toList := by
  rcases type with kind | kind <;> cases kind <;> decide

/-- A line has one line break at its end, and those of what it shows. The ordinal
and the type's name have none. -/
theorem Column.count_newline_line (column : Column) (shown : String) :
    (column.line shown).toList.count '\n' = shown.toList.count '\n' + 1 := by
  have hordinal : (Nat.toDigits 10 column.ordinal).count '\n' = 0 :=
    List.count_eq_zero.2 (newline_not_mem_toDigits (by decide) column.ordinal)
  have hname : column.type.name.toList.count '\n' = 0 :=
    List.count_eq_zero.2 column.type.newline_not_mem_name
  simp [line, List.leftpad, List.rightpad, List.count_replicate, hordinal, hname]

/-- There are as many lines as columns exactly if nothing that is shown has a line
break in it. Texts may have any other characters in them; those that end lines
elsewhere do not count here. -/
theorem Schema.count_newline_lines_iff (columns : Schema) (shown : Column → String) :
    (columns.lines shown).toList.count '\n' = columns.length ↔
      ∀ column ∈ columns, '\n' ∉ (shown column).toList := by
  have hcount : (columns.lines shown).toList.count '\n' =
      (columns.map fun column => (shown column).toList.count '\n').sum + columns.length := by
    rw [lines, String.toList_join, List.flatMap_map, List.count_flatMap]
    simp [Function.comp_def, Column.count_newline_line, List.sum_map_add]
  rw [hcount]
  simp [List.sum_eq_zero_iff_forall_eq_nat, List.count_eq_zero]

namespace Command

variable {hex : HexForm} {options : Options}

private theorem Options.readHex_encode (hhex : hex.ReadsBack) (bytes : Bytes) :
    Options.readHex hex (hex.encode bytes) = .ok bytes := by
  rw [readHex, hhex]
  rfl

/-- What is printed of a column is its line. -/
theorem ColumnLine.render_eq_line (column : Column) (shown : String) :
    ColumnLine.render { ordinal := column.ordinal, type := column.type, text := shown } =
      column.line shown := by
  rw [← String.toList_inj]
  simp [render, Column.line, Text.padLeft, Text.padRight, List.leftpad, List.rightpad,
    ← String.length_toList]

/-- What is shown of a column if only some are selected. Without a selection all
columns are shown. -/
def Options.shownOf (options : Options) (shown : Column → String) (selected : List Nat)
    (column : Column) : String :=
  if selected = [] ∨ column.ordinal ∈ selected then shown column else options.absentText

/-- Whether what is shown of a column is what its text stands for: the text for an
absent value stands for itself, and any other text for the value that is read from
it. -/
structure Options.Shows (options : Options) (column : Column) (text shown : String) : Prop where
  of_absent : text = options.absentText → shown = options.absentText
  of_present : text ≠ options.absentText →
    ∃ value, Value.parse column.type text = .ok value ∧ shown = value.render

/-- What is shown breaks its line only where the text does, and then only if the
text stands for an absent value or for a list of strings. A string by itself is
quoted, with its line breaks as escapes, and no other value has any. -/
theorem Options.Shows.newline_mem_iff {column : Column} {text shown : String}
    (h : options.Shows column text shown) :
    '\n' ∈ shown.toList ↔
      '\n' ∈ text.toList ∧ (text = options.absentText ∨ column.type = .list .string) := by
  by_cases habsent : text = options.absentText
  · rw [h.of_absent habsent, ← habsent]
    simp
  · obtain ⟨value, hparse, rfl⟩ := h.of_present habsent
    rw [Value.newline_mem_render_iff hparse]
    simp [habsent, and_comm]

section

variable {load laterLoad : Load} {texts : List String} {columns : Schema} {tag : UInt8}
  {encoder : Encoder} {record : Record} {key value : Bytes}

/-- In a row that was written every column shows what its text stands for. -/
theorem Writes.shows (h : Writes options load texts columns tag encoder record key value)
    {column : Column} (hmem : column ∈ columns) :
    options.Shows column (column.textIn texts) (options.columnLine record column).text := by
  obtain ⟨slot, hread, hslot⟩ := h.spelled column hmem
  have htext : (options.columnLine record column).text =
      (slot.map Value.render).getD options.absentText := by
    rw [Options.columnLine, Record.value?, hslot]
    rfl
  obtain ⟨habsent, rfl⟩ | ⟨hpresent, found, hparse, rfl⟩ := Options.readSlot_eq_ok_iff.1 hread
  · exact ⟨fun _ => htext, fun hpresent => absurd habsent hpresent⟩
  · exact ⟨fun habsent => absurd habsent hpresent, fun _ => ⟨found, hparse, htext⟩⟩

/-- There is a decoder for every schema that there is an encoder for. Both are made
from the same plan, so they suit each other. -/
theorem Options.exists_decoder (h : options.encoder columns = .ok encoder) :
    ∃ decoder, options.decoder columns = .ok decoder ∧ decoder.Suits encoder := by
  let settings : Settings := { order := options.order }
  have hencoder : Encoder.of? options.schemaVersion columns options.commonId settings =
      .ok encoder := h
  rw [Options.encoder, Encoder.of?, bind_eq_ok_iff] at h
  obtain ⟨plan, hplan, -⟩ := h
  have hdecoder : Decoder.of? options.schemaVersion columns options.commonId settings.order =
      .ok { plan, schemaVersion := options.schemaVersion, commonId := options.commonId } := by
    rw [Decoder.of?, hplan]
    rfl
  exact ⟨_, hdecoder, Decoder.suits_of_of? hdecoder hencoder⟩

/-- A row that is given in hexadecimal form is read as its bytes are read, in whole
if nothing is selected. Of the form of hexadecimal text it is only needed that it
reads back what it writes. -/
theorem Action.run_decode_encode (hhex : hex.ReadsBack) {decoder : Decoder}
    (h : options.decoder columns = .ok decoder) (selected : List Nat) :
    (Action.decode (hex.encode key) (hex.encode value) selected).run hex options columns tag =
      (if selected = [] then decoder.decode key value
        else decoder.decodeSelection key value selected).map
        fun record => .read (columns.map (options.columnLine record)) := by
  rw [run, Options.readHex_encode hhex, Options.readHex_encode hhex, h]
  cases selected with
  | nil =>
    rw [if_pos rfl]
    change (decoder.decode key value >>= fun record => .ok (Report.read (columns.map _))) = _
    cases decoder.decode key value <;> rfl
  | cons ordinal others =>
    rw [if_neg (List.cons_ne_nil ordinal others)]
    change (decoder.decodeSelection key value (ordinal :: others) >>=
      fun record => .ok (Report.read (columns.map _))) = _
    cases decoder.decodeSelection key value (ordinal :: others) <;> rfl

private theorem Options.columnLine_only {ordinals : List Nat} {column : Column} :
    options.columnLine (record.only ordinals) column =
      { ordinal := column.ordinal
        type := column.type
        text := if column.ordinal ∈ ordinals then (options.columnLine record column).text
          else options.absentText } := by
  rw [columnLine, columnLine, Record.value?, Record.value?, Record.slot?_only]
  split
  · simp
  · cases record.slot? column.ordinal <;> rfl

/-- Of what is written, all columns are read if none are selected, and otherwise
those that are not selected are read as absent. The schema may be loaded anew in
between, as long as it is the same one, and the ordinals that are selected must be
those of columns. -/
theorem Writes.run_decode (h : Writes options load texts columns tag encoder record key value)
    (hhex : hex.ReadsBack) (hschema : options.schema laterLoad = .ok columns) {selected : List Nat}
    (hlt : ∀ ordinal ∈ selected, ordinal < columns.length) :
    Invocation.run hex ⟨options, .decode (hex.encode key) (hex.encode value) selected⟩ laterLoad =
      .ok (.read (columns.map fun column =>
        { ordinal := column.ordinal
          type := column.type
          text := options.shownOf (fun column => (options.columnLine record column).text) selected
            column })) := by
  obtain ⟨decoder, hdecoder, hsuits⟩ := Options.exists_decoder h.encoder_eq
  have hwhole := Decoder.decode_of_halves hsuits h.key_eq h.value_eq
  rw [Invocation.run_eq hschema h.tagByte_eq, Action.run_decode_encode hhex hdecoder]
  by_cases hselect : selected = []
  · rw [if_pos hselect, hwhole]
    simp only [Options.shownOf, hselect, true_or, if_true]
    rfl
  · rw [if_neg hselect, Decoder.decodeSelection_of_lt, Decoder.decodeWith_only hwhole]
    · simp only [Options.shownOf, hselect, false_or, ← Options.columnLine_only]
      rfl
    · rw [Plan.rowLength, hsuits.plan, h.columns_eq]
      exact hlt

end

end Command

end KeyedRows
