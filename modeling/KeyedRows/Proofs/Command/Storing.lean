import KeyedRows.Proofs.Command.Outcome
import KeyedRows.Proofs.Schema.Grammar
import KeyedRows.Proofs.Schema.Stored

namespace KeyedRows

/-- The ordinals of a schema that passes its check are below the number of columns,
which is all that has to fit. The number of columns is bounded by hypothesis, since
eight bytes hold it. -/
theorem Schema.storable_of_check {columns : Schema} (hcheck : columns.check = .ok ())
    (hlength : columns.length < Nat.pow 256 8) : columns.Storable := by
  refine ⟨hlength, ?_⟩
  intro column hmem
  exact Nat.lt_trans ((check_eq_ok_iff.1 hcheck).1 column hmem).1 hlength

namespace Command

section

variable {options : Options} {source : SchemaSource} {columns : Schema} {tag : UInt8} {hex : HexForm}

private theorem Options.readSlots_source {texts : List String} {record : Record} :
    { options with source }.readSlots texts columns record = options.readSlots texts columns record := by
  induction columns generalizing record with
  | nil => rfl
  | cons column columns ih =>
    rw [readSlots, readSlots]
    simp only [ih]
    rfl

/-- Where a schema comes from matters no more once it is read. All other options
stay as they are. -/
theorem Action.run_source (action : Action) :
    action.run hex { options with source } columns tag = action.run hex options columns tag := by
  cases action with
  | encode texts =>
    have hrecord : { options with source }.readRecord columns texts =
        options.readRecord columns texts := by
      rw [Options.readRecord, Options.readRecord, Options.readSlots_source]
    rw [run, run, hrecord]
    rfl
  | decode key value selected => rfl
  | bounds texts => rfl
  | schema path => rfl

/-- Two ways to name the same schema lead to the same answer. An error in naming it
is the same error too, since the schemas are compared with their failures. -/
theorem Invocation.run_source {other : SchemaSource} {load otherLoad : Load} (action : Action)
    (h : { options with source }.schema load = { options with source := other }.schema otherLoad) :
    Invocation.run hex ⟨{ options with source }, action⟩ load =
      Invocation.run hex ⟨{ options with source := other }, action⟩ otherLoad := by
  rw [run, run, h]
  refine bind_congr fun columns => ?_
  refine bind_congr fun tag => ?_
  exact (Action.run_source action).trans (Action.run_source action).symm

end

section

variable {σ : Type} {hex : HexForm} {files : Files (StateM σ)} {options other : Options}
  {text path : String} {state after later : σ} {stored : Outcome}

/-- The columns that a text describes and the file that they were stored in are the
same schema, if the path keeps what is written to it and nobody else writes there.
What the run that stored them was told besides the text does not matter. -/
theorem load_eq_parse_of_stored (hkeeps : files.Keeps path)
    (h : (Invocation.outcome hex files ⟨{ options with source := .spec text }, .schema path⟩).run
      state = (stored, after)) (hstatus : stored.status = 0)
    (hlength : ∀ columns, Schema.parse text = .ok columns → columns.length < Nat.pow 256 8)
    (huntouched : ((files.read path).run later).1 = ((files.read path).run after).1) :
    Catalog.load ((files.read path).run later).1 = Schema.parse text := by
  have hsuccess : ((Invocation.outcome hex files
      ⟨{ options with source := .spec text }, .schema path⟩).run state).1.status = 0 := by
    rwa [h]
  obtain ⟨report, hrun, -, hwritten⟩ := Invocation.exists_run_of_status rfl hsuccess
  simp only [Invocation.run, Action.run, bind_eq_ok_iff] at hrun
  obtain ⟨columns, hparse, tag, -, hstored⟩ := hrun
  cases hstored
  have hwrite := hwritten path (Catalog.toBytes columns) rfl
  rw [h] at hwrite
  have hspec : Schema.parse text = .ok columns := hparse
  have hcheck := (Schema.parse_eq_ok_iff.1 hspec).2
  have hbytes := Catalog.ofBytes_toBytes_append
    (Schema.storable_of_check hcheck (hlength columns hspec)) []
  rw [List.append_nil, hcheck] at hbytes
  rw [huntouched, hkeeps.read_write _ _ _ hwrite, hspec]
  exact hbytes

/-- A run ends in the same way, and leaves the same behind, whether its schema comes
from a file or from the text that the file was stored from. The file must keep what
it holds while it is read, which `Files.Keeps` says; nothing is asked of other
files. -/
theorem outcome_file_eq_spec (hkeeps : files.Keeps path)
    (hload : Catalog.load ((files.read path).run later).1 = Schema.parse text) (action : Action) :
    (Invocation.outcome hex files ⟨{ other with source := .file path }, action⟩).run later =
      (Invocation.outcome hex files ⟨{ other with source := .spec text }, action⟩).run later := by
  have hfetch : ({ other with source := .file path }.fetch files).run later =
      (fun _ => ((files.read path).run later).1, later) := by
    rw [Options.fetch, StateT.run_bind]
    exact Prod.ext rfl (hkeeps.read_state later)
  have hrun : Invocation.run hex ⟨{ other with source := .file path }, action⟩
      (fun _ => ((files.read path).run later).1) =
      Invocation.run hex ⟨{ other with source := .spec text }, action⟩ fun _ => .error .notFound :=
    Invocation.run_source action hload
  rw [Invocation.run_outcome hfetch, hrun, Invocation.run_outcome rfl]
  rfl

end

end Command

end KeyedRows
