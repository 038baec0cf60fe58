import KeyedRows.Command.Run
import KeyedRows.Proofs.Error.Outcome

namespace KeyedRows.Command

variable {σ : Type} {hex : HexForm} {files : Files (StateM σ)} {invocation : Invocation}
  {answer : Except Error Report} {report : Report} {load : Load} {state fetched after : σ}

/-- An answer that asks for a file stands only if that file has been written; any
other answer leaves everything as it is. Files may do anything else when they fail. -/
theorem Files.deliver_eq_ok (h : (files.deliver answer).run state = (.ok report, after)) :
    answer = .ok report ∧
      (report.file? = none ∧ after = state ∨
        ∃ path bytes, report.file? = some (path, bytes) ∧
          (files.write path bytes).run state = (.ok (), after)) := by
  cases answer with
  | error e => cases h
  | ok given =>
    cases hfile : given.file? with
    | none =>
      simp only [deliver, hfile] at h
      cases h
      exact ⟨rfl, .inl ⟨hfile, rfl⟩⟩
    | some file =>
      obtain ⟨path, bytes⟩ := file
      simp only [deliver, hfile, StateT.run_bind] at h
      cases hwrite : (files.write path bytes).run state with
      | mk written left =>
        rw [hwrite] at h
        cases written with
        | error fault => cases h
        | ok done =>
          cases h
          exact ⟨rfl, .inr ⟨path, bytes, hfile, hwrite⟩⟩

private theorem Files.deliver_of_file?_eq_none (hfile : report.file? = none) :
    (files.deliver (.ok report)).run state = (.ok report, state) := by
  simp only [deliver, hfile]
  rfl

namespace Invocation

/-- A run first reads the file of its schema, if there is one, and then delivers its
answer. Files are not touched in between, so what an action does is a function of
what was read. -/
theorem run_outcome (hfetch : (invocation.options.fetch files).run state = (load, fetched)) :
    (invocation.outcome hex files).run state =
      let delivered := (files.deliver (invocation.run hex load)).run fetched
      (.of hex delivered.1, delivered.2) := by
  rw [outcome, perform, StateT.run_bind, StateT.run_bind, hfetch]
  rfl

/-- A run that ends in success has an answer, prints it, and has written the file
that it asks for. There is no other way to succeed. In particular a file that cannot
be written makes the run fail, and nothing is printed as if it had been. -/
theorem exists_run_of_status
    (hfetch : (invocation.options.fetch files).run state = (load, fetched))
    (h : ((invocation.outcome hex files).run state).1.status = 0) :
    ∃ report, invocation.run hex load = .ok report ∧
      ((invocation.outcome hex files).run state).1 =
        { status := 0, output := report.render hex } ∧
      ∀ path bytes, report.file? = some (path, bytes) →
        (files.write path bytes).run fetched =
          (.ok (), ((invocation.outcome hex files).run state).2) := by
  rw [run_outcome hfetch] at h ⊢
  cases hdelivered : (files.deliver (invocation.run hex load)).run fetched with
  | mk answer after =>
    cases answer with
    | error e => simp [hdelivered, Outcome.of] at h
    | ok report =>
      obtain ⟨hanswer, hfile⟩ := Files.deliver_eq_ok hdelivered
      refine ⟨report, hanswer, rfl, ?_⟩
      intro path bytes hsome
      obtain ⟨hnone, -⟩ | ⟨found, written, hfound, hwrite⟩ := hfile
      · rw [hnone] at hsome
        cases hsome
      · rw [hfound] at hsome
        cases hsome
        exact hwrite

/-- An answer that asks for no file is printed, and nothing but reading has
happened. This holds for any files, so what a run prints depends on them only
through the schema. -/
theorem run_outcome_of_run (hfetch : (invocation.options.fetch files).run state = (load, fetched))
    (hrun : invocation.run hex load = .ok report) (hfile : report.file? = none) :
    (invocation.outcome hex files).run state =
      ({ status := 0, output := report.render hex }, fetched) := by
  rw [run_outcome hfetch, hrun, Files.deliver_of_file?_eq_none hfile]
  rfl

end Invocation

/-- The ways in which a command line can end. -/
inductive Outcome.EndsWell : Outcome → Prop where
  /-- What was asked for is printed, and nothing else is said. -/
  | printed (output : String) : EndsWell { status := 0, output }
  /-- Nothing is printed, and what has failed is said. -/
  | failed (e : Error) : EndsWell { status := 1, message := some e.message }
  /-- The arguments ask for nothing that there is. -/
  | rejected : EndsWell { status := 2 }

private theorem Outcome.of_endsWell (hex : HexForm) (answer : Except Error Report) :
    (Outcome.of hex answer).EndsWell := by
  cases answer with
  | error e => exact .failed e
  | ok report => exact .printed (report.render hex)

/-- Every command line prints or fails, and never both. Nothing is asked of the
files or of the form of hexadecimal text. The status alone tells which of both it
was. -/
theorem execute_endsWell (hex : HexForm) (files : Files (StateM σ)) (arguments : List String)
    (state : σ) : ((execute hex files arguments).run state).1.EndsWell := by
  rw [execute]
  cases Request.of? arguments with
  | none => exact .rejected
  | some request =>
    cases request with
    | version => exact .printed versionText
    | help => exact .printed helpText
    | run invocation =>
      change ((invocation.outcome hex files).run state).1.EndsWell
      rw [Invocation.run_outcome rfl]
      exact Outcome.of_endsWell hex _

end KeyedRows.Command
