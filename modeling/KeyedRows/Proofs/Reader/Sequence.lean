import KeyedRows.Cursor

namespace KeyedRows.Reader

variable {α β : Type}

/-- Behind a reader that succeeds the next one goes on where it has stopped. -/
theorem bind_of_ok {reader : Reader α} {next : α → Reader β} {cursor after : Cursor} {a : α}
    (h : reader cursor = (.ok a, after)) : (reader >>= next) cursor = next a after := by
  change Reader.bind reader next cursor = next a after
  rw [Reader.bind, h]

/-- A reader that fails ends the series, with its error and where it has stopped. -/
theorem bind_of_error {reader : Reader α} {next : α → Reader β} {cursor after : Cursor} {e : Error}
    (h : reader cursor = (.error e, after)) : (reader >>= next) cursor = (.error e, after) := by
  change Reader.bind reader next cursor = (.error e, after)
  rw [Reader.bind, h]

private theorem map_id_eq (reader : Reader α) : id <$> reader = reader := by
  funext cursor
  rcases hread : reader cursor with ⟨_ | a, after⟩
  · exact bind_of_error hread
  · exact bind_of_ok hread

private theorem bind_bind {γ : Type} (reader : Reader α) (next : α → Reader β) (last : β → Reader γ) :
    reader >>= next >>= last = reader >>= fun a => next a >>= last := by
  funext cursor
  rcases hread : reader cursor with ⟨_ | a, after⟩
  · rw [bind_of_error hread, bind_of_error (bind_of_error hread)]
  · rw [bind_of_ok hread]
    change Reader.bind (Reader.bind reader next) last cursor = Reader.bind (next a) last after
    simp only [Reader.bind, hread]

instance : LawfulMonad Reader :=
  LawfulMonad.mk' Reader map_id_eq (fun _ _ => rfl) bind_bind

/-- Nothing is done behind an error. -/
theorem fail_bind (e : Error) (next : α → Reader β) : fail e >>= next = fail e :=
  rfl

/-- Two readers one behind the other succeed exactly if the first does, and the
second does from where it has stopped. -/
theorem bind_ok_iff {reader : Reader α} {next : α → Reader β} {cursor after : Cursor} {b : β} :
    (reader >>= next) cursor = (.ok b, after) ↔
      ∃ a middle, reader cursor = (.ok a, middle) ∧ next a middle = (.ok b, after) := by
  constructor
  · intro h
    rcases hread : reader cursor with ⟨_ | a, middle⟩
    · rw [bind_of_error hread] at h
      cases h
    · rw [bind_of_ok hread] at h
      exact ⟨a, middle, rfl, h⟩
  · rintro ⟨a, middle, hread, hnext⟩
    rw [bind_of_ok hread, hnext]

/-- Two readers one behind the other fail exactly if the first does, or if it
succeeds and the second fails from where it has stopped. -/
theorem bind_error_iff {reader : Reader α} {next : α → Reader β} {cursor after : Cursor}
    {e : Error} :
    (reader >>= next) cursor = (.error e, after) ↔
      reader cursor = (.error e, after) ∨
        ∃ a middle, reader cursor = (.ok a, middle) ∧ next a middle = (.error e, after) := by
  constructor
  · intro h
    rcases hread : reader cursor with ⟨_ | a, middle⟩
    · rw [bind_of_error hread] at h
      cases h
      exact Or.inl rfl
    · rw [bind_of_ok hread] at h
      exact Or.inr ⟨a, middle, rfl, h⟩
  · rintro (hread | ⟨a, middle, hread, hnext⟩)
    · exact bind_of_error hread
    · rw [bind_of_ok hread, hnext]

/-- A reader always stops somewhere, also where only its outcome is known. -/
theorem exists_after {reader : Reader α} {cursor : Cursor} {outcome : Except Error α}
    (h : (reader cursor).1 = outcome) : ∃ after, reader cursor = (outcome, after) :=
  ⟨(reader cursor).2, Prod.ext h rfl⟩

end KeyedRows.Reader
