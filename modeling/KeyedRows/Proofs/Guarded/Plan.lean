import KeyedRows.Guarded.Plan
import KeyedRows.Proofs.Guarded.Decoder

namespace KeyedRows

/-- The places of the columns of a kind, the first column having a given place. -/
def Schema.positionsFrom (start : Nat) (columns : Schema) (kind : Column → Bool) : List Nat :=
  ((columns.zipIdx start).filter fun entry => kind entry.1).map Prod.snd

private theorem Schema.positionsFrom_cons {start : Nat} {column : Column} {columns : Schema}
    {kind : Column → Bool} :
    positionsFrom start (column :: columns) kind =
      (if kind column then [start] else []) ++ positionsFrom (start + 1) columns kind := by
  rw [positionsFrom, positionsFrom, List.zipIdx_cons, List.filter_cons]
  split <;> rfl

namespace Guarded

/-- Whether the flags at the slots of a row are set just for the ordinals that were
seen. -/
def Flags (count : Nat) (seen : List Nat) (taken : List Bool) : Prop :=
  taken.length = count ∧ ∀ ordinal < count, taken[ordinal]? = some (seen.contains ordinal)

/-- Before the first column no slot is taken. -/
theorem Flags.replicate (count : Nat) : Flags count [] (List.replicate count false) :=
  ⟨List.length_replicate, fun _ hlt => List.getElem?_replicate_of_lt hlt⟩

/-- Setting the flag of an ordinal goes with having seen it. The ordinal must lie
below the number of columns, which is checked just before. -/
theorem Flags.setFlag {count ordinal : Nat} {seen : List Nat} {taken : List Bool}
    (h : Flags count seen taken) (hlt : ordinal < count) :
    ∃ after, Guarded.setFlag taken ordinal = .ok after ∧ Flags count (ordinal :: seen) after := by
  obtain ⟨hlength, hflags⟩ := h
  refine ⟨taken.set ordinal true, if_pos (hlength.symm ▸ hlt), ?_, ?_⟩
  · rw [List.length_set, hlength]
  · intro other hother
    rw [List.getElem?_set, hlength]
    by_cases heq : ordinal = other
    · subst heq
      simp [hlt]
    · rw [if_neg heq, hflags other hother, List.contains_cons]
      simp [Ne.symm heq]

/-- The pass from a place on does what the check from there on does. The flags that
the pass sets stand for the list of ordinals that the check goes through, and this
is all that the induction carries along. -/
theorem splitFrom_eq {count place : Nat} {seen : List Nat} {taken : List Bool} {places : Places}
    {columns : Schema} (hflags : Flags count seen taken) :
    splitFrom count place taken places columns =
      .ok ((columns.checkFrom count place seen).map fun _ =>
        ⟨places.keys ++ columns.positionsFrom place (·.isKey),
          places.values ++ columns.positionsFrom place (!·.isKey)⟩) := by
  induction columns generalizing place seen taken places with
  | nil => simp [splitFrom, Schema.checkFrom, Schema.positionsFrom, Except.map]
  | cons column columns ih =>
    rw [splitFrom, Schema.checkFrom]
    by_cases hrange : count ≤ column.ordinal
    · rw [if_pos hrange, if_pos hrange]
      rfl
    · have hlt : column.ordinal < count := Nat.lt_of_not_le hrange
      have hflag := Guard.element_of_getElem? (hflags.2 _ hlt)
      obtain ⟨after, hset, hafter⟩ := hflags.setFlag hlt
      rw [if_neg hrange, if_neg hrange, hflag]
      cases hseen : seen.contains column.ordinal with
      | true => rfl
      | false =>
        simp only [hset, bind, Except.bind]
        cases hkey : column.isKey with
        | true =>
          cases hlist : column.type.isList with
          | true => rfl
          | false =>
            have hrest := @ih (place + 1) _ _ { places with keys := places.keys ++ [place] } hafter
            simp [Schema.positionsFrom_cons, hkey, hrest]
        | false =>
          have hrest := @ih (place + 1) _ _ { places with values := places.values ++ [place] } hafter
          simp [Schema.positionsFrom_cons, hkey, hrest]

/-- One pass over a schema does what its check does, and finds the places of its
columns. No schema makes it fault, whatever its ordinals are. -/
theorem split_eq (columns : Schema) :
    split columns = .ok (columns.check.map fun _ =>
      ⟨columns.positions (·.isKey), columns.positions (!·.isKey)⟩) :=
  splitFrom_eq (Flags.replicate columns.length)

/-- Places that lead to columns are followed without a fault. -/
theorem columnsAt_eq {columns found : Schema} {places : List Nat}
    (h : places.map (columns[·]?) = found.map some) : columnsAt columns places = .ok found := by
  induction places generalizing found with
  | nil =>
    obtain rfl := List.map_eq_nil_iff.1 h.symm
    rfl
  | cons place places ih =>
    obtain ⟨column, rest, rfl, hcolumn, hrest⟩ := List.map_eq_cons_iff.1 h.symm
    rw [columnsAt, Guard.element_of_getElem? hcolumn.symm, ih hrest.symm]
    rfl

end Guarded

end KeyedRows
