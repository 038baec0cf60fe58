import KeyedRows.Proofs.Error.Outcome
import KeyedRows.Proofs.Guarded.Plan
import KeyedRows.Proofs.Schema.Checked

namespace KeyedRows

namespace Schema

variable {columns : Schema} {place : Nat} {column : Column} {e e' : Error}

/-- What is wrong with the column at a place, if anything is: first the range of its
ordinal, then an earlier column with the same ordinal, then a list in the key. -/
inductive FaultAt (columns : Schema) (place : Nat) (column : Column) : Error → Prop
  | outside (hout : columns.length ≤ column.ordinal) :
      FaultAt columns place column (.ordinalOutside place column.ordinal columns.length)
  | repeated (hin : column.ordinal < columns.length)
      (hused : column.ordinal ∈ (columns.take place).map Column.ordinal) :
      FaultAt columns place column (.ordinalRepeated column.ordinal)
  | listKey (hin : column.ordinal < columns.length)
      (hfresh : column.ordinal ∉ (columns.take place).map Column.ordinal)
      (hkey : column.isKey = true) (hlist : column.type.isList = true) :
      FaultAt columns place column (.listKey column.ordinal column.type)

/-- A column has one fault at most. -/
theorem FaultAt.unique (h : FaultAt columns place column e) (h' : FaultAt columns place column e') :
    e = e' := by
  cases h with
  | outside hout =>
    cases h' with
    | outside => rfl
    | repeated hin | listKey hin => omega
  | repeated hin hused =>
    cases h' with
    | outside hout => omega
    | repeated => rfl
    | listKey _ hfresh => exact absurd hused hfresh
  | listKey hin hfresh =>
    cases h' with
    | outside hout => omega
    | repeated _ hused => exact absurd hused hfresh
    | listKey => rfl

/-- The first fault in a schema: no column in front of the one at that place has
any. -/
def FirstFault (columns : Schema) (place : Nat) (e : Error) : Prop :=
  ∃ column, columns[place]? = some column ∧ FaultAt columns place column e ∧
    ∀ earlier < place, ∀ other, columns[earlier]? = some other → ∀ fault,
      ¬FaultAt columns earlier other fault

/-- The check of a column ends with the column's fault, or goes on behind it if
there is none. The ordinals that the check has seen must be those of the columns in
front. -/
theorem checkFrom_cases {early rest : Schema} {seen : List Nat}
    (hseen : ∀ ordinal, ordinal ∈ seen ↔ ordinal ∈ early.map Column.ordinal) (column : Column) :
    (∃ e, FaultAt (early ++ column :: rest) early.length column e ∧
      checkFrom (early ++ column :: rest).length early.length seen (column :: rest) = .error e) ∨
    ((∀ e, ¬FaultAt (early ++ column :: rest) early.length column e) ∧
      checkFrom (early ++ column :: rest).length early.length seen (column :: rest) =
        checkFrom (early ++ column :: rest).length (early.length + 1) (column.ordinal :: seen) rest) := by
  have htake : (early ++ column :: rest).take early.length = early := List.take_left
  rw [checkFrom]
  by_cases hrange : (early ++ column :: rest).length ≤ column.ordinal
  · rw [if_pos hrange]
    exact .inl ⟨_, .outside hrange, rfl⟩
  · have hin := Nat.lt_of_not_le hrange
    rw [if_neg hrange]
    by_cases hused : column.ordinal ∈ early.map Column.ordinal
    · rw [if_pos (List.contains_iff_mem.2 ((hseen _).2 hused))]
      exact .inl ⟨_, .repeated hin (htake.symm ▸ hused), rfl⟩
    · rw [if_neg (mt List.contains_iff_mem.1 (mt (hseen _).1 hused))]
      by_cases hlist : (column.isKey && column.type.isList) = true
      · rw [if_pos hlist]
        obtain ⟨hkey, htype⟩ := Bool.and_eq_true_iff.1 hlist
        exact .inl ⟨_, .listKey hin (htake.symm ▸ hused) hkey htype, rfl⟩
      · rw [if_neg hlist]
        refine .inr ⟨?_, rfl⟩
        intro e hfault
        cases hfault with
        | outside hout => exact hrange hout
        | repeated _ hmem => exact hused (htake ▸ hmem)
        | listKey _ _ hkey htype => exact hlist (Bool.and_eq_true_iff.2 ⟨hkey, htype⟩)

/-- From a place behind columns without fault on, the check finds the first fault
there is. The induction is on the columns that are left, and that those in front are
sound carries it. -/
theorem exists_firstFault_of_checkFrom (early : Schema) {rest : Schema} {seen : List Nat}
    (hseen : ∀ ordinal, ordinal ∈ seen ↔ ordinal ∈ early.map Column.ordinal)
    (hsound : ∀ place < early.length, ∀ column, (early ++ rest)[place]? = some column → ∀ fault,
      ¬FaultAt (early ++ rest) place column fault)
    (h : checkFrom (early ++ rest).length early.length seen rest = .error e) :
    ∃ place, FirstFault (early ++ rest) place e := by
  induction rest generalizing early seen with
  | nil => cases h
  | cons column rest ih =>
    have hplace : (early ++ column :: rest)[early.length]? = some column := by simp
    obtain ⟨fault, hfault, herror⟩ | ⟨hnone, hnext⟩ := checkFrom_cases hseen column
    · rw [herror] at h
      cases h
      exact ⟨early.length, column, hplace, hfault, hsound⟩
    · have hwhole : early ++ column :: rest = early ++ [column] ++ rest := by simp
      have hlength : early.length + 1 = (early ++ [column]).length := by simp
      rw [hnext, hlength] at h
      rw [hwhole] at hsound hnone hplace h ⊢
      refine ih (early ++ [column]) ?_ ?_ h
      · intro ordinal
        rw [List.mem_cons, hseen]
        simp [or_comm]
      · intro earlier hlt other hother
        rw [List.length_append, List.length_singleton] at hlt
        obtain hbefore | rfl := Nat.lt_succ_iff_lt_or_eq.1 hlt
        · exact hsound earlier hbefore other hother
        · rw [hplace] at hother
          cases hother
          exact hnone

/-- There is only one first fault. -/
theorem FirstFault.unique {place' : Nat} (h : FirstFault columns place e)
    (h' : FirstFault columns place' e') : e = e' := by
  obtain ⟨column, hcolumn, hfault, hearly⟩ := h
  obtain ⟨column', hcolumn', hfault', hearly'⟩ := h'
  obtain hlt | rfl | hgt := Nat.lt_trichotomy place place'
  · exact absurd hfault (hearly' place hlt column hcolumn e)
  · rw [hcolumn] at hcolumn'
    cases hcolumn'
    exact hfault.unique hfault'
  · exact absurd hfault' (hearly place' hgt column' hcolumn' e')

/-- No column in front of another one has its ordinal, if no ordinal is used twice. -/
theorem ordinal_not_mem_take (hnodup : (columns.map Column.ordinal).Nodup)
    (hcolumn : columns[place]? = some column) :
    column.ordinal ∉ (columns.take place).map Column.ordinal := by
  intro hused
  have hsplit : columns = columns.take place ++ column :: columns.drop (place + 1) := by
    obtain ⟨hlt, rfl⟩ := List.getElem?_eq_some_iff.1 hcolumn
    rw [List.cons_getElem_drop_succ, List.take_append_drop]
  rw [hsplit, List.map_append, List.map_cons, List.nodup_append] at hnodup
  exact hnodup.2.2 _ hused _ List.mem_cons_self rfl

private theorem not_faultAt_of_check (hcheck : columns.check = .ok ())
    (hcolumn : columns[place]? = some column) : ¬FaultAt columns place column e := by
  obtain ⟨hsound, hnodup⟩ := check_eq_ok_iff.1 hcheck
  have hmem := List.mem_of_getElem? hcolumn
  intro hfault
  cases hfault with
  | outside hout => exact absurd (hsound column hmem).1 (Nat.not_lt.2 hout)
  | repeated _ hused => exact ordinal_not_mem_take hnodup hcolumn hused
  | listKey _ _ hkey hlist =>
    rw [(hsound column hmem).2 hkey] at hlist
    cases hlist

/-- The check fails exactly with the first fault that there is. A schema with
several faults is refused for the earliest column that has one, and in it for an
ordinal before a list in the key. -/
theorem check_eq_error_iff : columns.check = .error e ↔ ∃ place, FirstFault columns place e := by
  have hfirst : ∀ e, columns.check = .error e → ∃ place, FirstFault columns place e := by
    intro e h
    exact exists_firstFault_of_checkFrom [] (by simp) (by simp) h
  constructor
  · exact hfirst e
  · intro ⟨place, hfault⟩
    cases hcheck : columns.check with
    | ok =>
      obtain ⟨column, hcolumn, hat, -⟩ := hfault
      exact absurd hat (not_faultAt_of_check hcheck hcolumn)
    | error e' =>
      obtain ⟨place', hfault'⟩ := hfirst e' hcheck
      rw [hfault.unique hfault']

end Schema

namespace Plan

variable {columns : Schema} {order : ByteOrder} {plan : Plan} {e : Error}

private theorem exists_of?_eq_ok_iff :
    (∃ plan, of? columns order = .ok plan) ↔ columns.check = .ok () := by
  rw [of?]
  split <;> simp_all

private theorem of?_eq_error_iff : of? columns order = .error e ↔ columns.check = .error e := by
  rw [of?]
  split <;> simp_all

/-- Each slot of a row goes to one column of one half. The slot must be one of the
row. -/
theorem count_ordinals (plan : Plan) {ordinal : Nat} (hlt : ordinal < plan.rowLength) :
    (plan.keyColumns.map Column.ordinal).count ordinal +
      (plan.valueColumns.map Column.ordinal).count ordinal = 1 := by
  have hhalves : (plan.keyColumns ++ plan.valueColumns).Perm plan.columns :=
    List.filter_append_perm _ plan.columns
  have hordinals := (Schema.check_eq_ok_iff_perm.1 plan.checked).1
  rw [← List.count_append, ← List.map_append, ((hhalves.map _).trans hordinals).count_eq]
  exact List.count_eq_one_of_mem List.nodup_range (List.mem_range.2 hlt)

/-- The one pass over a schema finds the key columns and the other columns of the
plan. -/
theorem split_of_of? (h : of? columns order = .ok plan) :
    ∃ places, Guarded.split columns = .ok (.ok places) ∧
      Guarded.columnsAt columns places.keys = .ok plan.keyColumns ∧
      Guarded.columnsAt columns places.values = .ok plan.valueColumns := by
  have hcheck := exists_of?_eq_ok_iff.1 ⟨plan, h⟩
  obtain ⟨rfl, -⟩ := of?_eq_ok h
  refine ⟨⟨plan.columns.positions (·.isKey), plan.columns.positions (!·.isKey)⟩, ?_, ?_, ?_⟩
  · rw [Guarded.split_eq, hcheck]
    rfl
  · exact Guarded.columnsAt_eq (plan.columns.map_positions (·.isKey))
  · exact Guarded.columnsAt_eq (plan.columns.map_positions (!·.isKey))

/-- A schema is accepted exactly if its ordinals are the numbers below the number of
columns, each once and in any order, and no list is part of the key. One pass over
it then finds the places of the key columns and of the others, both in schema order,
and every slot of a row belongs to one column of one half. Otherwise the schema is
invalid for what is wrong with the first column at fault. -/
theorem of?_decided_by_ordinals (columns : Schema) (order : ByteOrder) :
    ((∃ plan, of? columns order = .ok plan) ↔
      (columns.map Column.ordinal).Perm (List.range columns.length) ∧
        ∀ column ∈ columns, column.isKey = true → column.type.isList = false) ∧
    (∀ plan, of? columns order = .ok plan →
      plan.columns = columns ∧ plan.order = order ∧
      (∃ places, Guarded.split columns = .ok (.ok places) ∧
        Guarded.columnsAt columns places.keys = .ok plan.keyColumns ∧
        Guarded.columnsAt columns places.values = .ok plan.valueColumns) ∧
      (plan.keyColumns.Sublist columns ∧
        ∀ column, column ∈ plan.keyColumns ↔ column ∈ columns ∧ column.isKey = true) ∧
      (plan.valueColumns.Sublist columns ∧
        ∀ column, column ∈ plan.valueColumns ↔ column ∈ columns ∧ column.isKey = false) ∧
      ∀ ordinal < plan.rowLength, (plan.keyColumns.map Column.ordinal).count ordinal +
        (plan.valueColumns.map Column.ordinal).count ordinal = 1) ∧
    (∀ e, of? columns order = .error e ↔ ∃ place, columns.FirstFault place e) ∧
    (∀ e, of? columns order = .error e →
      Guarded.split columns = .ok (.error e) ∧ e.kind = .invalidSchema) := by
  refine ⟨?_, ?_, ?_, ?_⟩
  · rw [exists_of?_eq_ok_iff, Schema.check_eq_ok_iff_perm]
  · intro plan h
    have hplaces := split_of_of? h
    obtain ⟨rfl, rfl⟩ := of?_eq_ok h
    exact ⟨rfl, rfl, hplaces, ⟨List.filter_sublist, fun _ => plan.mem_keyColumns⟩,
      ⟨List.filter_sublist, fun _ => plan.mem_valueColumns⟩, fun _ => plan.count_ordinals⟩
  · intro e
    rw [of?_eq_error_iff, Schema.check_eq_error_iff]
  · intro e h
    have hcheck := of?_eq_error_iff.1 h
    rw [Guarded.split_eq, hcheck]
    exact ⟨rfl, Schema.kind_of_check_eq_error hcheck⟩

/-- Two columns in an order of their own; and three of which the second is a list in
the key and repeats an ordinal. The repetition is what is found, and the ordinal of
the third, which is too large, is not looked at. -/
theorem of?_decided_at_two_faults :
    let good : Schema := [{ type := .scalar .bool, ordinal := 1, isKey := true },
      { type := .list .int32, ordinal := 0 }]
    let bad : Schema := [{ type := .scalar .bool, ordinal := 1, isKey := true },
      { type := .list .int32, ordinal := 1, isKey := true },
      { type := .scalar .string, ordinal := 3 }]
    (∃ plan, of? good .big = .ok plan ∧ plan.keyColumns.map Column.ordinal = [1] ∧
      plan.valueColumns.map Column.ordinal = [0]) ∧
      of? bad .big = .error (.ordinalRepeated 1) ∧
      (Error.ordinalRepeated 1).kind = .invalidSchema := by
  intro good bad
  obtain ⟨haccepted, hsplit, -, -⟩ := of?_decided_by_ordinals good .big
  obtain ⟨-, -, hrefused, hinvalid⟩ := of?_decided_by_ordinals bad .big
  obtain ⟨plan, hplan⟩ := haccepted.2 (by decide)
  obtain ⟨hcolumns, -⟩ := hsplit plan hplan
  have hbad : of? bad .big = .error (.ordinalRepeated 1) := by
    refine (hrefused _).2 ⟨1, bad[1], rfl, .repeated (by decide) (by decide), ?_⟩
    intro earlier hlt other hother fault hfault
    obtain rfl := Nat.lt_one_iff.1 hlt
    cases hother
    cases hfault with
    | outside hout => exact absurd hout (by decide)
    | repeated _ hused => exact absurd hused (by decide)
    | listKey _ _ _ hlist => cases hlist
  refine ⟨⟨plan, hplan, ?_, ?_⟩, hbad, (hinvalid _ hbad).2⟩
  · rw [keyColumns, hcolumns]
    rfl
  · rw [valueColumns, hcolumns]
    rfl

end Plan

end KeyedRows
