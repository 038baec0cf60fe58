import KeyedRows.Schema.Plan
import Mathlib.Data.List.Nodup
import Mathlib.Data.List.Perm.Subperm

namespace KeyedRows

namespace Schema

/-- Whether a column may stand in a schema of `count` columns. -/
def Sound (count : Nat) (column : Column) : Prop :=
  column.ordinal < count ∧ (column.isKey = true → column.type.isList = false)

private theorem checkFrom_eq_ok_iff {count position : Nat} {seen : List Nat} {columns : Schema} :
    checkFrom count position seen columns = .ok () ↔
      (∀ column ∈ columns, Sound count column ∧ column.ordinal ∉ seen) ∧
        (columns.map Column.ordinal).Nodup := by
  induction columns generalizing position seen with
  | nil => simp [checkFrom]
  | cons column columns ih =>
    rw [checkFrom]
    by_cases hrange : count ≤ column.ordinal
    · simp [hrange, Sound, Nat.not_lt.2 hrange]
    · rw [if_neg hrange]
      by_cases hseen : column.ordinal ∈ seen
      · simp [hseen]
      · by_cases hlist : column.isKey = true ∧ column.type.isList = true
        · simp [hseen, hlist, Sound]
        · have hsound : Sound count column :=
            ⟨Nat.lt_of_not_le hrange, fun hkey => Bool.not_eq_true _ ▸ fun h => hlist ⟨hkey, h⟩⟩
          have hflag : ¬(column.isKey && column.type.isList) = true := by
            rwa [Bool.and_eq_true]
          rw [if_neg (by rwa [List.contains_iff_mem]), if_neg hflag, ih, List.map_cons,
            List.nodup_cons]
          constructor
          · intro ⟨hall, hnodup⟩
            have hfresh : column.ordinal ∉ columns.map Column.ordinal := by
              intro hmem
              obtain ⟨other, hother, heq⟩ := List.mem_map.1 hmem
              exact (hall other hother).2 (heq ▸ List.mem_cons_self)
            refine ⟨?_, hfresh, hnodup⟩
            intro other hother
            obtain rfl | htail := List.mem_cons.1 hother
            · exact ⟨hsound, hseen⟩
            · exact ⟨(hall other htail).1, fun h => (hall other htail).2 (List.mem_cons_of_mem _ h)⟩
          · intro ⟨hall, hfresh, hnodup⟩
            refine ⟨?_, hnodup⟩
            intro other hother
            refine ⟨(hall other (List.mem_cons_of_mem _ hother)).1, ?_⟩
            intro hmem
            obtain heq | hold := List.mem_cons.1 hmem
            · exact hfresh (heq ▸ List.mem_map.2 ⟨other, hother, rfl⟩)
            · exact (hall other (List.mem_cons_of_mem _ hother)).2 hold

private theorem kind_of_checkFrom_eq_error {count position : Nat} {seen : List Nat} {columns : Schema}
    {e : Error} (h : checkFrom count position seen columns = .error e) : e.kind = .invalidSchema := by
  induction columns generalizing position seen with
  | nil => cases h
  | cons column columns ih =>
    rw [checkFrom] at h
    split at h
    · cases h
      rfl
    · split at h
      · cases h
        rfl
      · split at h
        · cases h
          rfl
        · exact ih h

/-- A schema that does not pass its check is an invalid schema. -/
theorem kind_of_check_eq_error {columns : Schema} {e : Error} (h : columns.check = .error e) :
    e.kind = .invalidSchema :=
  kind_of_checkFrom_eq_error h

/-- A schema passes its check exactly if each column is sound by itself and no
ordinal is used twice. That no ordinal is left out follows and is not looked at. -/
theorem check_eq_ok_iff {columns : Schema} :
    columns.check = .ok () ↔
      (∀ column ∈ columns, Sound columns.length column) ∧ (columns.map Column.ordinal).Nodup := by
  rw [check, checkFrom_eq_ok_iff]
  simp

/-- As many different ordinals as there are columns, all of them below that number,
are all the numbers below it. So the check, which looks for neither gaps nor order,
finds every schema whose slots are not the places of a row. -/
theorem check_eq_ok_iff_perm {columns : Schema} : columns.check = .ok () ↔
    (columns.map Column.ordinal).Perm (List.range columns.length) ∧
      ∀ column ∈ columns, column.isKey = true → column.type.isList = false := by
  rw [check_eq_ok_iff]
  constructor
  · intro ⟨hsound, hnodup⟩
    have hsubset : columns.map Column.ordinal ⊆ List.range columns.length := by
      intro ordinal hmem
      obtain ⟨column, hcolumn, rfl⟩ := List.mem_map.1 hmem
      exact List.mem_range.2 (hsound column hcolumn).1
    have hlength : (List.range columns.length).length ≤ (columns.map Column.ordinal).length := by
      simp
    exact ⟨(hnodup.subperm hsubset).perm_of_length_le hlength,
      fun column hmem => (hsound column hmem).2⟩
  · intro ⟨hperm, hscalar⟩
    refine ⟨fun column hmem => ⟨?_, hscalar column hmem⟩, hperm.nodup_iff.2 List.nodup_range⟩
    exact List.mem_range.1 (hperm.mem_iff.1 (List.mem_map_of_mem hmem))

end Schema

namespace Plan

/-- A plan holds the schema and the byte order that it was made from. -/
theorem of?_eq_ok {columns : Schema} {order : ByteOrder} {plan : Plan}
    (h : of? columns order = .ok plan) : plan.columns = columns ∧ plan.order = order := by
  rw [of?] at h
  split at h
  · cases h
    exact ⟨rfl, rfl⟩
  · cases h

variable (plan : Plan)

/-- Every column of a plan has a slot in its rows. -/
theorem ordinal_lt {column : Column} (hmem : column ∈ plan.columns) :
    column.ordinal < plan.rowLength :=
  ((Schema.check_eq_ok_iff.1 plan.checked).1 column hmem).1

/-- Columns of a plan, in any choice, all have slots in its rows. -/
theorem ordinal_lt_of_subset {columns : Schema} (hsubset : columns ⊆ plan.columns) :
    ∀ ordinal ∈ columns.map Column.ordinal, ordinal < plan.rowLength := by
  intro ordinal hmem
  obtain ⟨column, hcolumn, rfl⟩ := List.mem_map.1 hmem
  exact plan.ordinal_lt (hsubset hcolumn)

/-- No two columns of a plan share a slot. -/
theorem nodup_ordinals : (plan.columns.map Column.ordinal).Nodup :=
  (Schema.check_eq_ok_iff.1 plan.checked).2

theorem nodup_keyOrdinals : (plan.keyColumns.map Column.ordinal).Nodup :=
  (List.filter_sublist.map _).nodup plan.nodup_ordinals

theorem nodup_valueOrdinals : (plan.valueColumns.map Column.ordinal).Nodup :=
  (List.filter_sublist.map _).nodup plan.nodup_ordinals

theorem mem_keyColumns {column : Column} :
    column ∈ plan.keyColumns ↔ column ∈ plan.columns ∧ column.isKey = true :=
  List.mem_filter

theorem mem_valueColumns {column : Column} :
    column ∈ plan.valueColumns ↔ column ∈ plan.columns ∧ column.isKey = false := by
  simp [valueColumns, Schema.valueColumns]

theorem keyColumns_subset : plan.keyColumns ⊆ plan.columns :=
  List.filter_subset_self ..

theorem valueColumns_subset : plan.valueColumns ⊆ plan.columns :=
  List.filter_subset_self ..

/-- No key column is a list. The forms of key columns are only defined for scalars,
so this is what the proofs about keys need from a plan. -/
theorem isList_of_mem_keyColumns {column : Column} (hmem : column ∈ plan.keyColumns) :
    column.type.isList = false := by
  obtain ⟨hcolumn, hkey⟩ := plan.mem_keyColumns.1 hmem
  exact ((Schema.check_eq_ok_iff.1 plan.checked).1 column hcolumn).2 hkey

/-- A place of a row belongs to one column, and the column to one half. The column
must be one of the plan. -/
theorem mem_valueOrdinals_iff {column : Column} (hmem : column ∈ plan.columns) :
    column.ordinal ∈ plan.valueColumns.map Column.ordinal ↔ column.isKey = false := by
  constructor
  · intro hvalue
    obtain ⟨other, hother, heq⟩ := List.mem_map.1 hvalue
    obtain ⟨hin, hnot⟩ := plan.mem_valueColumns.1 hother
    exact List.inj_on_of_nodup_map plan.nodup_ordinals hin hmem heq ▸ hnot
  · intro hnot
    exact List.mem_map_of_mem (plan.mem_valueColumns.2 ⟨hmem, hnot⟩)

/-- Every place of a row belongs to some column. A plan has passed the check, so
nothing else is needed. -/
theorem exists_column_of_lt {ordinal : Nat} (hlt : ordinal < plan.rowLength) :
    ∃ column ∈ plan.columns, column.ordinal = ordinal := by
  have hperm := (Schema.check_eq_ok_iff_perm.1 plan.checked).1
  exact List.mem_map.1 (hperm.mem_iff.2 (List.mem_range.2 hlt))

/-- Every slot of a row belongs to a column of one of the two halves. -/
theorem mem_ordinals_of_lt {ordinal : Nat} (hlt : ordinal < plan.rowLength) :
    ordinal ∈ plan.keyColumns.map Column.ordinal ++ plan.valueColumns.map Column.ordinal := by
  obtain ⟨column, hmem, rfl⟩ := plan.exists_column_of_lt hlt
  rw [← List.map_append]
  apply List.mem_map_of_mem
  rw [List.mem_append, mem_keyColumns, mem_valueColumns]
  cases hkey : column.isKey with
  | false => exact Or.inr ⟨hmem, rfl⟩
  | true => exact Or.inl ⟨hmem, rfl⟩

end Plan

end KeyedRows
