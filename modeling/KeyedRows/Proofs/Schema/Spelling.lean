import KeyedRows.Proofs.Text.Splitting
import KeyedRows.Schema.Grammar

namespace KeyedRows

namespace Scalar

theorem mem_all (kind : Scalar) : kind ∈ all := by
  cases kind <;> decide

private theorem eq_of_mem_names {kind other : Scalar} {name : String} (h : name ∈ kind.names)
    (h' : name ∈ other.names) : kind = other := by
  have hapart : ∀ a ∈ all, ∀ b ∈ all, ∀ name ∈ a.names, name ∈ b.names → a = b := by decide +kernel
  exact hapart kind kind.mem_all other other.mem_all name h h'

/-- A scalar type is found by its names and by no other text. -/
theorem named?_eq_some_iff {name : List Char} {kind : Scalar} :
    named? name = some kind ↔ String.ofList name ∈ kind.names := by
  have hknown : ∀ other : Scalar, (String.ofList name == other.name ||
      other.aliases.contains (String.ofList name)) = true ↔ String.ofList name ∈ other.names := by
    intro other
    rw [names, List.mem_cons, Bool.or_eq_true, beq_iff_eq, List.contains_iff_mem]
  rw [named?]
  constructor
  · intro h
    have hfound := List.find?_some h
    exact (hknown kind).1 hfound
  · intro h
    cases hfind : all.find? fun other => String.ofList name == other.name ||
        other.aliases.contains (String.ofList name) with
    | none => exact absurd ((hknown kind).2 h) (List.find?_eq_none.1 hfind kind kind.mem_all)
    | some other =>
      have hfound := List.find?_some hfind
      rw [eq_of_mem_names h ((hknown other).1 hfound)]

private theorem named?_name {name : String} {kind : Scalar} (h : name ∈ kind.names) :
    named? name.toList = some kind :=
  named?_eq_some_iff.2 (String.ofList_toList.symm ▸ h)

end Scalar

namespace ColumnType

theorem mem_all (type : ColumnType) : type ∈ all := by
  cases type with
  | scalar kind => exact List.mem_append_left _ (List.mem_map_of_mem kind.mem_all)
  | list item => exact List.mem_append_right _ (List.mem_map_of_mem item.mem_all)

/-- A name of a scalar type ends neither in brackets nor in an angle bracket. -/
theorem named?_scalar_name {kind : Scalar} {name : String} (h : name ∈ kind.names) :
    named? name.toList = some (.scalar kind) := by
  have hall : ∀ kind ∈ Scalar.all, ∀ name ∈ kind.names,
      named? name.toList = some (.scalar kind) := by decide +kernel
  exact hall kind kind.mem_all name h

private theorem named?_brackets {item : Scalar} {name : String} (h : name ∈ item.names) :
    named? (name.toList ++ ['[', ']']) = some (.list item) := by
  have hbrackets : Text.dropEnd? ['[', ']'] (name.toList ++ ['[', ']']) = some name.toList :=
    Text.dropEnd?_eq_some_iff.2 rfl
  rw [named?, hbrackets]
  simp only [Scalar.named?_name h, Option.map_some]

private theorem named?_angles {item : Scalar} {name : String} (h : name ∈ item.names) :
    named? (['l', 'i', 's', 't', '<'] ++ name.toList ++ ['>']) = some (.list item) := by
  have hnone : Text.dropEnd? ['[', ']'] (['l', 'i', 's', 't', '<'] ++ name.toList ++ ['>']) = none := by
    rw [Option.eq_none_iff_forall_ne_some]
    intro rest hrest
    have hlast := congrArg List.getLast? (Text.dropEnd?_eq_some_iff.1 hrest)
    rw [List.getLast?_concat, List.getLast?_append] at hlast
    cases hlast
  have hangles : (Text.dropStart? ['l', 'i', 's', 't', '<']
      (['l', 'i', 's', 't', '<'] ++ name.toList ++ ['>'])).bind (Text.dropEnd? ['>']) =
        some name.toList := by
    rw [Text.dropStart?_eq_some_iff.2 (List.append_assoc ..)]
    exact Text.dropEnd?_eq_some_iff.2 rfl
  rw [named?, hnone]
  simp only [hangles, Scalar.named?_name h, Option.map_some]

/-- A type is found under its spellings. -/
theorem named?_eq_some_iff {name : List Char} {type : ColumnType} :
    named? name = some type ↔ type.Spelled name := by
  constructor
  · intro h
    rw [named?] at h
    split at h
    · rename_i item hbrackets
      obtain ⟨kind, hkind, rfl⟩ := Option.map_eq_some_iff.1 h
      have hname := Spelled.brackets (Scalar.named?_eq_some_iff.1 hkind)
      rw [String.toList_ofList] at hname
      rwa [Text.dropEnd?_eq_some_iff.1 hbrackets]
    · split at h
      · rename_i item hangles
        obtain ⟨behind, hstart, hend⟩ := Option.bind_eq_some_iff.1 hangles
        obtain ⟨kind, hkind, rfl⟩ := Option.map_eq_some_iff.1 h
        have hname := Spelled.angles (Scalar.named?_eq_some_iff.1 hkind)
        rw [String.toList_ofList] at hname
        rwa [Text.dropStart?_eq_some_iff.1 hstart, Text.dropEnd?_eq_some_iff.1 hend,
          ← List.append_assoc]
      · obtain ⟨kind, hkind, rfl⟩ := Option.map_eq_some_iff.1 h
        have hname := Spelled.scalar (Scalar.named?_eq_some_iff.1 hkind)
        rwa [String.toList_ofList] at hname
  · intro h
    cases h with
    | scalar hname => exact named?_scalar_name hname
    | brackets hname => exact named?_brackets hname
    | angles hname => exact named?_angles hname

end ColumnType

namespace ColumnFlag

/-- A flag is found under its name. -/
theorem named?_eq_some_iff {name : List Char} {flag : ColumnFlag} :
    named? name = some flag ↔ name = flag.name.toList := by
  constructor
  · intro h
    have hfound := List.find?_some h
    rw [beq_iff_eq.1 hfound, String.toList_ofList]
  · rintro rfl
    cases flag <;> rfl

end ColumnFlag

end KeyedRows
