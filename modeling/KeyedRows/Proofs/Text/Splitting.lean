import KeyedRows.Text.Blank
import Mathlib.Data.List.Basic

namespace KeyedRows.Text

/-- A character is cut out wherever it stands. -/
theorem not_mem_of_mem_splitOn {separator : Char} {text part : List Char}
    (h : part ∈ text.splitOn separator) : separator ∉ part := by
  induction text generalizing part with
  | nil =>
    rw [List.splitOn_nil, List.mem_singleton] at h
    rw [h]
    exact List.not_mem_nil
  | cons c text ih =>
    obtain ⟨first, rest, hparts⟩ := List.exists_cons_of_ne_nil (List.splitOn_ne_nil separator text)
    rw [List.splitOn_cons_eq_if_modifyHead, hparts] at h
    rw [hparts] at ih
    split at h
    · obtain rfl | hmem := List.mem_cons.1 h
      · exact List.not_mem_nil
      · exact ih hmem
    · rename_i hne
      rw [List.modifyHead_cons] at h
      obtain rfl | hmem := List.mem_cons.1 h
      · rw [List.mem_cons, not_or]
        exact ⟨fun heq => hne (beq_iff_eq.2 heq.symm), ih List.mem_cons_self⟩
      · exact ih (List.mem_cons_of_mem _ hmem)

/-- Parts in which a character does not stand are found by cutting at it the text
into which they are joined, and no other parts are. There is always a part, and an
empty text has one that is empty. -/
theorem splitOn_eq_iff {separator : Char} {text : List Char} {parts : List (List Char)} :
    text.splitOn separator = parts ↔
      parts ≠ [] ∧ (∀ part ∈ parts, separator ∉ part) ∧ [separator].intercalate parts = text := by
  constructor
  · rintro rfl
    exact ⟨List.splitOn_ne_nil _ _, fun _ => not_mem_of_mem_splitOn, List.intercalate_splitOn _⟩
  · rintro ⟨hsome, hfree, rfl⟩
    exact List.splitOn_intercalate separator hfree hsome

private theorem dropWhile_isBlank_eq_self {text : List Char} (h : ∀ c ∈ text, isBlank c = false) :
    text.dropWhile isBlank = text := by
  cases text with
  | nil => rfl
  | cons c text => rw [List.dropWhile_cons_of_neg (by simp [h c])]

/-- A text without blanks stays as it is. -/
theorem trim_eq_self {text : List Char} (h : ∀ c ∈ text, isBlank c = false) : trim text = text := by
  have hreverse : ∀ c ∈ text.reverse, isBlank c = false := fun c hmem => h c (List.mem_reverse.1 hmem)
  rw [trim, dropWhile_isBlank_eq_self h, dropWhile_isBlank_eq_self hreverse, List.reverse_reverse]

/-- No digit is blank, so trimming a number takes nothing from it. -/
theorem isBlank_of_isDigit {c : Char} (h : c.isDigit = true) : isBlank c = false := by
  have hrange : 48 ≤ c.toNat ∧ c.toNat ≤ 57 := by
    simpa [Char.isDigit, UInt32.le_iff_toNat_le] using h
  simp [isBlank]
  omega

/-- An ending is taken off exactly if it is there, and only once. -/
theorem dropEnd?_eq_some_iff {ending text rest : List Char} :
    dropEnd? ending text = some rest ↔ text = rest ++ ending := by
  rw [dropEnd?]
  split
  · rename_i hends
    obtain ⟨front, rfl⟩ := List.isSuffixOf_iff_suffix.1 hends
    simp [eq_comm]
  · rename_i hends
    constructor
    · intro h
      cases h
    · rintro rfl
      exact absurd (List.isSuffixOf_iff_suffix.2 (List.suffix_append ..)) hends

/-- A beginning is taken off exactly if it is there, and only once. -/
theorem dropStart?_eq_some_iff {start text rest : List Char} :
    dropStart? start text = some rest ↔ text = start ++ rest := by
  rw [dropStart?]
  split
  · rename_i hstarts
    obtain ⟨behind, rfl⟩ := List.isPrefixOf_iff_prefix.1 hstarts
    simp
  · rename_i hstarts
    constructor
    · intro h
      cases h
    · rintro rfl
      exact absurd (List.isPrefixOf_iff_prefix.2 (List.prefix_append ..)) hstarts

end KeyedRows.Text
