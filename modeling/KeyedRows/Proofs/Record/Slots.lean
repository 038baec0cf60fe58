import KeyedRows.Record
import KeyedRows.Schema.Column

namespace KeyedRows.Record

variable {record other : Record} {slot : Slot} {ordinal place : Nat} {ordinals : List Nat}

private theorem ext_slot? (h : ∀ place, record.slot? place = other.slot? place) : record = other := by
  obtain ⟨slots⟩ := record
  obtain ⟨slots'⟩ := other
  exact congrArg Record.mk (List.ext_getElem? h)

/-- There is no slot at a place exactly if the row ends before it. A slot that holds
nothing is a slot all the same. -/
theorem slot?_eq_none_iff : record.slot? place = none ↔ record.size ≤ place :=
  List.getElem?_eq_none_iff

/-- A row has a slot at every place below its size. -/
theorem exists_slot_of_lt (hlt : place < record.size) : ∃ slot, record.slot? place = some slot :=
  ⟨record.slots[place], List.getElem?_eq_getElem hlt⟩

@[simp]
theorem size_absent (count : Nat) : (absent count).size = count :=
  List.length_replicate

theorem slot?_absent {count : Nat} (hlt : place < count) :
    (absent count).slot? place = some none := by
  simp [slot?, absent, hlt]

private theorem set_of_lt (hlt : ordinal < record.size) :
    record.set ordinal slot = ⟨record.slots.set ordinal slot⟩ := by
  have hmissing : ordinal + 1 - record.slots.length = 0 := Nat.sub_eq_zero_of_le hlt
  simp [set, hmissing]

theorem size_set (hlt : ordinal < record.size) : (record.set ordinal slot).size = record.size := by
  rw [set_of_lt hlt, size, size, List.length_set]

/-- Setting a slot that a row has changes this slot and no other. -/
theorem slot?_set (hlt : ordinal < record.size) :
    (record.set ordinal slot).slot? place =
      if ordinal = place then some slot else record.slot? place := by
  have hin : ordinal < record.slots.length := hlt
  rw [set_of_lt hlt, slot?, slot?, List.getElem?_set, if_pos hin]

/-- The row with only the slots at given ordinals kept; all others are empty. -/
def only (record : Record) (ordinals : List Nat) : Record :=
  ⟨record.slots.mapIdx fun place slot => if place ∈ ordinals then slot else none⟩

@[simp]
theorem size_only : (record.only ordinals).size = record.size :=
  List.length_mapIdx

/-- Of the slots of a row those that are kept hold what they held, and the others
nothing. -/
theorem slot?_only : (record.only ordinals).slot? place =
    (record.slot? place).map fun slot => if place ∈ ordinals then slot else none :=
  List.getElem?_mapIdx

theorem only_absent (count : Nat) : (absent count).only ordinals = absent count := by
  apply ext_slot?
  intro place
  rw [slot?_only]
  by_cases hlt : place < count
  · simp [slot?_absent hlt]
  · have hnone : (absent count).slot? place = none := by
      rw [slot?_eq_none_iff, size_absent]
      exact Nat.le_of_not_lt hlt
    rw [hnone]
    rfl

/-- A slot that is kept may be set before or after the others are emptied. -/
theorem only_set_of_mem (hlt : ordinal < record.size) (hmem : ordinal ∈ ordinals) :
    (record.set ordinal slot).only ordinals = (record.only ordinals).set ordinal slot := by
  apply ext_slot?
  intro place
  rw [slot?_only, slot?_set hlt, slot?_set (by rwa [size_only]), slot?_only]
  by_cases heq : ordinal = place
  · subst heq
    simp [hmem]
  · rw [if_neg heq, if_neg heq]

/-- A slot that is not kept need not be set at all. -/
theorem only_set_of_not_mem (hlt : ordinal < record.size) (hmem : ordinal ∉ ordinals) :
    (record.set ordinal slot).only ordinals = record.only ordinals := by
  apply ext_slot?
  intro place
  rw [slot?_only, slot?_set hlt, slot?_only]
  by_cases heq : ordinal = place
  · subst heq
    obtain ⟨old, hold⟩ := exists_slot_of_lt hlt
    simp [hmem, hold]
  · rw [if_neg heq]

/-- A row all of whose slots are kept stays as it is. -/
theorem only_eq_self (hall : ∀ place < record.size, place ∈ ordinals) :
    record.only ordinals = record := by
  apply ext_slot?
  intro place
  rw [slot?_only]
  by_cases hplace : place < record.size
  · obtain ⟨slot, hslot⟩ := exists_slot_of_lt hplace
    simp [hslot, hall place hplace]
  · rw [slot?_eq_none_iff.2 (Nat.le_of_not_lt hplace)]
    rfl

/-- The row with the slots at given ordinals taken from another one. -/
def fill (record source : Record) (ordinals : List Nat) : Record :=
  ordinals.foldl (fun record ordinal => record.set ordinal (source.value? ordinal)) record

theorem fill_append (source : Record) (early late : List Nat) :
    record.fill source (early ++ late) = (record.fill source early).fill source late :=
  List.foldl_append

/-- Slots that are filled from another row hold what that row has there, and all
others what they held. No slot may be named that the row lacks; naming one twice
does no harm. -/
theorem slot?_fill (source : Record) (hlt : ∀ ordinal ∈ ordinals, ordinal < record.size) :
    (record.fill source ordinals).slot? place =
      if place ∈ ordinals then some (source.value? place) else record.slot? place := by
  induction ordinals generalizing record with
  | nil => simp [fill]
  | cons ordinal ordinals ih =>
    have hfirst := hlt ordinal List.mem_cons_self
    have hsize : (record.set ordinal (source.value? ordinal)).size = record.size := size_set hfirst
    have hrest := ih fun other hmem => hsize.symm ▸ hlt other (List.mem_cons_of_mem _ hmem)
    rw [fill, List.foldl_cons, ← fill, hrest, slot?_set hfirst]
    by_cases hmem : place ∈ ordinals
    · simp [hmem]
    · by_cases heq : ordinal = place
      · simp [heq]
      · simp [hmem, heq, Ne.symm heq]

/-- Filling an empty row from another one keeps the slots at these ordinals only. No
ordinal may lie outside the row. -/
theorem fill_absent (hlt : ∀ ordinal ∈ ordinals, ordinal < record.size) :
    (absent record.size).fill record ordinals = record.only ordinals := by
  apply ext_slot?
  intro place
  rw [slot?_fill _ (by rwa [size_absent]), slot?_only]
  by_cases hplace : place < record.size
  · obtain ⟨slot, hslot⟩ := exists_slot_of_lt hplace
    rw [slot?_absent hplace, value?, hslot]
    by_cases hmem : place ∈ ordinals <;> simp [hmem]
  · have hnone : record.slot? place = none := slot?_eq_none_iff.2 (Nat.le_of_not_lt hplace)
    have habsent : (absent record.size).slot? place = none := by
      rw [slot?_eq_none_iff, size_absent]
      exact Nat.le_of_not_lt hplace
    rw [hnone, habsent, if_neg (fun hmem => hplace (hlt place hmem))]
    rfl

end KeyedRows.Record
