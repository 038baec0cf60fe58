import KeyedRows.Value.Basic

namespace KeyedRows

/-- What stands in one place of a row: a value, or nothing if the value is absent. -/
abbrev Slot := Option Value

/-- One row. The slot of a column is at the column's ordinal. -/
structure Record where
  slots : List Slot
deriving DecidableEq

namespace Record

/-- A row of absent values. -/
def absent (count : Nat) : Record :=
  ⟨List.replicate count none⟩

/-- The number of slots. -/
def size (record : Record) : Nat :=
  record.slots.length

/-- The slot at an ordinal, if the row has one there. -/
def slot? (record : Record) (ordinal : Nat) : Option Slot :=
  record.slots[ordinal]?

/-- The value at an ordinal; there is none if the slot is empty or missing. -/
def value? (record : Record) (ordinal : Nat) : Option Value :=
  (record.slot? ordinal).join

/-- The row with another slot at an ordinal. A row that is too short gets empty
slots up to it. -/
def set (record : Record) (ordinal : Nat) (slot : Slot) : Record :=
  let missing := ordinal + 1 - record.slots.length
  ⟨(record.slots ++ List.replicate missing none).set ordinal slot⟩

/-- Whether two slots are equal as numbers. -/
def slotNumericEq : Slot → Slot → Bool
  | some a, some b => a.numericEq b
  | none, none => true
  | _, _ => false

/-- Whether two rows are equal as numbers, slot by slot. -/
def numericEq (a b : Record) : Bool :=
  a.slots.length == b.slots.length && (a.slots.zip b.slots).all fun (s, t) => slotNumericEq s t

end Record

end KeyedRows
