import KeyedRows.Row.Marker
import KeyedRows.Row.Frame

namespace KeyedRows

/-- Whether a slot may stand in a column: a value of the column's type, or nothing
if the column is nullable. -/
def Column.Admits (column : Column) : Slot → Prop
  | some value => value.type = column.type
  | none => column.nullable = true

instance (column : Column) (slot : Slot) : Decidable (column.Admits slot) :=
  match slot with
  | some value => inferInstanceAs (Decidable (value.type = column.type))
  | none => inferInstanceAs (Decidable (column.nullable = true))

/-- The check of a slot passes exactly if the column admits the slot. -/
theorem Column.checkSlot_eq_ok_iff {column : Column} {slot : Slot} :
    column.checkSlot slot = .ok () ↔ column.Admits slot := by
  cases slot with
  | none =>
    simp only [checkSlot, Admits]
    split <;> simp_all
  | some value =>
    simp only [checkSlot, Admits]
    split <;> simp_all

/-- Whether an item is short enough for its length field, if it has one. -/
def Scalar.Fits : (kind : Scalar) → kind.Item → Prop
  | .string, s => (Utf8.encode s).length < Frame.lengthLimit
  | _, _ => True

/-- Whether a value is short enough for its length fields. -/
def Value.Fits : Value → Prop
  | scalar kind item => kind.Fits item
  | list kind items => items.length < Frame.lengthLimit ∧ ∀ item ∈ items, kind.Fits item

namespace Record

/-- Whether a row has one slot for every column, and each admits its own. A row that
conforms can be stored unless its strings or lists are too long for their length
fields. -/
def Conforms (record : Record) (columns : Schema) : Prop :=
  record.size = columns.length ∧
    ∀ column ∈ columns, ∃ slot, record.slot? column.ordinal = some slot ∧ column.Admits slot

/-- Whether all values of a row are short enough for their length fields. -/
def Fits (record : Record) : Prop :=
  ∀ value, some value ∈ record.slots → value.Fits

end Record

end KeyedRows
