import KeyedRows.Proofs.Group.Order
import KeyedRows.Row.Conforming
import KeyedRows.Row.Layout
import KeyedRows.Schema.Estimate

namespace KeyedRows

variable {settings : Settings} {order : ByteOrder} {width : Nat}

/-- Whether an item is no longer than assumed, if it is a string. -/
def Scalar.Within (settings : Settings) : (kind : Scalar) → kind.Item → Prop
  | .string, s => (Utf8.encode s).length ≤ settings.stringLength
  | _, _ => True

/-- Whether the strings and the list in a value are no longer than assumed. -/
def Value.Within (settings : Settings) : Value → Prop
  | scalar kind item => kind.Within settings item
  | list kind items => items.length ≤ settings.listLength ∧ ∀ item ∈ items, kind.Within settings item

/-- Whether the value in a slot, if there is one, is no longer than assumed. -/
def Slot.Within (settings : Settings) (slot : Slot) : Prop :=
  ∀ value, slot = some value → value.Within settings

namespace Settings

private theorem keyRoom_of_width {type : ColumnType} (hwidth : type.width? = some width) :
    settings.keyRoom type = width := by
  rw [keyRoom, hwidth]

private theorem itemRoom_of_width {kind : Scalar} (hwidth : kind.width? = some width) :
    settings.itemRoom kind = width := by
  rw [itemRoom, hwidth]

private theorem valueRoom_of_width {type : ColumnType} (hwidth : type.width? = some width) :
    settings.valueRoom type = width := by
  cases type with
  | scalar kind => exact itemRoom_of_width hwidth
  | list kind => cases hwidth

end Settings

namespace Scalar

variable {kind : Scalar} {item : kind.Item}

/-- Items of a type of fixed width take this width in a key. -/
theorem length_keyBytes (hwidth : kind.width? = some width) : (kind.keyBytes item).length = width := by
  cases kind with
  | string => cases hwidth
  | bool =>
    cases hwidth
    rfl
  | int32 | int64 | float32 | float64 =>
    cases hwidth
    exact ByteOrder.length_word ..

/-- Items of a type of fixed width take this width outside the key too. -/
theorem length_valueBytes (hwidth : kind.width? = some width) :
    (kind.valueBytes order item).length = width := by
  cases kind with
  | string => cases hwidth
  | bool =>
    cases hwidth
    rfl
  | int32 | int64 | float32 | float64 =>
    cases hwidth
    exact ByteOrder.length_word ..

/-- An item that is no longer than assumed takes no more in a key than is set aside
for it. -/
theorem length_keyBytes_le (hwithin : kind.Within settings item) :
    (kind.keyBytes item).length ≤ settings.keyRoom (.scalar kind) := by
  cases kind with
  | string =>
    have hgroups := Nat.div_le_div_right (c := Frame.groupSize) hwithin
    rw [keyBytes, Group.length_encode]
    exact Nat.mul_le_mul_right _ (Nat.succ_le_succ hgroups)
  | bool | int32 | int64 | float32 | float64 => exact Nat.le_of_eq (length_keyBytes rfl)

/-- An item that is no longer than assumed takes no more outside the key than is set
aside for it. -/
theorem length_valueBytes_le (hwithin : kind.Within settings item) :
    (kind.valueBytes order item).length ≤ settings.itemRoom kind := by
  cases kind with
  | string =>
    rw [valueBytes, List.length_append, ByteOrder.length_word]
    exact Nat.add_le_add_left hwithin _
  | bool | int32 | int64 | float32 | float64 => exact Nat.le_of_eq (length_valueBytes rfl)

private theorem length_flatMap_valueBytes_le {items : List kind.Item}
    (hwithin : ∀ item ∈ items, kind.Within settings item) :
    (items.flatMap (kind.valueBytes order)).length ≤ items.length * settings.itemRoom kind := by
  induction items with
  | nil => simp
  | cons item items ih =>
    rw [List.forall_mem_cons] at hwithin
    have hitem : (kind.valueBytes order item).length ≤ settings.itemRoom kind :=
      length_valueBytes_le hwithin.1
    rw [List.length_cons, Nat.succ_mul, List.flatMap_cons, List.length_append, Nat.add_comm]
    exact Nat.add_le_add (ih hwithin.2) hitem

end Scalar

namespace Value

variable {value : Value}

/-- Values of a type of fixed width take this width in a key. -/
theorem length_keyBytes (hwidth : value.type.width? = some width) : value.keyBytes.length = width := by
  cases value with
  | scalar kind item => exact Scalar.length_keyBytes hwidth
  | list kind items => cases hwidth

/-- Values of a type of fixed width take this width outside the key too. -/
theorem length_valueBytes (hwidth : value.type.width? = some width) :
    (value.valueBytes order).length = width := by
  cases value with
  | scalar kind item => exact Scalar.length_valueBytes hwidth
  | list kind items => cases hwidth

/-- A value that is no longer than assumed takes no more in a key than is set aside
for it. -/
theorem length_keyBytes_le (hwithin : value.Within settings) :
    value.keyBytes.length ≤ settings.keyRoom value.type := by
  cases value with
  | scalar kind item => exact Scalar.length_keyBytes_le hwithin
  | list kind items => exact Nat.zero_le _

/-- A value that is no longer than assumed takes no more outside the key than is set
aside for it, its count or length included. -/
theorem length_valueBytes_le (hwithin : value.Within settings) :
    (value.valueBytes order).length ≤ settings.valueRoom value.type := by
  cases value with
  | scalar kind item => exact Scalar.length_valueBytes_le hwithin
  | list kind items =>
    obtain ⟨hcount, hitems⟩ := hwithin
    rw [valueBytes, List.length_append, ByteOrder.length_word]
    apply Nat.add_le_add_left
    calc (items.flatMap (kind.valueBytes order)).length
        ≤ items.length * settings.itemRoom kind := Scalar.length_flatMap_valueBytes_le hitems
      _ ≤ settings.listLength * settings.itemRoom kind := Nat.mul_le_mul_right _ hcount

end Value

namespace Column

variable {column : Column} {slot : Slot} {bytes : Value → Bytes} {room : ColumnType → Nat}

/-- A slot takes its marker, and the value or the zeros that stand for none. This is
shared by key columns and others, which differ in the bytes of values alone. -/
theorem length_slotBytes (hadmits : column.Admits slot) :
    (column.markerBytes slot ++ slot.elim [] bytes).length =
      Schema.markerRoom column + slot.elim column.fillerSize fun value => (bytes value).length := by
  cases slot with
  | none =>
    have hnullable : column.nullable = true := hadmits
    simp [markerBytes, Schema.markerRoom, hnullable, Frame.markerSize, Nat.add_comm]
  | some value =>
    cases hnullable : column.nullable <;>
      simp [markerBytes, Schema.markerRoom, hnullable, Frame.markerSize, Nat.add_comm]

/-- A slot takes no more than is set aside if no value does, since the zeros for an
absent value take no more than the value would. What is set aside for a type must be
its width if it has one; for all other types it only has to be enough. -/
theorem length_slotBytes_le (hadmits : column.Admits slot)
    (hfiller : ∀ width, column.type.width? = some width → room column.type = width)
    (hvalue : ∀ value, slot = some value → (bytes value).length ≤ room value.type) :
    (column.markerBytes slot ++ slot.elim [] bytes).length ≤
      Schema.markerRoom column + room column.type := by
  rw [length_slotBytes hadmits]
  apply Nat.add_le_add_left
  cases slot with
  | none =>
    rw [Option.elim_none, fillerSize]
    cases hwidth : column.type.width? with
    | none => exact Nat.zero_le _
    | some width => exact Nat.le_of_eq (hfiller width hwidth).symm
  | some value =>
    have htype : value.type = column.type := hadmits
    exact htype ▸ hvalue value rfl

/-- In a column of fixed width every slot takes as much as is set aside, whether it
holds a value or not. -/
theorem length_slotBytes_eq (hadmits : column.Admits slot) (hwidth : column.type.width? = some width)
    (hroom : room column.type = width)
    (hvalue : ∀ value, slot = some value → value.type.width? = some width →
      (bytes value).length = width) :
    (column.markerBytes slot ++ slot.elim [] bytes).length =
      Schema.markerRoom column + room column.type := by
  rw [length_slotBytes hadmits, hroom]
  congr 1
  cases slot with
  | none => rw [Option.elim_none, fillerSize, hwidth, Option.getD_some]
  | some value =>
    have htype : value.type = column.type := hadmits
    exact hvalue value rfl (htype ▸ hwidth)

/-- A slot takes no more in a key than its marker and what is set aside for its
value. The column must admit the slot, or the marker could be missing. -/
theorem length_keyBytes_le (hadmits : column.Admits slot) (hwithin : slot.Within settings) :
    (column.keyBytes slot).length ≤ Schema.markerRoom column + settings.keyRoom column.type :=
  length_slotBytes_le hadmits (fun _ => Settings.keyRoom_of_width)
    fun value hvalue => Value.length_keyBytes_le (hwithin value hvalue)

/-- A slot takes no more outside the key than its marker and what is set aside for
its value, if the column admits it. -/
theorem length_valueBytes_le (hadmits : column.Admits slot) (hwithin : slot.Within settings) :
    (column.valueBytes order slot).length ≤
      Schema.markerRoom column + settings.valueRoom column.type :=
  length_slotBytes_le hadmits (fun _ => Settings.valueRoom_of_width)
    fun value hvalue => Value.length_valueBytes_le (hwithin value hvalue)

/-- In a key column of fixed width every slot that it admits takes the same room, an
absent value included. -/
theorem length_keyBytes_eq (hadmits : column.Admits slot) (hwidth : column.type.width? = some width) :
    (column.keyBytes slot).length = Schema.markerRoom column + settings.keyRoom column.type :=
  length_slotBytes_eq hadmits hwidth (Settings.keyRoom_of_width hwidth)
    fun _ _ hvalue => Value.length_keyBytes hvalue

/-- In a column of fixed width outside the key every slot that it admits takes the
same room, an absent value included. -/
theorem length_valueBytes_eq (hadmits : column.Admits slot) (hwidth : column.type.width? = some width) :
    (column.valueBytes order slot).length =
      Schema.markerRoom column + settings.valueRoom column.type :=
  length_slotBytes_eq hadmits hwidth (Settings.valueRoom_of_width hwidth)
    fun _ _ hvalue => Value.length_valueBytes hvalue

end Column

end KeyedRows
