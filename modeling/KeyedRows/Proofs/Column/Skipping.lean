import KeyedRows.Proofs.Reader.Shadowing
import KeyedRows.Row.ValueColumn

namespace KeyedRows

open Reader

namespace Scalar

private theorem judges_readText (bytes : Bytes) : Judges (readText bytes) := by
  intro cursor
  rw [readText]
  cases Utf8.decode bytes with
  | ok text => exact Or.inl ⟨text, rfl⟩
  | error fault => exact Or.inr ⟨_, cursor, rfl, rfl⟩

private theorem shadows_skipKeyItem (kind : Scalar) (cursor : Cursor) :
    Shadows kind.skipKeyItem kind.readKeyItem cursor := by
  cases kind with
  | bool => exact (shadows_byte cursor).map _
  | int32 | float32 => exact (shadows_uint32 cursor).map _
  | int64 | float64 => exact (shadows_uint64 cursor).map _
  | string => exact (shadows_forget Group.reader cursor).judge judges_readText

private theorem shadows_skipItem (kind : Scalar) (cursor : Cursor) :
    Shadows kind.skipItem kind.readItem cursor := by
  cases kind with
  | bool => exact (shadows_byte cursor).map _
  | int32 => exact shadows_int32 cursor
  | int64 => exact shadows_int64 cursor
  | float32 => exact (shadows_int32 cursor).map _
  | float64 => exact (shadows_int64 cursor).map _
  | string => exact (shadows_sized cursor).judge judges_readText

/-- A count that is accepted leaves room for that many items. This is what makes it
safe to move over all items at once. -/
theorem leastSize_mul_le_remaining {kind : Scalar} {count : Nat} {cursor after : Cursor}
    (hcount : kind.readCount cursor = (.ok count, after)) :
    count * kind.leastSize ≤ after.remaining := by
  rw [readCount, bind_ok_iff] at hcount
  obtain ⟨length, middle, -, hcount⟩ := hcount
  rw [bind_of_ok (rfl : remaining middle = (.ok _, middle))] at hcount
  by_cases hshort : middle.remaining < length * kind.leastSize
  · simp only [if_pos hshort] at hcount
    cases hcount
  · simp only [if_neg hshort] at hcount
    cases hcount
    exact Nat.le_of_not_lt hshort

private theorem shadows_skipItems {kind : Scalar} {count : Nat} {cursor : Cursor}
    (hroom : count * kind.leastSize ≤ cursor.remaining) :
    Shadows (kind.skipItems count) (repeated kind.readItem count) cursor := by
  have hitem := kind.shadows_skipItem
  cases hwidth : kind.width? with
  | none =>
    simp only [skipItem, skipItems, hwidth] at hitem ⊢
    exact shadows_repeated hitem count cursor
  | some width =>
    simp only [leastSize, hwidth, Option.getD_some] at hroom
    simp only [skipItem, skipItems, hwidth] at hitem ⊢
    exact shadows_repeated_width hitem count cursor hroom

end Scalar

namespace Column

variable (column : Column) (cursor : Cursor)

/-- Moving over a slot of a key stops where reading it stops and meets the same
faults, text apart. This holds for any bytes. -/
theorem shadows_skipKey : Shadows column.skipKey column.readKey cursor := by
  apply Shadows.bind
  intro present middle _
  cases present with
  | false => exact shadows_pure none middle
  | true =>
    simp only [if_true]
    cases column.type with
    | scalar kind => exact (kind.shadows_skipKeyItem middle).map _
    | list kind => exact shadows_fail _ middle

/-- Moving over a slot outside the key stops where reading it stops and meets the
same faults, text apart. Items of one width are moved over at once, which the check
of the count makes safe. -/
theorem shadows_skipValue : Shadows column.skipValue column.readValue cursor := by
  apply Shadows.bind
  intro present middle _
  cases present with
  | false => exact shadows_pure none middle
  | true =>
    simp only [if_true]
    cases column.type with
    | scalar kind => exact (kind.shadows_skipItem middle).map _
    | list kind =>
      apply Shadows.bind
      intro count place hcount
      exact (Scalar.shadows_skipItems (Scalar.leastSize_mul_le_remaining hcount)).map _

end Column

end KeyedRows
