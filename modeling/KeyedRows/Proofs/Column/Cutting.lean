import KeyedRows.Proofs.Group.Reading
import KeyedRows.Proofs.Reader.Cutting
import KeyedRows.Row.ValueColumn

namespace KeyedRows

open Reader

/-- Groups are read until one says that it is the last, or until the bytes run out.
The induction follows the reader: each group moves both cursors on by the same
bytes. -/
theorem Group.stands_reader {short long : Cursor} {rest : Bytes} (hcut : short.Cut long rest) :
    reader.Stands short long rest := by
  have hgroup := steady_take (Frame.groupSize + 1) short long rest hcut
  rw [reader_eq]
  apply hgroup.bind
  intro group after stop htake hcut
  rw [readBehind]
  cases Marker.of ((group.drop Frame.groupSize).headD 0) with
  | bad => exact steady_fail _ after stop rest hcut
  | last padding => exact steady_pure _ after stop rest hcut
  | more =>
    apply (stands_reader hcut).bind
    intro bytes after stop _ hcut
    exact steady_pure _ after stop rest hcut
termination_by short.remaining
decreasing_by
  have := remaining_take htake
  simp only [Frame.groupSize] at this
  omega

namespace Scalar

private theorem steady_readText (bytes : Bytes) : Steady (readText bytes) := by
  rw [readText]
  cases Utf8.decode bytes with
  | ok text => exact steady_pure text
  | error fault => exact steady_fail _

private theorem steady_readKeyItem (kind : Scalar) : Steady kind.readKeyItem := by
  cases kind with
  | bool => exact steady_byte.map _
  | int32 | float32 => exact steady_uint32.map _
  | int64 | float64 => exact steady_uint64.map _
  | string =>
    have hgroups : Steady Group.reader := fun _ _ _ hcut => Group.stands_reader hcut
    exact hgroups.bind steady_readText

private theorem steady_readItem (kind : Scalar) : Steady kind.readItem := by
  cases kind with
  | bool => exact steady_byte.map _
  | int32 => exact steady_int32
  | int64 => exact steady_int64
  | float32 => exact steady_int32.map _
  | float64 => exact steady_int64.map _
  | string => exact steady_sized.bind steady_readText

/-- A count is refused on fewer bytes if they cannot hold that many items, and then
the bytes run out. If it is accepted there, it is on more bytes. -/
theorem steady_readCount (kind : Scalar) : Steady kind.readCount := by
  apply steady_length.bind
  intro count short long rest hcut
  rw [Stands, RunsOut, bind_of_ok (rfl : remaining short = (.ok _, short)),
    bind_of_ok (rfl : remaining long = (.ok _, long))]
  by_cases hroom : short.remaining < count * kind.leastSize
  · simp only [if_pos hroom]
    exact .inl ⟨_, _, short, rfl⟩
  · have hroom' : ¬long.remaining < count * kind.leastSize := by
      rw [hcut.remaining]
      omega
    simp only [if_neg hroom, if_neg hroom']
    exact .inr ⟨.ok count, short, long, rfl, rfl, hcut⟩

end Scalar

namespace Column

variable (column : Column)

private theorem steady_readMarker : Steady column.readMarker := by
  rw [readMarker]
  cases column.nullable with
  | false => exact steady_pure true
  | true =>
    apply steady_byte.bind
    intro marker
    by_cases hpresent : marker = Frame.presentMarker
    · rw [if_pos hpresent]
      exact steady_pure true
    · rw [if_neg hpresent]
      by_cases habsent : marker = Frame.absentMarker
      · rw [if_pos habsent]
        exact (steady_skip _).map fun _ => false
      · rw [if_neg habsent]
        exact steady_fail _

/-- Reading a key column does the same on cut bytes, unless it runs out of them.
Nothing is asked of the column. -/
theorem steady_readKey : Steady column.readKey := by
  apply column.steady_readMarker.bind
  intro present
  cases present with
  | false => exact steady_pure none
  | true =>
    simp only [if_true]
    cases column.type with
    | scalar kind => exact kind.steady_readKeyItem.map _
    | list kind => exact steady_fail _

/-- Reading a column outside the key does the same on cut bytes, unless it runs out
of them, even though a count is compared with all bytes that are left. -/
theorem steady_readValue : Steady column.readValue := by
  apply column.steady_readMarker.bind
  intro present
  cases present with
  | false => exact steady_pure none
  | true =>
    simp only [if_true]
    cases column.type with
    | scalar kind => exact kind.steady_readItem.map _
    | list kind =>
      apply kind.steady_readCount.bind
      intro count
      exact (steady_repeated kind.steady_readItem count).map _

end Column

end KeyedRows
