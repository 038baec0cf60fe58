import KeyedRows.Guarded.Reader
import KeyedRows.Record
import KeyedRows.Row.Sortable
import KeyedRows.Schema.Column

namespace KeyedRows.Guarded

/-- What a group of a byte string in a key holds without its filling, and whether
more groups follow. -/
def judgeGroup (group : Bytes) : Except Fault (Except Error (Bytes × Bool)) := do
  let marker ← Guard.element group Frame.groupSize
  if marker = Frame.fullGroup then
    let data ← Guard.range group 0 Frame.groupSize
    return .ok (data, true)
  else
    let padding ← Guard.difference Frame.fullGroup.toNat marker.toNat
    if padding = 0 then throw .impossible
    else if Frame.groupSize < padding then return .error (.badGroupMarker marker)
    else
      let kept ← Guard.difference Frame.groupSize padding
      let data ← Guard.range group 0 kept
      return .ok (data, false)

/-- Reads groups up to the last and joins their bytes. -/
def groups (bare : Bare) : Except Fault (Except Error Bytes × Bare) :=
  match _h : take (Frame.groupSize + 1) bare with
  | .error fault => .error fault
  | .ok (.error e, after) => .ok (.error e, after)
  | .ok (.ok group, after) =>
    match judgeGroup group with
    | .error fault => .error fault
    | .ok (.error e) => .ok (.error e, after)
    | .ok (.ok (data, false)) => .ok (.ok data, after)
    | .ok (.ok (data, true)) =>
      match groups after with
      | .error fault => .error fault
      | .ok (.error e, stop) => .ok (.error e, stop)
      | .ok (.ok rest, stop) => .ok (.ok (data ++ rest), stop)
termination_by bare.stop - bare.pos
decreasing_by
  have := left_take _h
  simp only [Frame.groupSize] at this
  omega

/-- Reads the groups of one byte string. -/
def groupBytes : Guarded Bytes :=
  groups

/-- Reads bytes as text. -/
def text (bytes : Bytes) : Guarded String :=
  match Utf8.decode bytes with
  | .ok text => pure text
  | .error fault => fail (.notText fault)

/-- Reads the marker of a column, if it has markers, and moves over the zeros of an
absent value. The answer is whether a value follows. -/
def marker (column : Column) : Guarded Bool := do
  if column.nullable then
    let marker ← byte
    if marker = Frame.presentMarker then return true
    else if marker = Frame.absentMarker then
      match column.type.width? with
      | some width => skip width
      | none => pure ()
      return false
    else fail (.badNullMarker marker column.ordinal)
  else return true

/-- Reads an item of a key. -/
def keyItem : (kind : Scalar) → Guarded kind.Item
  | .bool => return (← byte) != 0
  | .int32 => return Int32.ofInt (Sortable.toSigned signBit32 (← uint32).toNat)
  | .int64 => return Int64.ofInt (Sortable.toSigned signBit64 (← uint64).toNat)
  | .float32 => return ⟨UInt32.ofNat (Sortable.toPattern signBit32 (← uint32).toNat)⟩
  | .float64 => return ⟨UInt64.ofNat (Sortable.toPattern signBit64 (← uint64).toNat)⟩
  | .string => do text (← groupBytes)

/-- Reads a slot of a key column, which is not to be a list. -/
def keySlot (column : Column) : Guarded Slot := do
  if ← marker column then
    match column.type with
    | .scalar kind => return some (.scalar kind (← keyItem kind))
    | .list _ => check (.error .impossible)
  else return none

/-- Moves over a slot of a key column. What has no width is a string. -/
def skipKeySlot (column : Column) : Guarded Unit := do
  if ← marker column then
    match column.type.width? with
    | some width => skip width
    | none =>
      if column.type = .scalar .string then
        let _ ← groupBytes
      else check (.error .impossible)

/-- Reads an item of a column outside the key. -/
def item : (kind : Scalar) → Guarded kind.Item
  | .bool => return (← byte) != 0
  | .int32 => int32
  | .int64 => int64
  | .float32 => return ⟨(← int32).toUInt32⟩
  | .float64 => return ⟨(← int64).toUInt64⟩
  | .string => do text (← sized)

/-- The largest machine word, at which products stop when they are to be compared. -/
def wordLimit : Nat := UInt64.size - 1

/-- Reads the count of a list whose items have at least some width. -/
def count (width : Nat) : Guarded Nat := do
  let count ← length
  let left ← remaining
  let needed := min (count * width) wordLimit
  if left < needed then fail (.truncated needed left) else return count

/-- Reads a slot of a column outside the key. -/
def valueSlot (column : Column) : Guarded Slot := do
  if ← marker column then
    match column.type with
    | .scalar kind => return some (.scalar kind (← item kind))
    | .list kind =>
      let count ← count (kind.width?.getD Frame.lengthSize)
      return some (.list kind (← repeated (item kind) count))
  else return none

/-- Moves over the items of a list of a fixed width, all at once. -/
def skipWidths (count width : Nat) : Guarded Unit := do
  let size ← look fun bare => Guard.upTo bare.data.length (count * width)
  skip size

/-- Moves over a slot of a column outside the key. Items that are no strings are to
have a width. -/
def skipValueSlot (column : Column) : Guarded Unit := do
  if ← marker column then
    match column.type.width?, column.type.item? with
    | some width, _ => skip width
    | none, none => skipSized
    | none, some .string =>
      let count ← count Frame.lengthSize
      let _ ← repeated skipSized count
    | none, some kind =>
      match kind.width? with
      | some width =>
        let count ← count width
        skipWidths count width
      | none => check (.error .impossible)

end KeyedRows.Guarded
