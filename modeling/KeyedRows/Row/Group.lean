import KeyedRows.Cursor

namespace KeyedRows.Group

/-- The last group of a byte string, for the fewer than eight bytes that are left. -/
def encodeLast (bytes : Bytes) : Bytes :=
  let padding := Frame.groupSize - bytes.length
  bytes ++ List.replicate padding 0 ++ [Frame.fullGroup - UInt8.ofNat padding]

/-- The form of a byte string of any length in a key. The string is cut into groups
of eight, the last of which is shorter and filled up with zeros; if the length is a
multiple of eight, it is filling only. The byte behind a group says whether more
follow and, if not, how much was filled up. So the forms compare like the strings,
and none is the beginning of another. -/
def encode (bytes : Bytes) : Bytes :=
  if (bytes.drop (Frame.groupSize - 1)).isEmpty then encodeLast bytes
  else bytes.take Frame.groupSize ++ Frame.fullGroup :: encode (bytes.drop Frame.groupSize)
termination_by bytes.length
decreasing_by
  simp only [Frame.groupSize, List.isEmpty_iff, List.drop_eq_nil_iff, List.length_drop] at *
  omega

/-- What the byte behind a group says. -/
inductive Marker where
  /-- The group is full, and more follow. -/
  | more
  /-- The group is the last, and ends in some bytes of filling. -/
  | last (padding : Nat)
  | bad
deriving DecidableEq

/-- Reads the byte behind a group. -/
def Marker.of (byte : UInt8) : Marker :=
  if byte = Frame.fullGroup then more
  else
    let padding := (Frame.fullGroup - byte).toNat
    if padding = 0 ∨ Frame.groupSize < padding then bad else last padding

/-- Reads groups up to the last and joins their bytes. Filling is not looked at. -/
def read (cursor : Cursor) : Except Error Bytes × Cursor :=
  match _h : Reader.take (Frame.groupSize + 1) cursor with
  | (.error e, after) => (.error e, after)
  | (.ok group, after) =>
    let marker := (group.drop Frame.groupSize).headD 0
    match Marker.of marker with
    | .bad => (.error (.badGroupMarker marker), after)
    | .last padding => (.ok (group.take (Frame.groupSize - padding)), after)
    | .more =>
      match read after with
      | (.ok rest, stop) => (.ok (group.take Frame.groupSize ++ rest), stop)
      | (.error e, stop) => (.error e, stop)
termination_by cursor.remaining
decreasing_by
  have := Reader.remaining_take _h
  simp only [Frame.groupSize] at this
  omega

/-- The reader of the groups of one byte string. -/
def reader : Reader Bytes := read

end KeyedRows.Group
