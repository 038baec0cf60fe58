import KeyedRows.Region
import KeyedRows.Row.Group

namespace KeyedRows.Group

/-- Writes the groups of a byte string, one behind the other. -/
def writeGroups (bytes : Bytes) (region : Region) : Region :=
  if Frame.groupSize ≤ bytes.length then
    writeGroups (bytes.drop Frame.groupSize)
      ((region.push (bytes.take Frame.groupSize)).push [Frame.fullGroup])
  else
    let padding := Frame.groupSize - bytes.length
    ((region.push bytes).pushZeros padding).push [Frame.fullGroup - UInt8.ofNat padding]
termination_by bytes.length
decreasing_by
  simp only [Frame.groupSize, List.length_drop] at *
  omega

/-- Makes room for all groups of a byte string and then writes them one at a time.
No region is left for a larger one in between. -/
def write (bytes : Bytes) (region : Region) : Region :=
  let count := bytes.length / Frame.groupSize + 1
  writeGroups bytes (region.reserve (count * (Frame.groupSize + 1)))

/-- Reads groups up to the last and hands the bytes of each one to a sink, without
the filling. What the sink was given before a failure it keeps. -/
def scan {σ : Type} (sink : σ → Bytes → σ) (state : σ) (cursor : Cursor) :
    Except Error Unit × σ × Cursor :=
  match _h : Reader.take (Frame.groupSize + 1) cursor with
  | (.error e, after) => (.error e, state, after)
  | (.ok group, after) =>
    let marker := (group.drop Frame.groupSize).headD 0
    match Marker.of marker with
    | .bad => (.error (.badGroupMarker marker), state, after)
    | .last padding => (.ok (), sink state (group.take (Frame.groupSize - padding)), after)
    | .more => scan sink (sink state (group.take Frame.groupSize)) after
termination_by cursor.remaining
decreasing_by
  have := Reader.remaining_take _h
  simp only [Frame.groupSize] at this
  omega

/-- Whether a scan hands just some pieces to its sink, one after another, and then
ends with an outcome, whatever the sink does with them. -/
def HandsOver (cursor : Cursor) (pieces : List Bytes) (outcome : Except Error Unit) (after : Cursor) :
    Prop :=
  ∀ (σ : Type) (sink : σ → Bytes → σ) (state : σ),
    scan sink state cursor = (outcome, pieces.foldl sink state, after)

end KeyedRows.Group
