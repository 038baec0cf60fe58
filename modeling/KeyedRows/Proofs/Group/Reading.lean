import KeyedRows.Proofs.Group.Order
import KeyedRows.Proofs.Reader.Consuming

namespace KeyedRows.Group

/-- Goes on behind a group as the byte behind it says. -/
def readBehind (group : Bytes) : Reader Bytes :=
  let marker := (group.drop Frame.groupSize).headD 0
  match Marker.of marker with
  | .bad => Reader.fail (.badGroupMarker marker)
  | .last padding => pure (group.take (Frame.groupSize - padding))
  | .more => reader >>= fun rest => pure (group.take Frame.groupSize ++ rest)

/-- Groups are read one behind the other. -/
theorem reader_eq : reader = Reader.take (Frame.groupSize + 1) >>= readBehind := by
  funext cursor
  change read cursor = _
  rw [read]
  split
  · rename_i hfail
    rw [Reader.bind_of_error hfail]
  · rename_i group after hread
    rw [Reader.bind_of_ok hread, readBehind]
    cases hmarker : Marker.of ((group.drop Frame.groupSize).headD 0) with
    | bad | last padding =>
      simp only [hmarker]
      rfl
    | more =>
      simp only [hmarker]
      rcases hrest : reader after with ⟨e | rest, stop⟩
      · have hread : read after = (.error e, stop) := hrest
        rw [Reader.bind_of_error hrest, hread]
      · have hread : read after = (.ok rest, stop) := hrest
        rw [Reader.bind_of_ok hrest, hread]
        rfl

private theorem read_of_more {cursor after stop : Cursor} {group rest : Bytes}
    (htake : Reader.take (Frame.groupSize + 1) cursor = (.ok group, after))
    (hmarker : Marker.of ((group.drop Frame.groupSize).headD 0) = .more)
    (hrest : reader after = (.ok rest, stop)) :
    reader cursor = (.ok (group.take Frame.groupSize ++ rest), stop) := by
  rw [reader_eq, Reader.bind_of_ok htake, readBehind, hmarker]
  exact Reader.bind_of_ok hrest

private theorem read_of_last {cursor after : Cursor} {group : Bytes} {padding : Nat}
    (htake : Reader.take (Frame.groupSize + 1) cursor = (.ok group, after))
    (hmarker : Marker.of ((group.drop Frame.groupSize).headD 0) = .last padding) :
    reader cursor = (.ok (group.take (Frame.groupSize - padding)), after) := by
  rw [reader_eq, Reader.bind_of_ok htake, readBehind, hmarker]
  rfl

private theorem marker_of_last {padding : Nat} (hpos : 0 < padding) (hle : padding ≤ Frame.groupSize) :
    Marker.of (Frame.fullGroup - UInt8.ofNat padding) = .last padding := by
  have hall : ∀ padding ≤ 8, 0 < padding →
      Marker.of (Frame.fullGroup - UInt8.ofNat padding) = .last padding := by decide
  exact hall padding hle hpos

/-- The groups of a byte string are read back, and nothing behind them is touched.
The order of the cursor makes no difference, as there are no numbers to read. -/
theorem consumes_reader (order : ByteOrder) (bytes : Bytes) :
    Reader.Consumes order reader (encode bytes) bytes := by
  intro cursor rest horder hunread
  by_cases hshort : bytes.length < Frame.groupSize
  · rw [encode_of_lt hshort] at hunread
    have hlength : (bytes ++ List.replicate (Frame.groupSize - bytes.length) 0).length =
        Frame.groupSize := by
      rw [List.length_append, List.length_replicate]
      omega
    have htake := Reader.consumes_take order (encodeLast bytes)
    rw [encodeLast, List.length_append, hlength] at htake
    obtain ⟨after, htake, hafter⟩ := htake cursor rest horder hunread
    have hmarker := marker_of_last (Nat.sub_pos_of_lt hshort) (Nat.sub_le ..)
    have hread := read_of_last htake (by rwa [List.drop_left' hlength])
    rw [Nat.sub_sub_self (Nat.le_of_lt hshort), List.append_assoc, List.take_left' rfl] at hread
    exact ⟨after, hread, hafter⟩
  · have hlong : Frame.groupSize ≤ bytes.length := Nat.le_of_not_lt hshort
    have hlength : (bytes.take Frame.groupSize).length = Frame.groupSize := by
      rw [List.length_take, Nat.min_eq_left hlong]
    have hfront := Reader.consumes_take order (bytes.take Frame.groupSize ++ [Frame.fullGroup])
    rw [List.length_append, hlength] at hfront
    rw [encode_of_le hlong, List.append_cons, List.append_assoc] at hunread
    obtain ⟨after, htake, hafter, hsame⟩ := hfront cursor _ horder hunread
    obtain ⟨stop, hrest, hstop⟩ :=
      consumes_reader order (bytes.drop Frame.groupSize) after rest hsame hafter
    have hread := read_of_more htake (by rw [List.drop_left' hlength]; rfl) hrest
    rw [List.take_left' hlength, List.take_append_drop] at hread
    exact ⟨stop, hread, hstop⟩
termination_by bytes.length
decreasing_by
  simp only [Frame.groupSize] at *
  rw [List.length_drop]
  omega

end KeyedRows.Group
