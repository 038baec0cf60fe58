import KeyedRows.Proofs.Error.Outcome
import KeyedRows.Proofs.Group.Reading
import KeyedRows.Proofs.Region.Running
import KeyedRows.Row.Groupwise

namespace KeyedRows.Group

/-- Into room for all of them, groups are written as one push of their bytes. Room
for all groups must be there beforehand: groups that made their own room one by one
could double the cells once more. -/
theorem writeGroups_eq_push {bytes : Bytes} {region : Region}
    (hroom : (encode bytes).length ≤ region.free) :
    writeGroups bytes region = region.push (encode bytes) := by
  rw [writeGroups]
  by_cases hlong : Frame.groupSize ≤ bytes.length
  · have hencode : encode bytes = (bytes.take Frame.groupSize ++ [Frame.fullGroup]) ++
        encode (bytes.drop Frame.groupSize) := by
      rw [encode_of_le hlong, List.append_cons]
    rw [hencode, List.length_append] at hroom
    have hfirst := Nat.le_trans (Nat.le_add_right ..) hroom
    -- The first group takes no more than its own cells, so the others still find their room.
    have hleft := Region.free_push hfirst
    rw [List.length_append] at hfirst
    rw [if_pos hlong, Region.push_push_of_le hfirst, writeGroups_eq_push (by omega),
      Region.push_push_of_le hroom, hencode]
  · have hshort := Nat.lt_of_not_le hlong
    rw [encode_of_lt hshort, encodeLast, List.length_append] at hroom
    have hfilled := Nat.le_trans (Nat.le_add_right ..) hroom
    rw [List.length_append] at hfilled
    simp only [if_neg hlong, Region.pushZeros]
    rw [Region.push_push_of_le hfilled, Region.push_push_of_le hroom, encode_of_lt hshort, encodeLast]
termination_by bytes.length
decreasing_by
  simp only [Frame.groupSize, List.length_drop] at *
  omega

/-- Written one group at a time or all at once, a byte string leaves the same region
behind. Both leave the same cells too, so a region cannot tell how it was written. -/
theorem write_eq_push (bytes : Bytes) (region : Region) :
    write bytes region = region.push (encode bytes) := by
  rw [write, ← length_encode, writeGroups_eq_push (region.le_free_reserve _), Region.push_reserve]

/-- A scan takes one group after another. -/
theorem scan_eq {σ : Type} (sink : σ → Bytes → σ) (state : σ) (cursor : Cursor) :
    scan sink state cursor =
      match Reader.take (Frame.groupSize + 1) cursor with
      | (.error e, after) => (.error e, state, after)
      | (.ok group, after) =>
        match Marker.of ((group.drop Frame.groupSize).headD 0) with
        | .bad => (.error (.badGroupMarker ((group.drop Frame.groupSize).headD 0)), state, after)
        | .last padding => (.ok (), sink state (group.take (Frame.groupSize - padding)), after)
        | .more => scan sink (sink state (group.take Frame.groupSize)) after := by
  rw [scan]
  split
  · rename_i htake
    rw [htake]
  · rename_i group after htake
    cases hmarker : Marker.of ((group.drop Frame.groupSize).headD 0) <;>
      simp only [htake, hmarker]

section Scan

variable {cursor after stop : Cursor} {group : Bytes}

private theorem handsOver_of_cut {e : Error}
    (htake : Reader.take (Frame.groupSize + 1) cursor = (.error e, after)) :
    HandsOver cursor [] (.error e) after := by
  intro σ sink state
  rw [scan_eq, htake]
  rfl

private theorem handsOver_of_bad
    (htake : Reader.take (Frame.groupSize + 1) cursor = (.ok group, after))
    (hmarker : Marker.of ((group.drop Frame.groupSize).headD 0) = .bad) :
    HandsOver cursor [] (.error (.badGroupMarker ((group.drop Frame.groupSize).headD 0))) after := by
  intro σ sink state
  simp only [scan_eq, htake, hmarker, List.foldl_nil]

private theorem handsOver_of_last {padding : Nat}
    (htake : Reader.take (Frame.groupSize + 1) cursor = (.ok group, after))
    (hmarker : Marker.of ((group.drop Frame.groupSize).headD 0) = .last padding) :
    HandsOver cursor [group.take (Frame.groupSize - padding)] (.ok ()) after := by
  intro σ sink state
  simp only [scan_eq, htake, hmarker, List.foldl_cons, List.foldl_nil]

/-- The bytes of a group with more behind it are handed over before those of the
others. The byte behind the group must say that more follow. -/
theorem HandsOver.cons {pieces : List Bytes} {outcome : Except Error Unit}
    (htake : Reader.take (Frame.groupSize + 1) cursor = (.ok group, after))
    (hmarker : Marker.of ((group.drop Frame.groupSize).headD 0) = .more)
    (hrest : HandsOver after pieces outcome stop) :
    HandsOver cursor (group.take Frame.groupSize :: pieces) outcome stop := by
  intro σ sink state
  simp only [scan_eq sink state cursor, htake, hmarker, hrest σ sink, List.foldl_cons]

/-- A sink that joins what it is handed ends up with all of it. Sinks that drop
pieces or look at them in another way are handed the same ones. -/
theorem HandsOver.joined {pieces : List Bytes} {outcome : Except Error Unit}
    (h : HandsOver cursor pieces outcome after) :
    scan (· ++ ·) [] cursor = (outcome, pieces.flatten, after) := by
  rw [h, List.foldl_append_eq_append, List.nil_append, List.map_id']

end Scan

/-- The reader of the groups ends as a scan does, and what it gives is what the scan
hands over, joined. It covers failures as well: what was handed over before a
failure stays handed over. -/
theorem exists_handsOver {cursor after : Cursor} {outcome : Except Error Bytes}
    (h : reader cursor = (outcome, after)) :
    ∃ pieces ending, HandsOver cursor pieces ending after ∧
      outcome = ending.map fun _ => pieces.flatten := by
  rw [reader_eq] at h
  rcases htake : Reader.take (Frame.groupSize + 1) cursor with ⟨e | group, middle⟩
  · rw [Reader.bind_of_error htake] at h
    cases h
    exact ⟨[], _, handsOver_of_cut htake, rfl⟩
  · rw [Reader.bind_of_ok htake, readBehind] at h
    cases hmarker : Marker.of ((group.drop Frame.groupSize).headD 0) with
    | bad =>
      simp only [hmarker] at h
      cases h
      exact ⟨[], _, handsOver_of_bad htake hmarker, rfl⟩
    | last padding =>
      simp only [hmarker] at h
      cases h
      refine ⟨_, _, handsOver_of_last htake hmarker, ?_⟩
      rw [List.flatten_singleton]
      rfl
    | more =>
      simp only [hmarker] at h
      rcases hread : reader middle with ⟨found, stop⟩
      obtain ⟨pieces, ending, hrest, rfl⟩ := exists_handsOver hread
      have hall := hrest.cons htake hmarker
      cases ending with
      | error e =>
        rw [Reader.bind_of_error hread] at h
        cases h
        exact ⟨_, _, hall, rfl⟩
      | ok =>
        rw [Reader.bind_of_ok hread] at h
        cases h
        exact ⟨_, _, hall, rfl⟩
termination_by cursor.remaining
decreasing_by
  have := Reader.remaining_take htake
  simp only [Frame.groupSize] at this
  omega

/-- What stands behind the groups of different strings does not matter to their
order. -/
theorem compare_encode_of_ne {a b : Bytes} (hne : a ≠ b) (x y : Bytes) :
    compare (encode a ++ x) (encode b ++ y) = compare a b := by
  rw [compare_encode_append]
  cases hcompare : compare a b with
  | lt | gt => rfl
  | eq => exact absurd (Std.LawfulEqOrd.eq_of_compare hcompare) hne

private theorem eq_of_encode_prefix {a b : Bytes} (hstarts : encode a <+: encode b) : a = b := by
  obtain ⟨rest, hrest⟩ := hstarts
  have hcompare := compare_encode_append a b rest []
  rw [hrest, List.append_nil, Std.ReflOrd.compare_self] at hcompare
  exact Std.LawfulEqOrd.eq_of_compare (Ordering.then_eq_eq.1 hcompare.symm).1

/-- The groups of a byte string of any bytes take nine bytes for every eight of it
and nine more. They are what is written behind the front bytes of a region, group by
group. Whatever is unread behind them, they are read back as the string and nothing
else is touched, and any sink is handed just the string, in pieces one after
another. Groups of another string compare with them as that string does, whatever
stands behind both, so that neither is the beginning of the other. -/
theorem encode_orders_and_delimits (a : Bytes) :
    (encode a).length = (a.length / 8 + 1) * 9 ∧
    (∀ region, (write a region).Extends region (encode a)) ∧
    (∀ (cursor : Cursor) (x : Bytes), cursor.unread = encode a ++ x →
      ∃ after, reader cursor = (.ok a, after) ∧ after.unread = x ∧
        ∃ pieces, pieces.flatten = a ∧ HandsOver cursor pieces (.ok ()) after) ∧
    ∀ b, a ≠ b →
      (∀ x y, compare (encode a ++ x) (encode b ++ y) = compare a b) ∧
        ¬encode a <+: encode b ∧ ¬encode b <+: encode a := by
  refine ⟨length_encode a, ?_, ?_, ?_⟩
  · intro region
    rw [write_eq_push]
    exact region.extends_push (encode a)
  · intro cursor x hunread
    obtain ⟨after, hread, hafter, -⟩ := consumes_reader cursor.order a cursor x rfl hunread
    obtain ⟨pieces, ending, hhands, hjoined⟩ := exists_handsOver hread
    obtain ⟨⟨⟩, rfl, hpieces⟩ := map_eq_ok_iff.1 hjoined.symm
    exact ⟨after, hread, hafter, pieces, hpieces, hhands⟩
  · intro b hne
    exact ⟨compare_encode_of_ne hne, mt eq_of_encode_prefix hne, mt eq_of_encode_prefix hne.symm⟩

/-- Two strings the second of which ends in one more zero: the zeros that fill up
the first do not make them the same, since the byte behind tells how many there are. -/
theorem encode_orders_and_delimits_at_zeros :
    let a : Bytes := [255, 0, 0, 0, 0, 0, 0, 0]
    let b : Bytes := [255, 0, 0, 0, 0, 0, 0, 0, 0]
    let cursor := Cursor.of (encode a ++ [255]) .little
    (encode a).length = 18 ∧
      (∃ after, reader cursor = (.ok a, after) ∧ after.unread = [255] ∧
        scan (· ++ ·) [] cursor = (.ok (), a, after)) ∧
      compare (encode a ++ [255]) (encode b ++ [0]) = .lt ∧ ¬encode a <+: encode b := by
  intro a b cursor
  obtain ⟨hlength, -, hread, hother⟩ := encode_orders_and_delimits a
  obtain ⟨after, hreader, hunread, pieces, hjoined, hhands⟩ :=
    hread cursor [255] (Cursor.unread_of ..)
  obtain ⟨hcompare, hstarts, -⟩ := hother b (by decide)
  have hscan : scan (· ++ ·) [] cursor = (.ok (), a, after) := by rw [hhands.joined, hjoined]
  exact ⟨hlength.trans (by decide), ⟨after, hreader, hunread, hscan⟩,
    (hcompare [255] [0]).trans (by decide), hstarts⟩

end KeyedRows.Group
