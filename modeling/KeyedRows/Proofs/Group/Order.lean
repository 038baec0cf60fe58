import KeyedRows.Proofs.Bytes.Lexicographic
import KeyedRows.Row.Group

namespace KeyedRows.Group

private theorem isLE_compare_replicate_zero {count : Nat} {bytes : Bytes} (hlength : bytes.length = count) :
    (compare (List.replicate count 0) bytes).isLE := by
  induction count generalizing bytes with
  | zero => exact List.isLE_compare_nil_left
  | succ count ih =>
    cases bytes with
    | nil => exact absurd hlength (Nat.succ_ne_zero count).symm
    | cons b bytes =>
      have htail := ih (Nat.succ.inj hlength)
      have hzero : (compare 0 b).isLE := Std.isLE_compare.2 UInt8.zero_le
      rw [List.replicate_succ, List.compare_cons_cons, Ordering.isLE_then_iff_and]
      exact ⟨hzero, .inr htail⟩

private theorem zeros_then_lt {count : Nat} {bytes : Bytes} (hlength : bytes.length = count) :
    (compare (List.replicate count 0) bytes).then .lt = .lt := by
  obtain hless | hsame := Ordering.isLE_iff_eq_lt_or_eq_eq.1 (isLE_compare_replicate_zero hlength)
  · exact Ordering.then_eq_lt.2 (.inl hless)
  · exact Ordering.then_eq_lt.2 (.inr ⟨hsame, rfl⟩)

private theorem then_zeros_gt {count : Nat} {bytes : Bytes} (hlength : bytes.length = count) :
    (compare bytes (List.replicate count 0)).then .gt = .gt := by
  have hswap := congrArg Ordering.swap (zeros_then_lt hlength)
  rwa [Ordering.swap_then, ← Std.OrientedOrd.eq_swap] at hswap

/-- Filling two byte strings up to one length keeps their order, if the lengths that
they had decide where the filled strings are the same. The lengths are needed where
one string goes on with the zeros that the other one is filled up with. -/
theorem compare_filled {count : Nat} {a b : Bytes} (ha : a.length ≤ count) (hb : b.length ≤ count) :
    (compare (a ++ List.replicate (count - a.length) 0)
      (b ++ List.replicate (count - b.length) 0)).then (compare a.length b.length) =
      compare a b := by
  induction count generalizing a b with
  | zero =>
    rw [List.eq_nil_of_length_eq_zero (Nat.le_zero.1 ha),
      List.eq_nil_of_length_eq_zero (Nat.le_zero.1 hb)]
    rfl
  | succ count ih =>
    have hfilled : ∀ {bytes : Bytes}, bytes.length ≤ count + 1 →
        (bytes ++ List.replicate (count + 1 - bytes.length) 0).length = count + 1 := by
      intro bytes hlength
      rw [List.length_append, List.length_replicate]
      omega
    cases a with
    | nil =>
      cases b with
      | nil => simp
      | cons d b =>
        have hshorter : compare ([] : Bytes).length (d :: b).length = .lt :=
          Nat.compare_eq_lt.2 (Nat.succ_pos _)
        rw [hshorter, List.compare_nil_cons, List.nil_append]
        exact zeros_then_lt (hfilled hb)
    | cons c a =>
      cases b with
      | nil =>
        have hlonger : compare (c :: a).length ([] : Bytes).length = .gt :=
          Nat.compare_eq_gt.2 (Nat.succ_pos _)
        rw [hlonger, List.compare_cons_nil, List.nil_append]
        exact then_zeros_gt (hfilled ha)
      | cons d b =>
        have hrest := ih (Nat.le_of_succ_le_succ ha) (Nat.le_of_succ_le_succ hb)
        have hlengths : compare (c :: a).length (d :: b).length = compare a.length b.length := by
          simp only [List.length_cons, Nat.compare_eq_ite_lt, Nat.add_lt_add_iff_right]
        rw [hlengths, List.length_cons, List.length_cons, Nat.add_sub_add_right,
          Nat.add_sub_add_right, List.cons_append, List.cons_append, List.compare_cons_cons,
          List.compare_cons_cons, Ordering.then_assoc, hrest]

/-- A string that is shorter than a group is one last group. -/
theorem encode_of_lt {bytes : Bytes} (hshort : bytes.length < Frame.groupSize) :
    encode bytes = encodeLast bytes := by
  rw [encode, if_pos]
  simp only [Frame.groupSize] at hshort
  simp only [Frame.groupSize, List.isEmpty_iff, List.drop_eq_nil_iff]
  omega

/-- A string that fills a group is that group and the groups of the rest. -/
theorem encode_of_le {bytes : Bytes} (hlong : Frame.groupSize ≤ bytes.length) :
    encode bytes =
      bytes.take Frame.groupSize ++ Frame.fullGroup :: encode (bytes.drop Frame.groupSize) := by
  rw [encode, if_neg]
  simp only [Frame.groupSize] at hlong
  simp only [Frame.groupSize, List.isEmpty_iff, List.drop_eq_nil_iff]
  omega

/-- The first group of a byte string. Full or not, it ends in a byte that counts its
data bytes. -/
def firstGroup (bytes : Bytes) : Bytes :=
  let data := bytes.take Frame.groupSize
  data ++ List.replicate (Frame.groupSize - data.length) 0 ++ [UInt8.ofNat (247 + data.length)]

/-- The groups behind the first one. -/
def furtherGroups (bytes : Bytes) : Bytes :=
  if bytes.length < Frame.groupSize then [] else encode (bytes.drop Frame.groupSize)

private theorem encode_eq_append (bytes : Bytes) : encode bytes = firstGroup bytes ++ furtherGroups bytes := by
  by_cases hshort : bytes.length < Frame.groupSize
  · have hmarker : ∀ length < 8, Frame.fullGroup - UInt8.ofNat (8 - length) =
        UInt8.ofNat (247 + length) := by decide
    rw [encode_of_lt hshort, furtherGroups, if_pos hshort, List.append_nil, encodeLast, firstGroup,
      List.take_of_length_le (Nat.le_of_lt hshort), ← hmarker bytes.length hshort]
    rfl
  · have hlong : Frame.groupSize ≤ bytes.length := Nat.le_of_not_lt hshort
    have hlength : (bytes.take Frame.groupSize).length = Frame.groupSize := by
      rw [List.length_take, Nat.min_eq_left hlong]
    rw [encode_of_le hlong, furtherGroups, if_neg hshort, firstGroup, hlength, Nat.sub_self,
      List.replicate_zero, List.append_nil, List.append_assoc]
    rfl

private theorem length_take_le (bytes : Bytes) : (bytes.take Frame.groupSize).length ≤ Frame.groupSize := by
  rw [List.length_take]
  exact Nat.min_le_left ..

private theorem length_filled (bytes : Bytes) :
    (bytes.take Frame.groupSize ++
      List.replicate (Frame.groupSize - (bytes.take Frame.groupSize).length) 0).length =
        Frame.groupSize := by
  have := length_take_le bytes
  rw [List.length_append, List.length_replicate]
  omega

private theorem length_firstGroup (bytes : Bytes) : (firstGroup bytes).length = Frame.groupSize + 1 := by
  rw [firstGroup, List.length_append, length_filled, List.length_singleton]

/-- Every eight bytes of a byte string make one more group, and there is always a
last one. -/
theorem length_encode (bytes : Bytes) :
    (encode bytes).length = (bytes.length / Frame.groupSize + 1) * (Frame.groupSize + 1) := by
  rw [encode_eq_append, List.length_append, length_firstGroup, furtherGroups]
  by_cases hshort : bytes.length < Frame.groupSize
  · rw [if_pos hshort, Nat.div_eq_of_lt hshort, List.length_nil, Nat.zero_add, Nat.one_mul, Nat.add_zero]
  · have hlong : Frame.groupSize ≤ bytes.length := Nat.le_of_not_lt hshort
    rw [if_neg hshort, length_encode (bytes.drop Frame.groupSize), List.length_drop,
      Nat.div_eq_sub_div (by decide) hlong, Nat.succ_mul ((bytes.length - Frame.groupSize) /
        Frame.groupSize + 1), Nat.add_comm]
termination_by bytes.length
decreasing_by
  simp only [Frame.groupSize, List.length_drop] at *
  omega

private theorem compare_firstGroup (a b : Bytes) : compare (firstGroup a) (firstGroup b) =
    compare (a.take Frame.groupSize) (b.take Frame.groupSize) := by
  have hcount : ∀ bytes : Bytes, 247 + (bytes.take Frame.groupSize).length < 256 := by
    intro bytes
    exact Nat.add_lt_add_left (Nat.lt_succ_of_le (length_take_le bytes)) 247
  have hshift : ∀ m n : Nat, compare (247 + m) (247 + n) = compare m n := by
    intro m n
    simp only [Nat.compare_eq_ite_lt, Nat.add_lt_add_iff_left]
  rw [firstGroup, firstGroup, Bytes.compare_append ((length_filled a).trans (length_filled b).symm),
    List.compare_cons_cons, List.compare_nil_nil, Ordering.then_eq,
    Bytes.compare_byte_ofNat (hcount a) (hcount b), hshift,
    compare_filled (length_take_le a) (length_take_le b)]

/-- No form is the beginning of another one: what stands behind the groups decides
only between equal byte strings. Both strings and what stands behind them may be
any. The induction takes eight bytes at a time from both. -/
theorem compare_encode_append (a b x y : Bytes) :
    compare (encode a ++ x) (encode b ++ y) = (compare a b).then (compare x y) := by
  have hlength := (length_firstGroup a).trans (length_firstGroup b).symm
  rw [encode_eq_append a, encode_eq_append b, List.append_assoc, List.append_assoc,
    Bytes.compare_append hlength, compare_firstGroup,
    ← Bytes.compare_take_then_drop Frame.groupSize a b, Ordering.then_assoc]
  cases hfirst : compare (a.take Frame.groupSize) (b.take Frame.groupSize) with
  | lt | gt => rfl
  | eq =>
    -- The first groups are the same, so both strings have more groups or neither has.
    have hlengths := congrArg List.length (Std.LawfulEqOrd.eq_of_compare hfirst)
    simp only [List.length_take] at hlengths
    rw [Ordering.eq_then, Ordering.eq_then]
    by_cases hshort : a.length < Frame.groupSize
    · have hshort' : b.length < Frame.groupSize := by omega
      rw [furtherGroups, furtherGroups, if_pos hshort, if_pos hshort',
        List.drop_eq_nil_of_le (Nat.le_of_lt hshort), List.drop_eq_nil_of_le (Nat.le_of_lt hshort')]
      rfl
    · have hlong' : ¬b.length < Frame.groupSize := by omega
      rw [furtherGroups, furtherGroups, if_neg hshort, if_neg hlong']
      exact compare_encode_append (a.drop Frame.groupSize) (b.drop Frame.groupSize) x y
termination_by a.length
decreasing_by
  simp only [Frame.groupSize] at *
  rw [List.length_drop]
  omega

end KeyedRows.Group
