import KeyedRows.Region

namespace KeyedRows.Region

theorem toBytes_eq (region : Region) : region.toBytes = region.frontBytes ++ region.backBytes :=
  rfl

theorem frontBytes_eq_take (region : Region) :
    region.frontBytes = region.cells.toList.take region.front := by
  simp [frontBytes]

theorem backBytes_eq_drop (region : Region) :
    region.backBytes = region.cells.toList.drop (region.cells.size - region.back) := by
  rw [backBytes, Array.toList_extract, List.extract_eq_take_drop, List.take_of_length_le]
  simp

@[simp]
theorem length_frontBytes (region : Region) : region.frontBytes.length = region.front := by
  have := region.fits
  simp only [frontBytes_eq_take, List.length_take, Array.length_toList]
  omega

@[simp]
theorem length_backBytes (region : Region) : region.backBytes.length = region.back := by
  have := region.fits
  simp only [backBytes_eq_drop, List.length_drop, Array.length_toList]
  omega

@[simp]
theorem toBytes_empty (capacity : Nat) (order : ByteOrder) : (empty capacity order).toBytes = [] := by
  rw [toBytes_eq, List.append_eq_nil_iff]
  exact ⟨List.eq_nil_of_length_eq_zero (length_frontBytes _),
    List.eq_nil_of_length_eq_zero (length_backBytes _)⟩

/-- Overwriting an interval keeps what stands before and behind it. The interval
must lie within the cells. -/
theorem toList_overwrite (cells : Array UInt8) (place : Nat) (bytes : Bytes)
    (hroom : place + bytes.length ≤ cells.size) :
    (overwrite cells place bytes).toList =
      cells.toList.take place ++ bytes ++ cells.toList.drop (place + bytes.length) := by
  induction bytes generalizing cells place with
  | nil => simp [overwrite]
  | cons b rest ih =>
    simp only [List.length_cons] at hroom
    have hplace : place < cells.toList.length := by
      simp only [Array.length_toList]
      omega
    rw [overwrite, ih _ _ (by simp only [Array.size_setIfInBounds]; omega)]
    have hwritten : (cells.toList.take place ++ [b]).length = place + 1 := by
      simp only [List.length_append, List.length_take, List.length_singleton]
      omega
    rw [Array.toList_setIfInBounds, List.set_eq_take_append_cons_drop, if_pos hplace,
      List.append_cons, List.take_left' hwritten, ← List.drop_drop,
      List.drop_left' hwritten, List.drop_drop]
    simp [Nat.add_comm, Nat.add_left_comm]

@[simp]
theorem frontBytes_grow (region : Region) (needed : Nat) :
    (region.grow needed).frontBytes = region.frontBytes := by
  have hfront : (region.cells.extract 0 region.front).size = region.front := by
    have := region.fits
    rw [Array.size_extract]
    omega
  have hcells : (region.grow needed).cells = region.cells.extract 0 region.front ++
      Array.replicate (max needed (2 * region.cells.size) - region.front - region.back) 0 ++
      region.cells.extract (region.cells.size - region.back) region.cells.size := rfl
  have hplace : (region.grow needed).front = region.front := rfl
  rw [frontBytes_eq_take, hcells, hplace, Array.toList_append, Array.toList_append,
    List.append_assoc, List.take_left' (by rw [Array.length_toList, hfront]), frontBytes]

/-- A move to more cells keeps the bytes at the back, although they lie at other
places there. -/
@[simp]
theorem backBytes_grow (region : Region) (needed : Nat) :
    (region.grow needed).backBytes = region.backBytes := by
  have hcells : (region.grow needed).cells = region.cells.extract 0 region.front ++
      Array.replicate (max needed (2 * region.cells.size) - region.front - region.back) 0 ++
      region.cells.extract (region.cells.size - region.back) region.cells.size := rfl
  have hplace : (region.grow needed).back = region.back := rfl
  have hback : (region.cells.extract (region.cells.size - region.back) region.cells.size).size =
      region.back := by
    have := region.fits
    rw [Array.size_extract]
    omega
  have hsize : (region.grow needed).cells.size = (region.cells.extract 0 region.front ++
      Array.replicate (max needed (2 * region.cells.size) - region.front - region.back) 0).size +
      region.back := by
    rw [hcells, Array.size_append, hback]
  rw [backBytes_eq_drop, hsize, hcells, hplace, Nat.add_sub_cancel, Array.toList_append,
    List.drop_left' Array.length_toList, backBytes]

@[simp]
theorem frontBytes_reserve (region : Region) (count : Nat) :
    (region.reserve count).frontBytes = region.frontBytes := by
  unfold reserve
  split
  · exact frontBytes_grow ..
  · rfl

@[simp]
theorem backBytes_reserve (region : Region) (count : Nat) :
    (region.reserve count).backBytes = region.backBytes := by
  unfold reserve
  split
  · exact backBytes_grow ..
  · rfl

/-- A push appends its bytes to those at the front, however many cells there are. -/
@[simp]
theorem frontBytes_push (region : Region) (bytes : Bytes) :
    (region.push bytes).frontBytes = region.frontBytes ++ bytes := by
  have hroom := region.front_add_back_le_size_reserve bytes.length
  have hcells : (region.push bytes).cells =
      overwrite (region.reserve bytes.length).cells (region.reserve bytes.length).front bytes := rfl
  have hplace : (region.push bytes).front = (region.reserve bytes.length).front + bytes.length := rfl
  have hfits := (region.reserve bytes.length).fits
  rw [frontBytes_eq_take, hcells, hplace, toList_overwrite, List.take_left',
    ← frontBytes_eq_take, frontBytes_reserve]
  · simp only [List.length_append, List.length_take, Array.length_toList, front_reserve]
    omega
  · rw [front_reserve]
    omega

@[simp]
theorem backBytes_push (region : Region) (bytes : Bytes) :
    (region.push bytes).backBytes = region.backBytes := by
  have hroom := region.front_add_back_le_size_reserve bytes.length
  have hcells : (region.push bytes).cells =
      overwrite (region.reserve bytes.length).cells (region.reserve bytes.length).front bytes := rfl
  have hplace : (region.push bytes).back = (region.reserve bytes.length).back := rfl
  rw [← backBytes_reserve region bytes.length, backBytes_eq_drop, backBytes_eq_drop, hcells, hplace,
    size_overwrite, toList_overwrite, List.drop_append, List.drop_eq_nil_of_le, List.nil_append,
    List.drop_drop]
  · congr 1
    simp only [List.length_append, List.length_take, Array.length_toList, front_reserve,
      back_reserve]
    omega
  · simp only [List.length_append, List.length_take, Array.length_toList, front_reserve,
      back_reserve]
    omega
  · rw [front_reserve]
    omega

@[simp]
theorem frontBytes_pushBack (region : Region) (byte : UInt8) :
    (region.pushBack byte).frontBytes = region.frontBytes := by
  have hroom := region.front_add_back_le_size_reserve 1
  have hcells : (region.pushBack byte).cells = (region.reserve 1).cells.setIfInBounds
      ((region.reserve 1).cells.size - (region.reserve 1).back - 1) byte := rfl
  have hplace : (region.pushBack byte).front = (region.reserve 1).front := rfl
  rw [← frontBytes_reserve region 1, frontBytes_eq_take, frontBytes_eq_take, hcells, hplace,
    Array.toList_setIfInBounds, List.take_set_of_le]
  simp only [front_reserve, back_reserve]
  omega

/-- A push from the back puts its byte before those at the back, however many cells
there are. -/
@[simp]
theorem backBytes_pushBack (region : Region) (byte : UInt8) :
    (region.pushBack byte).backBytes = byte :: region.backBytes := by
  have hroom := region.front_add_back_le_size_reserve 1
  have hcells : (region.pushBack byte).cells = (region.reserve 1).cells.setIfInBounds
      ((region.reserve 1).cells.size - (region.reserve 1).back - 1) byte := rfl
  have hplace : (region.pushBack byte).back = (region.reserve 1).back + 1 := rfl
  have hin : (region.reserve 1).cells.size - (region.reserve 1).back - 1 <
      (region.reserve 1).cells.toList.length := by
    rw [Array.length_toList, back_reserve]
    omega
  rw [← backBytes_reserve region 1, backBytes_eq_drop, backBytes_eq_drop, hcells, hplace,
    Array.size_setIfInBounds, Nat.sub_add_eq, Array.toList_setIfInBounds,
    List.set_eq_take_append_cons_drop, if_pos hin, List.drop_left']
  · congr 2
    rw [back_reserve]
    omega
  · rw [List.length_take]
    omega

@[simp]
theorem order_reserve (region : Region) (count : Nat) :
    (region.reserve count).order = region.order := by
  unfold reserve
  split <;> rfl

@[simp]
theorem order_push (region : Region) (bytes : Bytes) : (region.push bytes).order = region.order :=
  region.order_reserve bytes.length

@[simp]
theorem order_pushBack (region : Region) (byte : UInt8) :
    (region.pushBack byte).order = region.order :=
  region.order_reserve 1

/-- A region is another one with bytes written at its front, and perhaps moved. -/
structure Extends (after before : Region) (bytes : Bytes) : Prop where
  front : after.frontBytes = before.frontBytes ++ bytes
  back : after.backBytes = before.backBytes
  order : after.order = before.order

theorem extends_refl (region : Region) : region.Extends region [] :=
  ⟨(List.append_nil _).symm, rfl, rfl⟩

/-- What is written in two parts is written, the earlier part first. -/
theorem Extends.trans {last middle first : Region} {late early : Bytes}
    (h : last.Extends middle late) (h' : middle.Extends first early) :
    last.Extends first (early ++ late) where
  front := by rw [h.front, h'.front, List.append_assoc]
  back := h.back.trans h'.back
  order := h.order.trans h'.order

/-- A push writes its bytes behind those at the front and leaves the back alone. -/
theorem extends_push (region : Region) (bytes : Bytes) : (region.push bytes).Extends region bytes :=
  ⟨region.frontBytes_push bytes, region.backBytes_push bytes, region.order_push bytes⟩

theorem extends_reserve (region : Region) (count : Nat) : (region.reserve count).Extends region [] :=
  ⟨(region.frontBytes_reserve count).trans (List.append_nil _).symm, region.backBytes_reserve count,
    region.order_reserve count⟩

/-- A length that fits its field is written as it is. -/
theorem toNat_toUInt32_ofNat {length : Nat} (h : length < Frame.lengthLimit) :
    (Int32.ofNat length).toUInt32.toNat = length := by
  have hword : (Int32.ofNat length).toUInt32 = UInt32.ofNat length := rfl
  simp only [Frame.lengthLimit, signBit32] at h
  exact hword ▸ UInt32.toNat_ofNat_of_lt' (Nat.lt_trans h (by decide))

/-- What an empty region was extended by is all that it holds. The size of the
region and its order make no difference. -/
theorem Extends.toBytes_of_empty {after : Region} {capacity : Nat} {order : ByteOrder}
    {bytes : Bytes} (h : after.Extends (empty capacity order) bytes) : after.toBytes = bytes := by
  obtain ⟨hfront, hback⟩ := List.append_eq_nil_iff.1 (toBytes_empty capacity order)
  rw [toBytes_eq, h.front, h.back, hfront, hback, List.nil_append, List.append_nil]

/-- A signed number of 32 bits is written as its word in the order of the region. -/
theorem extends_pushInt32 (region : Region) (n : Int32) :
    (region.pushInt32 n).Extends region (region.order.word 4 n.toUInt32.toNat) :=
  region.extends_push _

/-- An unsigned number of 64 bits is written as its big-endian word, whatever the
order of the region. -/
theorem extends_pushUInt64 (region : Region) (n : UInt64) :
    (region.pushUInt64 n).Extends region (ByteOrder.big.word 8 n.toNat) :=
  region.extends_push _

/-- A length is written as itself. Without the bound it could pass for a negative
number. -/
theorem extends_pushInt32_ofNat (region : Region) {length : Nat} (h : length < Frame.lengthLimit) :
    (region.pushInt32 (Int32.ofNat length)).Extends region
      (region.order.word Frame.lengthSize length) := by
  have hpush := extends_push region (region.order.word 4 (Int32.ofNat length).toUInt32.toNat)
  rw [toNat_toUInt32_ofNat h] at hpush
  rw [pushInt32, toNat_toUInt32_ofNat h]
  exact hpush

/-- A payload that fits its length field is written behind its length. That it fits
is known from its having been written. -/
theorem extends_pushSized {region after : Region} {bytes : Bytes}
    (h : region.pushSized bytes = .ok after) :
    after.Extends region (region.order.word Frame.lengthSize bytes.length ++ bytes) := by
  unfold pushSized at h
  split at h
  · rename_i hlength
    cases h
    have hroomy := region.extends_reserve (Frame.lengthSize + bytes.length)
    have hcounted :=
      extends_pushInt32_ofNat (region.reserve (Frame.lengthSize + bytes.length)) hlength
    rw [hroomy.order] at hcounted
    exact (extends_push _ bytes).trans (hcounted.trans hroomy)
  · cases h

/-- What a step writes at the front of a region with an order. A payload too long
for its length field is refused, and nothing of it is written. -/
def Step.front (order : ByteOrder) : Step → Bytes
  | byte b => [b]
  | bytes bs => bs
  | zeros count => List.replicate count 0
  | int32 n => order.word 4 n.toUInt32.toNat
  | int64 n => order.word 8 n.toUInt64.toNat
  | uint32 n => ByteOrder.big.word 4 n.toNat
  | uint64 n => ByteOrder.big.word 8 n.toNat
  | sized bs =>
    if bs.length < Frame.lengthLimit then order.word Frame.lengthSize bs.length ++ bs else []
  | back _ | reserve _ => []

/-- What a step writes at the back. -/
def Step.back? : Step → Option UInt8
  | back b => some b
  | _ => none

end KeyedRows.Region
