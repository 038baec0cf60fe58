import KeyedRows.Region.Run

namespace KeyedRows.Region

section Room

variable (region : Region) (bytes : Bytes) (byte : UInt8) (count : Nat)

/-- Every cell is written from the front, written from the back, or free. -/
theorem front_add_back_add_free :
    region.front + region.back + region.free = region.capacity := by
  have := region.fits
  simp only [free, capacity]
  omega

theorem reserve_of_le (hroom : count ≤ region.free) : region.reserve count = region :=
  if_neg (Nat.not_lt.2 hroom)

theorem capacity_push : (region.push bytes).capacity = (region.reserve bytes.length).capacity :=
  size_overwrite ..

theorem capacity_pushBack : (region.pushBack byte).capacity = (region.reserve 1).capacity :=
  Array.size_setIfInBounds ..

/-- A region keeps its cells or gets at least twice as many. -/
theorem capacity_reserve_cases :
    (region.reserve count).capacity = region.capacity ∨
      2 * region.capacity ≤ (region.reserve count).capacity := by
  by_cases hroom : region.free < count
  · rw [reserve, if_pos hroom, capacity_grow]
    exact .inr (Nat.le_max_right ..)
  · rw [reserve, if_neg hroom]
    exact .inl rfl

end Room

section Pushes

variable {region : Region} {early late bytes : Bytes}

private theorem ext_parts {a b : Region} (hcells : a.cells = b.cells) (hfront : a.front = b.front)
    (hback : a.back = b.back) (horder : a.order = b.order) : a = b := by
  obtain ⟨cells, front, back, order, _⟩ := a
  cases hcells
  cases hfront
  cases hback
  cases horder
  rfl

private theorem overwrite_append (cells : Array UInt8) (place : Nat) :
    overwrite cells place (early ++ late) =
      overwrite (overwrite cells place early) (place + early.length) late := by
  induction early generalizing cells place with
  | nil => rfl
  | cons b rest ih =>
    rw [List.cons_append, overwrite, ih, overwrite, List.length_cons, Nat.add_right_comm,
      Nat.add_assoc]

private theorem cells_push (hroom : bytes.length ≤ region.free) :
    (region.push bytes).cells = overwrite region.cells region.front bytes := by
  have h : (region.push bytes).cells = overwrite (region.reserve bytes.length).cells
    (region.reserve bytes.length).front bytes := rfl
  rwa [region.reserve_of_le _ hroom] at h

/-- A push moves the front on by the number of its bytes, whether or not the region
moves. -/
@[simp]
theorem front_push : (region.push bytes).front = region.front + bytes.length :=
  congrArg (· + bytes.length) (region.front_reserve bytes.length)

@[simp]
theorem back_push : (region.push bytes).back = region.back :=
  region.back_reserve bytes.length

/-- A push takes its bytes from the room there is, if there is enough. Otherwise the
region is left for a larger one, and more may be free than before. -/
theorem free_push (hroom : bytes.length ≤ region.free) :
    (region.push bytes).free + bytes.length = region.free := by
  simp only [free, cells_push hroom, size_overwrite, front_push, back_push] at hroom ⊢
  omega

/-- Two pushes for which room has been made at once are one push. Nothing is asked
of the room that was there. -/
theorem push_push_reserve :
    ((region.reserve (early.length + late.length)).push early).push late =
      region.push (early ++ late) := by
  have hroom := region.le_free_reserve (early.length + late.length)
  have hearly : early.length ≤ (region.reserve (early.length + late.length)).free :=
    Nat.le_trans (Nat.le_add_right ..) hroom
  have hleft := free_push hearly
  apply ext_parts
  · have hboth : (region.push (early ++ late)).cells =
        overwrite (region.reserve (early ++ late).length).cells
          (region.reserve (early ++ late).length).front (early ++ late) := rfl
    rw [cells_push (by omega), cells_push hearly, front_push, ← overwrite_append, hboth,
      List.length_append]
  · simp only [front_push, front_reserve, List.length_append, Nat.add_assoc]
  · simp only [back_push, back_reserve]
  · simp only [order_push, order_reserve]

private theorem push_nil : region.push [] = region := by
  apply ext_parts
  · exact cells_push (Nat.zero_le _)
  · exact front_push
  · exact back_push
  · exact order_push ..

/-- Two pushes into room that there is already are one push. If there were none, the
first push could make it and the second once more. -/
theorem push_push_of_le (hroom : early.length + late.length ≤ region.free) :
    (region.push early).push late = region.push (early ++ late) := by
  rw [← push_push_reserve, reserve_of_le _ _ hroom]

/-- A push makes its own room, so making it beforehand changes nothing. -/
theorem push_reserve : (region.reserve bytes.length).push bytes = region.push bytes := by
  have h := @push_push_reserve region [] bytes
  rwa [push_nil, List.length_nil, Nat.zero_add, List.nil_append] at h

end Pushes

section Steps

variable {region : Region} {step : Step}

/-- A step that does not write at the back and is not there to make room is one push
of what it writes. This reduces all steps from the front to one case. -/
theorem after_eq_push (hwrites : step.writes = true) (hback : step.back? = none) :
    region.after step = region.push (step.front region.order) := by
  cases step with
  | back b => cases hback
  | reserve count => cases hwrites
  | byte b | bytes bs | zeros count | int32 n | int64 n | uint32 n | uint64 n => rfl
  | sized bs =>
    by_cases hlength : bs.length < Frame.lengthLimit
    · have hword := region.order.length_word Frame.lengthSize bs.length
      have hpush : region.after (.sized bs) = ((region.reserve (Frame.lengthSize + bs.length)).pushInt32
          (Int32.ofNat bs.length)).push bs := by
        simp only [after, Step.apply, pushSized, if_pos hlength]
      rw [hpush, pushInt32, toNat_toUInt32_ofNat hlength, order_reserve, Step.front,
        if_pos hlength, ← push_push_reserve, hword]
      rfl
    · rw [Step.front, if_neg hlength, push_nil]
      simp only [after, Step.apply, pushSized, if_neg hlength]

private theorem order_after : (region.after step).order = region.order := by
  cases step with
  | back b => exact region.order_pushBack b
  | reserve count => exact region.order_reserve count
  | _ => rw [after_eq_push rfl rfl, order_push]

/-- A step appends what it writes at the front. -/
theorem frontBytes_after :
    (region.after step).frontBytes = region.frontBytes ++ step.front region.order := by
  cases step with
  | back b => exact (region.frontBytes_pushBack b).trans (List.append_nil _).symm
  | reserve count => exact (region.frontBytes_reserve count).trans (List.append_nil _).symm
  | _ => rw [after_eq_push rfl rfl, frontBytes_push]

/-- A step puts what it writes at the back before what is there. -/
theorem backBytes_after :
    (region.after step).backBytes = step.back?.toList ++ region.backBytes := by
  cases step with
  | back b => exact region.backBytes_pushBack b
  | reserve count => exact region.backBytes_reserve count
  | _ => rw [after_eq_push rfl rfl, backBytes_push]; rfl

/-- A step keeps the cells or gets at least twice as many. -/
theorem capacity_after_cases (region : Region) (step : Step) :
    (region.after step).capacity = region.capacity ∨
      2 * region.capacity ≤ (region.after step).capacity := by
  cases step with
  | back b =>
    rw [after_back, capacity_pushBack]
    exact region.capacity_reserve_cases 1
  | reserve count => exact region.capacity_reserve_cases count
  | _ =>
    rw [after_eq_push rfl rfl, capacity_push]
    exact region.capacity_reserve_cases _

/-- The number of bytes that a step writes in an order. -/
def Step.size (order : ByteOrder) (step : Step) : Nat :=
  (step.front order).length + step.back?.toList.length

private theorem front_after : (region.after step).front = region.front + (step.front region.order).length := by
  rw [← length_frontBytes, frontBytes_after, List.length_append, length_frontBytes]

private theorem back_after : (region.after step).back = region.back + step.back?.toList.length := by
  rw [← length_backBytes, backBytes_after, List.length_append, length_backBytes, Nat.add_comm]

/-- A step that only writes keeps the cells if there is room for what it writes. A
step that only makes room is left out, as it may ask for more than it writes. -/
theorem capacity_after_of_le (hwrites : step.writes = true)
    (hroom : step.size region.order ≤ region.free) :
    (region.after step).capacity = region.capacity := by
  cases step with
  | reserve count => cases hwrites
  | back b =>
    rw [after_back, capacity_pushBack, reserve_of_le]
    exact hroom
  | _ =>
    rw [after_eq_push rfl rfl, capacity_push, reserve_of_le]
    exact hroom

/-- What such a step writes is taken from the room there is. -/
theorem free_after_of_le (hwrites : step.writes = true)
    (hroom : step.size region.order ≤ region.free) :
    (region.after step).free + step.size region.order = region.free := by
  have hbefore := region.front_add_back_add_free
  have hafter := (region.after step).front_add_back_add_free
  rw [capacity_after_of_le hwrites hroom, front_after, back_after] at hafter
  rw [Step.size]
  omega

end Steps

section Runs

variable {region : Region} {steps : List Step}

private theorem order_run : (region.run steps).order = region.order := by
  induction steps generalizing region with
  | nil => rfl
  | cons step steps ih => rw [run_cons, ih, order_after]

/-- The bytes at the front are all that was written there, in the order of the
steps. -/
theorem frontBytes_run :
    (region.run steps).frontBytes = region.frontBytes ++ steps.flatMap (Step.front region.order) := by
  induction steps generalizing region with
  | nil => exact (List.append_nil _).symm
  | cons step steps ih =>
    rw [run_cons, ih, order_after, frontBytes_after, List.flatMap_cons, List.append_assoc]

/-- The bytes at the back are all that was written there, the latest first. -/
theorem backBytes_run :
    (region.run steps).backBytes = (steps.filterMap Step.back?).reverse ++ region.backBytes := by
  induction steps generalizing region with
  | nil => rfl
  | cons step steps ih =>
    rw [run_cons, ih, backBytes_after, ← List.append_assoc]
    cases hback : step.back? with
    | none => rw [List.filterMap_cons_none hback, Option.toList_none, List.append_nil]
    | some b => rw [List.filterMap_cons_some hback, List.reverse_cons, Option.toList_some]

private theorem frontBytes_run_empty (capacity : Nat) (order : ByteOrder) :
    ((empty capacity order).run steps).frontBytes = steps.flatMap (Step.front order) := by
  have hnone := (List.append_eq_nil_iff.1 (toBytes_empty capacity order)).1
  rw [frontBytes_run, hnone, List.nil_append]
  rfl

private theorem backBytes_run_empty (capacity : Nat) (order : ByteOrder) :
    ((empty capacity order).run steps).backBytes = (steps.filterMap Step.back?).reverse := by
  have hnone := (List.append_eq_nil_iff.1 (toBytes_empty capacity order)).2
  rw [backBytes_run, hnone, List.append_nil]

/-- What is written in a region does not depend on the cells it has at first. Nor
does it depend on the room that is made in between. -/
theorem toBytes_run_empty (capacity : Nat) (order : ByteOrder) :
    ((empty capacity order).run steps).toBytes =
      steps.flatMap (Step.front order) ++ (steps.filterMap Step.back?).reverse := by
  rw [toBytes_eq, frontBytes_run_empty, backBytes_run_empty]

private theorem capacity_le_capacity_run : region.capacity ≤ (region.run steps).capacity := by
  induction steps generalizing region with
  | nil => exact Nat.le_refl _
  | cons step steps ih =>
    have hstep : region.capacity ≤ (region.after step).capacity := by
      obtain h | h := region.capacity_after_cases step <;> omega
    exact Nat.le_trans hstep ih

private theorem length_front_add_back_cons (step : Step) (order : ByteOrder) :
    ((step :: steps).flatMap (Step.front order)).length +
        ((step :: steps).filterMap Step.back?).length =
      step.size order +
        ((steps.flatMap (Step.front order)).length + (steps.filterMap Step.back?).length) := by
  rw [List.flatMap_cons, List.length_append, Step.size]
  cases hback : step.back? with
  | none =>
    rw [List.filterMap_cons_none hback, Option.toList_none, List.length_nil]
    omega
  | some b =>
    rw [List.filterMap_cons_some hback, Option.toList_some, List.length_cons, List.length_cons,
      List.length_nil]
    omega

/-- Steps that only write keep the cells if there is room for all that they write.
The induction is on the steps, and the room that is left carries it. -/
theorem capacity_run_of_le (hwrites : ∀ step ∈ steps, step.writes = true)
    (hroom : (steps.flatMap (Step.front region.order)).length +
      (steps.filterMap Step.back?).length ≤ region.free) :
    (region.run steps).capacity = region.capacity := by
  induction steps generalizing region with
  | nil => rfl
  | cons step steps ih =>
    rw [List.forall_mem_cons] at hwrites
    rw [length_front_add_back_cons] at hroom
    have hfirst : step.size region.order ≤ region.free := Nat.le_trans (Nat.le_add_right ..) hroom
    have hleft := free_after_of_le hwrites.1 hfirst
    have hrest : (steps.flatMap (Step.front (region.after step).order)).length +
        (steps.filterMap Step.back?).length ≤ (region.after step).free := by
      rw [order_after]
      omega
    rw [run_cons, ih hwrites.2 hrest, capacity_after_of_le hwrites.1 hfirst]

/-- Steps that make room leave no trace in the bytes. -/
theorem flatMap_front_filter_writes (order : ByteOrder) :
    (steps.filter Step.writes).flatMap (Step.front order) = steps.flatMap (Step.front order) := by
  induction steps with
  | nil => rfl
  | cons step steps ih =>
    cases step with
    | reserve count => exact ih
    | _ => rw [List.filter_cons_of_pos rfl, List.flatMap_cons, List.flatMap_cons, ih]

private theorem filterMap_back_filter_writes :
    (steps.filter Step.writes).filterMap Step.back? = steps.filterMap Step.back? := by
  rw [List.filterMap_filter]
  congr 1
  funext step
  cases step <;> rfl

end Runs

/-- Joined in the cells or not, the bytes written are the same. So it makes no
difference which of the two ways of handing them out is used. -/
theorem compact_eq_toBytes (region : Region) : region.compact = region.toBytes := by
  have hfits := region.fits
  rw [compact, toBytes_eq]
  split
  · rename_i hfull
    have hplace : region.cells.size - region.back = region.front := by omega
    rw [frontBytes_eq_take, backBytes_eq_drop, hplace, List.take_append_drop]
  · have hroom : region.front + region.backBytes.length ≤ region.cells.size := by
      rwa [length_backBytes]
    have hlength : (region.cells.toList.take region.front ++ region.backBytes).length =
        region.front + region.back := by
      rw [← frontBytes_eq_take, List.length_append, length_frontBytes, length_backBytes]
    rw [Array.toList_extract, List.extract_eq_take_drop, toList_overwrite _ _ _ hroom,
      List.drop_zero, Nat.sub_zero, List.take_left' hlength, frontBytes_eq_take]

/-- A region under any steps. Its cells are the written and the free ones; they are
never fewer than before nor fewer than the least number, and if they become more,
then twice as many or more. What is reserved suffices for as much as is written
afterwards. The bytes are those written from the front and then those written from
the back, the latest first, so they depend neither on the cells at first nor on what
is reserved. -/
theorem run_holds_two_lists (capacity : Nat) (order : ByteOrder) (steps : List Step) :
    let region := (empty capacity order).run steps
    region.front = (steps.flatMap (Step.front order)).length ∧
    region.back = (steps.filterMap Step.back?).length ∧
    region.front + region.back + region.free = region.capacity ∧
    leastCapacity ≤ region.capacity ∧
    (∀ step, region.capacity ≤ (region.after step).capacity ∧
      ((region.after step).capacity ≠ region.capacity →
        2 * region.capacity ≤ (region.after step).capacity)) ∧
    (∀ count writes, (∀ step ∈ writes, step.writes = true) →
      (writes.flatMap (Step.front order)).length + (writes.filterMap Step.back?).length ≤ count →
      ((region.after (.reserve count)).run writes).capacity =
        (region.after (.reserve count)).capacity) ∧
    region.toBytes = steps.flatMap (Step.front order) ++ (steps.filterMap Step.back?).reverse ∧
    region.compact = region.toBytes ∧
    (∀ otherCapacity otherSteps, otherSteps.filter Step.writes = steps.filter Step.writes →
      ((empty otherCapacity order).run otherSteps).toBytes = region.toBytes) := by
  intro region
  have horder : region.order = order := order_run
  refine ⟨?_, ?_, region.front_add_back_add_free, ?_, ?_, ?_, toBytes_run_empty capacity order,
    region.compact_eq_toBytes, ?_⟩
  · rw [← length_frontBytes, frontBytes_run_empty]
  · rw [← length_backBytes, backBytes_run_empty, List.length_reverse]
  · have hleast : leastCapacity ≤ (empty capacity order).capacity := by
      rw [empty, Region.capacity, Array.size_replicate]
      exact Nat.le_max_right ..
    exact Nat.le_trans hleast capacity_le_capacity_run
  · intro step
    obtain h | h := region.capacity_after_cases step <;> omega
  · intro count writes hwrites htotal
    apply capacity_run_of_le hwrites
    rw [after_reserve, order_reserve, horder]
    exact Nat.le_trans htotal (region.le_free_reserve count)
  · intro otherCapacity otherSteps hsame
    rw [toBytes_run_empty, toBytes_run_empty, ← flatMap_front_filter_writes, hsame,
      flatMap_front_filter_writes, ← filterMap_back_filter_writes, hsame,
      filterMap_back_filter_writes]

/-- A region of 16 cells that is full, with 13 zeros and a byte from the front and
two bytes from the back. The next byte doubles it; five cells made ready are enough
for a number of four bytes and one more at the back. -/
theorem run_holds_two_lists_when_full :
    let region := (empty 3 .little).run [.zeros 13, .back 1, .byte 7, .back 2]
    region.free = 0 ∧
    (region.after (.back 3)).capacity = 32 ∧
    2 * region.capacity ≤ (region.after (.back 3)).capacity ∧
    (∀ step ∈ [Step.int32 (-2), .back 4], step.writes = true) ∧
    ((region.after (.reserve 5)).run [.int32 (-2), .back 4]).capacity =
      (region.after (.reserve 5)).capacity ∧
    region.compact = [0, 0, 0, 0, 0, 0, 0, 0, 0, 0, 0, 0, 0, 7, 2, 1] ∧
    ((empty 90 .little).run [.zeros 13, .back 1, .reserve 50, .byte 7, .back 2]).toBytes =
      region.toBytes := by
  intro region
  obtain ⟨-, -, -, -, hgrow, hroom, hbytes, hcompact, hsame⟩ :=
    run_holds_two_lists 3 .little [.zeros 13, .back 1, .byte 7, .back 2]
  have hwrites : ∀ step ∈ [Step.int32 (-2), .back 4], step.writes = true := by decide
  exact ⟨by decide, by decide, (hgrow (.back 3)).2 (by decide), hwrites,
    hroom 5 _ hwrites (by decide), hcompact.trans hbytes, hsame 90 _ (by decide)⟩

end KeyedRows.Region
