import KeyedRows.Cursor.Run
import KeyedRows.Proofs.Reader.Consuming
import KeyedRows.Proofs.Region.Running

namespace KeyedRows

/-- The reading step that matches what a step writes at the front, and what it is to
give. There is none if nothing is written there, as with a payload that is refused. -/
def Region.Step.read? : Region.Step → Option (Cursor.Step × Cursor.Reading)
  | byte b => some (.byte, .byte b)
  | bytes bs => some (.bytes bs.length, .bytes bs)
  | zeros count => some (.bytes count, .bytes (List.replicate count 0))
  | int32 n => some (.int32, .int32 n)
  | int64 n => some (.int64, .int64 n)
  | uint32 n => some (.uint32, .uint32 n)
  | uint64 n => some (.uint64, .uint64 n)
  | sized bs => if bs.length < Frame.lengthLimit then some (.sized, .bytes bs) else none
  | back _ | reserve _ => none

namespace Cursor

open Reader

variable {order : ByteOrder}

/-- Bytes hold what certain reading steps are to give, one behind the other. -/
inductive Holds (order : ByteOrder) : List (Step × Reading) → Bytes → Prop where
  | nil : Holds order [] []
  | cons {step : Step} {reading : Reading} {rest : List (Step × Reading)} {early late : Bytes}
      (hfirst : Consumes order step.reader early reading) (hstep : step ≠ .back)
      (hrest : Holds order rest late) :
      Holds order ((step, reading) :: rest) (early ++ late)

/-- What a step writes at the front is taken by the step that matches it. Steps that
match nothing, as those that make room, have no such reading step. -/
theorem consumes_read {write : Region.Step} {step : Step} {reading : Reading}
    (hread : write.read? = some (step, reading)) :
    step ≠ .back ∧ Consumes order step.reader (write.front order) reading := by
  cases write with
  | back b | reserve count => cases hread
  | byte b =>
    cases hread
    exact ⟨nofun, (consumes_byte order b).map Reading.byte⟩
  | bytes bs =>
    cases hread
    exact ⟨nofun, (consumes_take order bs).map Reading.bytes⟩
  | zeros count =>
    cases hread
    have htake := consumes_take order (List.replicate count 0)
    rw [List.length_replicate] at htake
    exact ⟨nofun, htake.map Reading.bytes⟩
  | int32 n =>
    cases hread
    exact ⟨nofun, (consumes_int32 order n).map Reading.int32⟩
  | int64 n =>
    cases hread
    exact ⟨nofun, (consumes_int64 order n).map Reading.int64⟩
  | uint32 n =>
    cases hread
    have hword := consumes_uint32 order n.toNat_lt
    rw [UInt32.ofNat_toNat] at hword
    exact ⟨nofun, hword.map Reading.uint32⟩
  | uint64 n =>
    cases hread
    have hword := consumes_uint64 order n.toNat_lt
    rw [UInt64.ofNat_toNat] at hword
    exact ⟨nofun, hword.map Reading.uint64⟩
  | sized bs =>
    rw [Region.Step.read?] at hread
    rw [Region.Step.front]
    split at hread
    · rename_i hlength
      cases hread
      rw [if_pos hlength]
      exact ⟨by simp, (consumes_sized order hlength).map Reading.bytes⟩
    · cases hread

private theorem front_of_read_eq_none {write : Region.Step} (hread : write.read? = none) :
    write.front order = [] := by
  cases write with
  | back b | reserve count => rfl
  | sized bs =>
    rw [Region.Step.read?] at hread
    split at hread
    · cases hread
    · rename_i hlength
      exact if_neg hlength
  | _ => cases hread

/-- What steps write at the front holds what they wrote. -/
theorem holds_front (writes : List Region.Step) :
    Holds order (writes.filterMap Region.Step.read?) (writes.flatMap (Region.Step.front order)) := by
  induction writes with
  | nil => exact .nil
  | cons write writes ih =>
    rw [List.flatMap_cons]
    cases hread : write.read? with
    | none =>
      rw [List.filterMap_cons_none hread, front_of_read_eq_none hread]
      exact ih
    | some pair =>
      obtain ⟨hstep, hfirst⟩ := @consumes_read order _ _ _ hread
      rw [List.filterMap_cons_some hread]
      exact .cons hfirst hstep ih

/-- Reading steps find what the bytes between both ends hold, whichever end each of
them turns to. The induction is on the reading steps. Both hypotheses about them
count what is taken from each end, and leave the order between the ends free. -/
theorem trace_of_holds {cursor : Cursor} {fronts : List (Step × Reading)} {bytes backs : Bytes}
    {reads : List Step} (hholds : Holds order fronts bytes) (horder : cursor.order = order)
    (hunread : cursor.unread = bytes ++ backs.reverse)
    (hfront : reads.filter (· ≠ .back) = fronts.map Prod.fst)
    (hback : reads.count .back = backs.length) :
    ((cursor.trace reads).filter (·.step ≠ .back)).map Event.outcome =
        fronts.map (fun pair => .ok pair.2) ∧
      ((cursor.trace reads).filter (·.step = .back)).map Event.outcome =
        backs.map (fun b => .ok (.byte b)) ∧
      (cursor.run reads).unread = [] := by
  -- Each reading step takes its bytes off one end, and what is left holds what the others are to give.
  induction reads generalizing cursor fronts bytes backs with
  | nil =>
    have hnone : backs = [] := List.eq_nil_of_length_eq_zero hback.symm
    subst hnone
    cases hholds with
    | nil => exact ⟨rfl, rfl, hunread⟩
    | cons => cases hfront
  | cons read reads ih =>
    by_cases hend : read = .back
    · subst hend
      rw [List.filter_cons_of_neg (by simp)] at hfront
      rw [List.count_cons_self] at hback
      cases backs with
      | nil => cases hback
      | cons b rest =>
        rw [List.reverse_cons, ← List.append_assoc] at hunread
        obtain ⟨middle, hlast, hmiddle, hsame⟩ := lastByte_of_unread_eq_append hunread
        have hread : Step.back.reader cursor = (.ok (.byte b), middle) := bind_of_ok hlast
        have hevent : cursor.event .back = ⟨.back, cursor, .ok (.byte b), middle⟩ := by
          rw [event, hread]
        obtain ⟨hfronts, hbacks, hleft⟩ :=
          ih hholds (hsame.trans horder) hmiddle hfront (Nat.succ.inj hback)
        rw [trace, run_cons, hevent, List.filter_cons_of_neg (by simp), List.filter_cons_of_pos (by simp),
          List.map_cons, List.map_cons, hbacks]
        exact ⟨hfronts, rfl, hleft⟩
    · rw [List.filter_cons_of_pos (by simpa using hend)] at hfront
      rw [List.count_cons_of_ne hend] at hback
      cases hholds with
      | nil => cases hfront
      | @cons step reading fronts early late hfirst hstep hrest =>
        obtain ⟨rfl, htail⟩ := List.cons.inj hfront
        rw [List.append_assoc] at hunread
        obtain ⟨middle, hread, hmiddle, hsame⟩ := hfirst cursor _ horder hunread
        have hevent : cursor.event read = ⟨read, cursor, .ok reading, middle⟩ := by
          rw [event, hread]
        obtain ⟨hfronts, hbacks, hleft⟩ := ih hrest hsame hmiddle htail hback
        rw [trace, run_cons, hevent, List.filter_cons_of_pos (by simpa using hend),
          List.filter_cons_of_neg (by simpa using hend), List.map_cons, List.map_cons, hfronts]
        exact ⟨rfl, hbacks, hleft⟩

/-- Whatever is written in a region, a cursor over its bytes reads back. The reading
steps that match what was written from the front come in the order of writing, and
there is one step from the back for each byte that was written there; how both are
mixed is free, on either side. No step fails, and nothing is left. -/
theorem run_reads_back (capacity : Nat) (order : ByteOrder) (writes : List Region.Step)
    (reads : List Step)
    (hfront : reads.filter (· ≠ .back) = (writes.filterMap Region.Step.read?).map Prod.fst)
    (hback : reads.count .back = (writes.filterMap Region.Step.back?).length) :
    let cursor := of ((Region.empty capacity order).run writes).toBytes order
    ((cursor.trace reads).filter (·.step ≠ .back)).map Event.outcome =
        (writes.filterMap Region.Step.read?).map (fun pair => .ok pair.2) ∧
      ((cursor.trace reads).filter (·.step = .back)).map Event.outcome =
        (writes.filterMap Region.Step.back?).map (fun b => .ok (.byte b)) ∧
      (cursor.run reads).atEnd = true := by
  intro cursor
  have hunread : cursor.unread = writes.flatMap (Region.Step.front order) ++
      (writes.filterMap Region.Step.back?).reverse := by
    rw [unread_of, Region.toBytes_run_empty]
  obtain ⟨hfronts, hbacks, hleft⟩ :=
    trace_of_holds (holds_front writes) rfl hunread hfront hback
  refine ⟨hfronts, hbacks, ?_⟩
  rw [atEnd, ← length_unread, hleft]
  rfl

/-- Two bytes are written from the back before and after a growth, and read first
and last. -/
theorem run_reads_back_across_growth :
    let writes : List Region.Step :=
      [.back 1, .int32 (-2), .sized [7, 7, 7, 7, 7], .reserve 3, .uint64 5, .back 4]
    let reads : List Step := [.back, .int32, .sized, .back, .uint64]
    let cursor := of ((Region.empty 0 .little).run writes).toBytes .little
    reads.filter (· ≠ .back) = (writes.filterMap Region.Step.read?).map Prod.fst ∧
    ((cursor.trace reads).filter (·.step ≠ .back)).map Event.outcome =
      [.ok (.int32 (-2)), .ok (.bytes [7, 7, 7, 7, 7]), .ok (.uint64 5)] ∧
    ((cursor.trace reads).filter (·.step = .back)).map Event.outcome =
      [.ok (.byte 1), .ok (.byte 4)] ∧
    (cursor.run reads).atEnd = true := by
  intro writes reads cursor
  have hfront : reads.filter (· ≠ .back) = (writes.filterMap Region.Step.read?).map Prod.fst := by
    decide
  exact ⟨hfront, run_reads_back 0 .little writes reads hfront (by decide)⟩

end Cursor

end KeyedRows
