import KeyedRows.Guarded.Reader
import KeyedRows.Proofs.Cursor.Running
import KeyedRows.Proofs.Reader.Taking

namespace KeyedRows

namespace Cursor

variable {cursor after : Cursor}

/-- A cursor without what is known of its ends. -/
def bare (cursor : Cursor) : Bare :=
  ⟨cursor.data.toList, cursor.pos, cursor.stop, cursor.order⟩

theorem bare_of (bytes : Bytes) (order : ByteOrder) :
    (of bytes order).bare = ⟨bytes, 0, bytes.length, order⟩ :=
  rfl

/-- A movement of a cursor is the same movement without its promise. -/
theorem Moved.bare {front back : Nat} (h : after.Moved cursor front back) :
    after.bare = ⟨cursor.data.toList, cursor.pos + front, cursor.stop - back, cursor.order⟩ := by
  rw [Cursor.bare, h.data, h.pos, h.order, ← h.stop, Nat.add_sub_cancel]

/-- As far as bytes are unread, places behind the position lie inside the data. A
cursor has this from its well-formedness, and nothing else is used of it here. -/
theorem pos_add_le_length {count : Nat} (hroom : count ≤ cursor.remaining) :
    cursor.pos + count ≤ cursor.data.toList.length := by
  have hpos := cursor.pos_le_stop
  have hstop := cursor.stop_le_size
  rw [Array.length_toList]
  simp only [remaining] at hroom
  omega

end Cursor

namespace Guard

theorem difference_of_le {a b : Nat} (h : b ≤ a) : difference a b = .ok (a - b) :=
  if_pos h

theorem upTo_of_le {limit n : Nat} (h : n ≤ limit) : upTo limit n = .ok n :=
  if_pos h

theorem element_of_getElem? {α : Type} {elements : List α} {index : Nat} {a : α}
    (h : elements[index]? = some a) : element elements index = .ok a := by
  rw [element, h]

private theorem range_of_le {bytes : Bytes} {start stop : Nat} (hle : start ≤ stop)
    (hin : stop ≤ bytes.length) : range bytes start stop = .ok ((bytes.drop start).take (stop - start)) :=
  if_pos ⟨hle, hin⟩

/-- A range from the beginning is found if it stops within the bytes. -/
theorem range_zero {bytes : Bytes} {stop : Nat} (hin : stop ≤ bytes.length) :
    range bytes 0 stop = .ok (bytes.take stop) :=
  range_of_le (Nat.zero_le _) hin

end Guard

namespace Guarded

open Reader (Gives)

variable {α β : Type} {cursor : Cursor} {count : Nat}

/-- A guarded reader behind one that succeeds goes on where that one has stopped. -/
theorem bind_of_ok {guarded : Guarded α} {next : α → Guarded β} {bare after : Bare} {a : α}
    (h : guarded bare = .ok (.ok a, after)) : (guarded >>= next) bare = next a after := by
  change Guarded.bind guarded next bare = next a after
  rw [Guarded.bind, h]

/-- An error ends a series of guarded readers as it does one of readers. -/
theorem bind_of_error {guarded : Guarded α} {next : α → Guarded β} {bare after : Bare} {e : Error}
    (h : guarded bare = .ok (.error e, after)) :
    (guarded >>= next) bare = .ok (.error e, after) := by
  change Guarded.bind guarded next bare = .ok (.error e, after)
  rw [Guarded.bind, h]

/-- A fault ends a series of guarded readers and cannot be taken for an error. -/
theorem bind_of_fault {guarded : Guarded α} {next : α → Guarded β} {bare : Bare} {fault : Fault}
    (h : guarded bare = .error fault) : (guarded >>= next) bare = .error fault := by
  change Guarded.bind guarded next bare = .error fault
  rw [Guarded.bind, h]

/-- A look at the cursor that finds no fault does not move it. -/
theorem look_of_ok {f : Bare → Except Fault α} {bare : Bare} {a : α} (h : f bare = .ok a) :
    look f bare = .ok (.ok a, bare) := by
  rw [look, h]
  rfl

private theorem move_of_ok {f : Bare → Except Fault Bare} {bare after : Bare} (h : f bare = .ok after) :
    move f bare = .ok (.ok (), after) := by
  rw [move, h]
  rfl

private theorem remaining_bare (cursor : Cursor) :
    remaining cursor.bare = .ok (.ok cursor.remaining, cursor.bare) :=
  look_of_ok (Guard.difference_of_le cursor.pos_le_stop)

private theorem require_of_le (hroom : count ≤ cursor.remaining) :
    require count cursor.bare = .ok (.ok (), cursor.bare) := by
  rw [require, bind_of_ok (remaining_bare cursor), if_neg (Nat.not_lt.2 hroom)]
  rfl

private theorem require_of_lt (hshort : cursor.remaining < count) :
    require count cursor.bare =
      .ok (.error (.truncated count cursor.remaining), cursor.bare) := by
  rw [require, bind_of_ok (remaining_bare cursor), if_pos hshort]
  rfl

private theorem advance_of_le (hroom : count ≤ cursor.remaining) {after : Cursor}
    (hafter : after.Moved cursor count 0) :
    advance count cursor.bare = .ok (.ok (), after.bare) := by
  apply move_of_ok
  have hpos : Guard.upTo cursor.bare.data.length (cursor.bare.pos + count) = _ :=
    Guard.upTo_of_le (Cursor.pos_add_le_length hroom)
  rw [hpos, hafter.bare]
  rfl

private theorem retreat_of_pos (hroom : 1 ≤ cursor.remaining) {after : Cursor}
    (hafter : after.Moved cursor 0 1) : retreat cursor.bare = .ok (.ok (), after.bare) := by
  apply move_of_ok
  have hpos : 1 ≤ cursor.stop := Nat.le_trans hroom (Nat.sub_le ..)
  have hstop : Guard.difference cursor.bare.stop 1 = _ := Guard.difference_of_le hpos
  rw [hstop, hafter.bare]
  rfl

/-- A guarded reader does at a cursor what a reader does, without a fault, and if
the reader asks for more bytes than are left there are fewer left. -/
structure Mirrors (guarded : Guarded α) (reader : Reader α) (cursor : Cursor) : Prop where
  same : guarded cursor.bare = .ok ((reader cursor).1, (reader cursor).2.bare)
  short : ∀ needed left after,
    reader cursor = (.error (.truncated needed left), after) → left < needed

variable {guarded : Guarded α} {reader : Reader α}

theorem mirrors_pure (a : α) : Mirrors (pure a) (pure a) cursor where
  same := rfl
  short _ _ _ h := nomatch h

/-- An error is the same error on both sides. If it says that bytes are missing,
they must be. -/
theorem mirrors_fail {e : Error} (hshort : ∀ needed left, e = .truncated needed left → left < needed) :
    Mirrors (fail e : Guarded α) (Reader.fail e) cursor where
  same := rfl
  short needed left after h := by
    cases h
    exact hshort needed left rfl

theorem mirrors_truncated {needed left : Nat} (hshort : left < needed) :
    (fail (.truncated needed left) : Guarded α).Mirrors (Reader.fail (.truncated needed left)) cursor := by
  apply mirrors_fail
  intro needed' left' h
  cases h
  exact hshort

/-- A choice mirrors a choice if both ways do, each where it is taken. -/
theorem Mirrors.ite {p : Prop} [Decidable p] {guarded' : Guarded α} {reader' : Reader α}
    (h : p → guarded.Mirrors reader cursor) (h' : ¬p → guarded'.Mirrors reader' cursor) :
    (if p then guarded else guarded').Mirrors (if p then reader else reader') cursor := by
  by_cases hp : p
  · rw [if_pos hp, if_pos hp]
    exact h hp
  · rw [if_neg hp, if_neg hp]
    exact h' hp

/-- Series of readers mirror each other if their parts do. The second part is only
asked for where the first one succeeds, with what the first one gives. -/
theorem Mirrors.bind {next' : α → Guarded β} {next : α → Reader β}
    (h : guarded.Mirrors reader cursor)
    (hnext : ∀ a after, reader cursor = (.ok a, after) → (next' a).Mirrors (next a) after) :
    (guarded >>= next').Mirrors (reader >>= next) cursor := by
  obtain ⟨hsame, hshort⟩ := h
  rcases hread : reader cursor with ⟨e | a, after⟩
  · rw [hread] at hsame
    refine ⟨?_, fun needed left stop hstop => ?_⟩
    · rw [bind_of_error hsame, Reader.bind_of_error hread]
    · rw [Reader.bind_of_error hread] at hstop
      cases hstop
      exact hshort needed left after hread
  · rw [hread] at hsame
    obtain ⟨hsame', hshort'⟩ := hnext a after hread
    refine ⟨?_, fun needed left stop hstop => ?_⟩
    · rw [bind_of_ok hsame, Reader.bind_of_ok hread, hsame']
    · rw [Reader.bind_of_ok hread] at hstop
      exact hshort' needed left stop hstop

/-- What is made of a result hits no fault. -/
theorem Mirrors.map (f : α → β) (h : guarded.Mirrors reader cursor) :
    (guarded >>= fun a => pure (f a)).Mirrors (reader >>= fun a => pure (f a)) cursor :=
  h.bind fun a _ _ => mirrors_pure (f a)

/-- A check that finds nothing may stand in front. -/
theorem Mirrors.check {result : Except Fault β} {b : β} {next : β → Guarded α} (hresult : result = .ok b)
    (h : (next b).Mirrors reader cursor) :
    (Guarded.check result >>= next).Mirrors reader cursor where
  same := (bind_of_ok (look_of_ok hresult)).trans h.same
  short := h.short

/-- A reader that succeeds is mirrored by what moves the bare cursor alike. It is
enough to look at cursors that have moved alike. -/
theorem mirrors_of_gives {a : α} {front back : Nat} (h : reader.Gives cursor (.ok a) front back)
    (hguarded : ∀ after : Cursor, after.Moved cursor front back →
      guarded cursor.bare = .ok (.ok a, after.bare)) :
    guarded.Mirrors reader cursor := by
  obtain ⟨after, hread, hafter⟩ := h
  refine ⟨?_, fun needed left stop hstop => ?_⟩
  · rw [hguarded after hafter, hread]
  · rw [hread] at hstop
    cases hstop

/-- A reader that finds too few bytes is mirrored by what asks for so many first.
The demand must be the first thing, so that nothing is computed before it is met. -/
theorem mirrors_of_lt {next : Unit → Guarded α} (hshort : cursor.remaining < count)
    (h : reader.Gives cursor (.error (.truncated count cursor.remaining)) 0 0) :
    (require count >>= next).Mirrors reader cursor := by
  obtain ⟨after, hread, hafter⟩ := h
  refine ⟨?_, fun needed left stop hstop => ?_⟩
  · rw [bind_of_error (require_of_lt hshort), hread, hafter.bare]
    rfl
  · rw [hread] at hstop
    cases hstop
    exact hshort

/-- The number of bytes left is computed without a fault, since the ends do not
cross. -/
theorem mirrors_remaining : remaining.Mirrors Reader.remaining cursor where
  same := remaining_bare cursor
  short _ _ _ h := nomatch h

/-- Moving on hits no fault, however many bytes are asked for: it is checked that
they are there before the sum is computed. -/
theorem mirrors_skip (count : Nat) : (skip count).Mirrors (Reader.skip count) cursor := by
  by_cases hshort : cursor.remaining < count
  · exact mirrors_of_lt hshort (Reader.gives_skip_of_lt hshort)
  · have hroom := Nat.le_of_not_lt hshort
    apply mirrors_of_gives (Reader.gives_skip hroom)
    intro after hafter
    rw [skip, bind_of_ok (require_of_le hroom), advance_of_le hroom hafter]

/-- Taking bytes hits no fault, however many are asked for. -/
theorem mirrors_take (count : Nat) : (take count).Mirrors (Reader.take count) cursor := by
  by_cases hshort : cursor.remaining < count
  · exact mirrors_of_lt hshort (Reader.gives_take_of_lt hshort)
  · have hroom := Nat.le_of_not_lt hshort
    have hin := Cursor.pos_add_le_length hroom
    have hrange : Guard.range cursor.data.toList cursor.pos (cursor.pos + count) =
        .ok (cursor.next count) := by
      rw [Guard.range_of_le (Nat.le_add_right ..) hin, Nat.add_sub_cancel_left, Cursor.next]
    apply mirrors_of_gives (Reader.gives_take hroom)
    intro after hafter
    rw [take, bind_of_ok (require_of_le hroom), bind_of_ok (look_of_ok (a := cursor.next count) ?_),
      bind_of_ok (advance_of_le hroom hafter)]
    · rfl
    · have hstop : Guard.upTo cursor.bare.data.length (cursor.bare.pos + count) = _ :=
        Guard.upTo_of_le hin
      rw [hstop]
      exact hrange

/-- From a cursor whose end lies behind its data, reading runs into a fault. -/
example : take 2 ⟨[7], 0, 3, .big⟩ = .error .tooLarge := rfl

/-- Taking a byte hits no fault, whether or not there is one. -/
theorem mirrors_byte : byte.Mirrors Reader.byte cursor := by
  by_cases hshort : cursor.remaining < 1
  · exact mirrors_of_lt hshort (Reader.gives_byte_of_lt hshort)
  · have hroom := Nat.le_of_not_lt hshort
    have hin : cursor.pos < cursor.data.toList.length := Cursor.pos_add_le_length hroom
    have hfirst : cursor.data.toList[cursor.pos]? = some ((cursor.next 1).headD 0) := by
      rw [Cursor.next, List.drop_eq_getElem_cons hin, List.getElem?_eq_getElem hin]
      rfl
    apply mirrors_of_gives (Reader.gives_byte hroom)
    intro after hafter
    rw [byte, bind_of_ok (require_of_le hroom),
      bind_of_ok (look_of_ok (Guard.element_of_getElem? hfirst)),
      bind_of_ok (advance_of_le hroom hafter)]
    rfl

theorem mirrors_lastByte : lastByte.Mirrors Reader.lastByte cursor := by
  by_cases hshort : cursor.remaining < 1
  · exact mirrors_of_lt hshort (Reader.gives_lastByte_of_lt hshort)
  · have hroom := Nat.le_of_not_lt hshort
    obtain ⟨b, hb, hread⟩ := Reader.gives_lastByte hroom
    apply mirrors_of_gives hread
    intro after hafter
    rw [lastByte, bind_of_ok (require_of_le hroom), bind_of_ok (retreat_of_pos hroom hafter)]
    apply look_of_ok
    rw [hafter.bare]
    exact Guard.element_of_getElem? hb

private theorem mirrors_numberIn (order : ByteOrder) (width : Nat) :
    (numberIn order width).Mirrors (Reader.numberIn order width) cursor := by
  apply (mirrors_take width).bind
  intro bytes after htake
  have hwidth : bytes.length = width := (Reader.follows_take htake).1
  have hword : Guard.range bytes 0 width = .ok bytes := by
    rw [Guard.range_zero (Nat.le_of_eq hwidth.symm), ← hwidth, List.take_length]
  exact (mirrors_pure _).check hword

private theorem mirrors_number (width : Nat) :
    (number width).Mirrors (Reader.number width) cursor := by
  have horder : (look fun bare => .ok bare.order).Mirrors Reader.order cursor := ⟨rfl, nofun⟩
  exact horder.bind fun order _ _ => mirrors_numberIn order width

theorem mirrors_int32 : int32.Mirrors Reader.int32 cursor :=
  (mirrors_number 4).map _

theorem mirrors_int64 : int64.Mirrors Reader.int64 cursor :=
  (mirrors_number 8).map _

theorem mirrors_uint32 : uint32.Mirrors Reader.uint32 cursor :=
  (mirrors_numberIn .big 4).map _

theorem mirrors_uint64 : uint64.Mirrors Reader.uint64 cursor :=
  (mirrors_numberIn .big 8).map _

/-- A length is read without a fault; a negative one is an error on both sides. -/
theorem mirrors_length : length.Mirrors Reader.length cursor := by
  apply mirrors_int32.bind
  intro n after _
  exact Mirrors.ite (fun _ => mirrors_fail nofun) fun _ => mirrors_pure _

/-- A payload is read without a fault, whatever length its field names. -/
theorem mirrors_sized : sized.Mirrors Reader.sized cursor :=
  mirrors_length.bind fun count _ _ => mirrors_take count

/-- A payload is moved over without a fault, whatever length its field names. -/
theorem mirrors_skipSized : skipSized.Mirrors Reader.skipSized cursor :=
  mirrors_length.bind fun count _ _ => mirrors_skip count

/-- Things are read one by one without a fault if each of them is, wherever it
stands. No bound on the count is needed here; whoever computes with it must have
one. -/
theorem mirrors_repeated {item' : Guarded α} {item : Reader α}
    (hitem : ∀ cursor, item'.Mirrors item cursor) (count : Nat) (cursor : Cursor) :
    (repeated item' count).Mirrors (Reader.repeated item count) cursor := by
  induction count generalizing cursor with
  | zero => exact mirrors_pure []
  | succ count ih =>
    apply (hitem cursor).bind
    intro a after _
    exact (ih after).map (a :: ·)

end Guarded

end KeyedRows
