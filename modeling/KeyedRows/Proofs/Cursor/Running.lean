import KeyedRows.Cursor.Run
import KeyedRows.Cursor.Unread
import KeyedRows.Proofs.Reader.Sequence

namespace KeyedRows

namespace Cursor

variable {cursor middle after : Cursor}

private theorem moved_refl (cursor : Cursor) : cursor.Moved cursor 0 0 :=
  ⟨rfl, rfl, rfl, rfl⟩

/-- Movements one after the other add up at both ends. -/
theorem Moved.trans {early early' late late' : Nat} (h : after.Moved middle late late')
    (h' : middle.Moved cursor early early') :
    after.Moved cursor (early + late) (early' + late') where
  data := h.data.trans h'.data
  pos := by rw [h.pos, h'.pos, Nat.add_assoc]
  stop := by rw [← h'.stop, ← h.stop, Nat.add_assoc, Nat.add_comm late']
  order := h.order.trans h'.order

/-- What has been read at the two ends and what remains are all bytes there were. -/
theorem Moved.remaining {front back : Nat} (h : after.Moved cursor front back) :
    after.remaining + front + back = cursor.remaining := by
  have hpos := h.pos
  have hstop := h.stop
  have hle := after.pos_le_stop
  simp only [Cursor.remaining]
  omega

private theorem take_unread {count : Nat} (hroom : count ≤ cursor.remaining) :
    cursor.unread.take count = cursor.next count := by
  rw [unread_eq, List.take_take, Nat.min_eq_left hroom, next]

private theorem Moved.remaining_of_front {front : Nat} (h : after.Moved cursor front 0) :
    after.remaining = cursor.remaining - front :=
  Nat.eq_sub_of_add_eq h.remaining

/-- The next bytes are those in front of a move and then those behind it. Hence what
a later step takes can be told from the bytes in front of an earlier one. -/
theorem Moved.next {front back : Nat} (h : after.Moved cursor front back) (count : Nat) :
    after.next count = (cursor.next (front + count)).drop front := by
  rw [Cursor.next, Cursor.next, h.data, h.pos, List.drop_take, List.drop_drop,
    Nat.add_sub_cancel_left]

/-- What is unread before a move is what was moved over at the front, what is unread
afterwards, and what was moved over at the end. -/
theorem Moved.unread {front back : Nat} (h : after.Moved cursor front back) :
    cursor.unread =
      cursor.next front ++ after.unread ++ (cursor.data.toList.drop after.stop).take back := by
  have hremaining := h.remaining
  have hplace : after.stop = cursor.pos + front + after.remaining := by
    have hpos := h.pos
    have hle := after.pos_le_stop
    simp only [Cursor.remaining]
    omega
  have hcount : cursor.remaining = front + after.remaining + back := by omega
  rw [unread_eq, unread_eq, Cursor.next, h.data, h.pos, hplace, hcount, List.take_add, List.take_add,
    List.drop_drop, List.drop_drop, Nat.add_assoc]

end Cursor

namespace Reader

variable {α β : Type} {cursor : Cursor} {front back late : Nat}

/-- A reader has an outcome at a cursor and moves it over some bytes at its front
and some at its end. -/
def Gives (reader : Reader α) (cursor : Cursor) (outcome : Except Error α) (front back : Nat) : Prop :=
  ∃ after, reader cursor = (outcome, after) ∧ after.Moved cursor front back

private theorem gives_pure (a : α) : Gives (pure a) cursor (.ok a) 0 0 :=
  ⟨cursor, rfl, cursor.moved_refl⟩

private theorem gives_fail (e : Error) : Gives (fail e : Reader α) cursor (.error e) 0 0 :=
  ⟨cursor, rfl, cursor.moved_refl⟩

/-- What is done behind a reader is done where it left the cursor. The first reader
must move at the front only, as all readers that others follow do. -/
theorem Gives.bind {reader : Reader α} {next : α → Reader β} {a : α} {outcome : Except Error β}
    (h : reader.Gives cursor (.ok a) front 0)
    (hnext : ∀ middle : Cursor, middle.Moved cursor front 0 →
      (next a).Gives middle outcome late 0) :
    (reader >>= next).Gives cursor outcome (front + late) 0 := by
  obtain ⟨middle, hread, hmiddle⟩ := h
  obtain ⟨after, hnext, hafter⟩ := hnext middle hmiddle
  exact ⟨after, (bind_of_ok hread).trans hnext, hafter.trans hmiddle⟩

/-- What is read may be judged where the reader left the cursor. What follows must
not move, wherever it is started. -/
theorem Gives.judge {reader : Reader α} {next : α → Reader β} {a : α} {outcome : Except Error β}
    (h : reader.Gives cursor (.ok a) front back)
    (hnext : ∀ middle, (next a).Gives middle outcome 0 0) :
    (reader >>= next).Gives cursor outcome front back := by
  obtain ⟨middle, hread, hmiddle⟩ := h
  obtain ⟨after, hnext, hafter⟩ := hnext middle
  exact ⟨after, (bind_of_ok hread).trans hnext, hafter.trans hmiddle⟩

private theorem Gives.bind_error {reader : Reader α} {next : α → Reader β} {e : Error}
    (h : reader.Gives cursor (.error e) front back) :
    (reader >>= next).Gives cursor (.error e) front back := by
  obtain ⟨after, hread, hafter⟩ := h
  exact ⟨after, bind_of_error hread, hafter⟩

/-- What is made of a result does not move the cursor. -/
theorem Gives.map {reader : Reader α} {a : α} (f : α → β)
    (h : reader.Gives cursor (.ok a) front back) :
    (reader >>= fun a => pure (f a)).Gives cursor (.ok (f a)) front back :=
  h.judge fun _ => gives_pure (f a)

/-- Moving on over bytes that are there moves the front end by their number. -/
theorem gives_skip {count : Nat} (hroom : count ≤ cursor.remaining) :
    (skip count).Gives cursor (.ok ()) count 0 :=
  ⟨_, dif_pos hroom, rfl, rfl, rfl, rfl⟩

/-- Moving on over more bytes than there are fails and moves no end. -/
theorem gives_skip_of_lt {count : Nat} (hshort : cursor.remaining < count) :
    (skip count).Gives cursor (.error (.truncated count cursor.remaining)) 0 0 :=
  ⟨cursor, skip_of_lt hshort, cursor.moved_refl⟩

/-- Taking bytes that are there gives the next ones and moves the front end past
them. -/
theorem gives_take {count : Nat} (hroom : count ≤ cursor.remaining) :
    (take count).Gives cursor (.ok (cursor.next count)) count 0 := by
  obtain ⟨after, hskip, hafter⟩ := gives_skip hroom
  refine ⟨after, ?_, hafter⟩
  rw [take, hskip]
  simp only
  rw [hafter.pos, Array.toList_extract, List.extract_eq_take_drop, Nat.add_sub_cancel_left,
    Cursor.next]

/-- Taking more bytes than there are fails and moves no end. -/
theorem gives_take_of_lt {count : Nat} (hshort : cursor.remaining < count) :
    (take count).Gives cursor (.error (.truncated count cursor.remaining)) 0 0 :=
  ⟨cursor, take_of_lt hshort, cursor.moved_refl⟩

/-- Taking a byte gives the next one if there is one. -/
theorem gives_byte (hroom : 1 ≤ cursor.remaining) :
    byte.Gives cursor (.ok ((cursor.next 1).headD 0)) 1 0 := by
  have hpos : cursor.pos < cursor.stop := Nat.lt_of_sub_pos hroom
  have hin : cursor.pos < cursor.data.toList.length := by
    have := cursor.stop_le_size
    rw [Array.length_toList]
    omega
  refine ⟨{ cursor with pos := cursor.pos + 1, pos_le_stop := hpos }, ?_, rfl, rfl, rfl, rfl⟩
  rw [byte, dif_pos hpos, Cursor.next, List.drop_eq_getElem_cons hin, List.take_succ_cons,
    List.headD_cons, Array.getElem_toList]

/-- Taking a byte where none is left fails and moves no end. -/
theorem gives_byte_of_lt (hshort : cursor.remaining < 1) :
    byte.Gives cursor (.error (.truncated 1 cursor.remaining)) 0 0 :=
  ⟨cursor, dif_neg fun hpos => Nat.not_lt.2 (Nat.sub_pos_of_lt hpos) hshort, cursor.moved_refl⟩

/-- The last byte is the one before the end. At least one byte must be left between
the two ends. -/
theorem gives_lastByte (hroom : 1 ≤ cursor.remaining) :
    ∃ b, cursor.data.toList[cursor.stop - 1]? = some b ∧ lastByte.Gives cursor (.ok b) 0 1 := by
  have hpos : cursor.pos < cursor.stop := Nat.lt_of_sub_pos hroom
  have hstop := cursor.stop_le_size
  have hin : cursor.stop - 1 < cursor.data.size := by omega
  refine ⟨cursor.data[cursor.stop - 1], ?_, { cursor with
    stop := cursor.stop - 1
    pos_le_stop := by omega
    stop_le_size := by omega }, dif_pos hpos, rfl, rfl, Nat.sub_add_cancel (by omega), rfl⟩
  rw [Array.getElem?_toList, Array.getElem?_eq_getElem hin]

/-- Taking the last byte where none is left fails and moves no end. -/
theorem gives_lastByte_of_lt (hshort : cursor.remaining < 1) :
    lastByte.Gives cursor (.error (.truncated 1 cursor.remaining)) 0 0 :=
  ⟨cursor, dif_neg fun hpos => Nat.not_lt.2 (Nat.sub_pos_of_lt hpos) hshort, cursor.moved_refl⟩

private theorem gives_length_of_lt (hshort : cursor.remaining < Frame.lengthSize) :
    length.Gives cursor (.error (.truncated Frame.lengthSize cursor.remaining)) 0 0 :=
  (gives_take_of_lt hshort).bind_error.bind_error.bind_error

private theorem gives_length_of_neg (hroom : Frame.lengthSize ≤ cursor.remaining)
    (hneg : cursor.announced < 0) :
    length.Gives cursor (.error (.negativeLength cursor.announced)) Frame.lengthSize 0 := by
  have hint : int32.Gives cursor _ Frame.lengthSize 0 := ((gives_take hroom).map _).map _
  apply hint.judge
  intro middle
  exact (if_pos hneg).symm ▸ gives_fail _

private theorem gives_length (hroom : Frame.lengthSize ≤ cursor.remaining) (hnat : ¬cursor.announced < 0) :
    length.Gives cursor (.ok cursor.announced.toNat) Frame.lengthSize 0 := by
  have hint : int32.Gives cursor _ Frame.lengthSize 0 := ((gives_take hroom).map _).map _
  apply hint.judge
  intro middle
  exact (if_neg hnat).symm ▸ gives_pure _

end Reader

namespace Cursor.Step

open Reader

variable {cursor : Cursor} {step : Step} {size : Nat}

/-- A step of a fixed size takes the next bytes if there are so many, and otherwise
leaves the cursor where it is. Nothing is asked of the bytes: all of them are
numbers or payloads. -/
theorem gives_of_size (hsize : step.size? = some size) :
    if cursor.remaining < size then
      step.reader.Gives cursor (.error (.truncated size cursor.remaining)) 0 0
    else step.reader.Gives cursor (.ok (step.reading cursor.order (cursor.next size))) size 0 := by
  by_cases hshort : cursor.remaining < size
  · rw [if_pos hshort]
    cases step with
    | sized | skipSized | count | back => cases hsize
    | byte =>
      cases hsize
      exact (gives_byte_of_lt hshort).bind_error
    | bytes n =>
      cases hsize
      exact (gives_take_of_lt hshort).bind_error
    | skip n =>
      cases hsize
      exact (gives_skip_of_lt hshort).bind_error
    | int32 | int64 | uint32 | uint64 =>
      cases hsize
      exact (gives_take_of_lt hshort).bind_error.bind_error.bind_error
  · rw [if_neg hshort]
    have hroom := Nat.le_of_not_lt hshort
    cases step with
    | sized | skipSized | count | back => cases hsize
    | byte =>
      cases hsize
      exact (gives_byte hroom).map Reading.byte
    | bytes n =>
      cases hsize
      exact (gives_take hroom).map Reading.bytes
    | skip n =>
      cases hsize
      exact (gives_skip hroom).map fun _ => Reading.nothing
    | int32 | int64 | uint32 | uint64 =>
      cases hsize
      exact (((gives_take hroom).map _).map _).map _

section Payload

variable {payload : Nat} (hpayload : step.payload? cursor.announced.toNat = some payload)
include hpayload

private theorem gives_of_cut_length (hshort : cursor.remaining < Frame.lengthSize) :
    step.reader.Gives cursor (.error (.truncated Frame.lengthSize cursor.remaining)) 0 0 := by
  have hlength := gives_length_of_lt hshort
  cases step with
  | sized | skipSized => exact hlength.bind_error.bind_error
  | count => exact hlength.bind_error
  | _ => cases hpayload

private theorem gives_of_negative_length (hroom : Frame.lengthSize ≤ cursor.remaining)
    (hneg : cursor.announced < 0) :
    step.reader.Gives cursor (.error (.negativeLength cursor.announced)) Frame.lengthSize 0 := by
  have hlength := gives_length_of_neg hroom hneg
  cases step with
  | sized | skipSized => exact hlength.bind_error.bind_error
  | count => exact hlength.bind_error
  | _ => cases hpayload

private theorem gives_of_cut_payload (hroom : Frame.lengthSize ≤ cursor.remaining)
    (hnat : ¬cursor.announced < 0) (hcut : cursor.remaining - Frame.lengthSize < payload) :
    step.reader.Gives cursor
      (.error (.truncated payload (cursor.remaining - Frame.lengthSize))) Frame.lengthSize 0 := by
  have hlength := gives_length hroom hnat
  -- A count has nothing behind it that could be cut.
  cases step with
  | sized =>
    cases hpayload
    have hsized : Reader.sized.Gives cursor _ (Frame.lengthSize + 0) 0 :=
      hlength.bind fun middle hmiddle =>
        hmiddle.remaining_of_front ▸ gives_take_of_lt (by rwa [hmiddle.remaining_of_front])
    exact hsized.bind_error
  | skipSized =>
    cases hpayload
    have hskip : Reader.skipSized.Gives cursor _ (Frame.lengthSize + 0) 0 :=
      hlength.bind fun middle hmiddle =>
        hmiddle.remaining_of_front ▸ gives_skip_of_lt (by rwa [hmiddle.remaining_of_front])
    exact hskip.bind_error
  | count =>
    cases hpayload
    exact absurd hcut (Nat.not_lt_zero _)
  | _ => cases hpayload

private theorem gives_of_whole_payload (hroom : Frame.lengthSize ≤ cursor.remaining)
    (hnat : ¬cursor.announced < 0) (hleft : payload ≤ cursor.remaining - Frame.lengthSize) :
    step.reader.Gives cursor
      (.ok (step.reading cursor.order (cursor.next (Frame.lengthSize + payload))))
      (Frame.lengthSize + payload) 0 := by
  have hlength := gives_length hroom hnat
  cases step with
  | sized =>
    cases hpayload
    have hsized : Reader.sized.Gives cursor _ (Frame.lengthSize + cursor.announced.toNat) 0 :=
      hlength.bind fun middle hmiddle =>
        hmiddle.next cursor.announced.toNat ▸ gives_take (by rwa [hmiddle.remaining_of_front])
    exact hsized.map Reading.bytes
  | skipSized =>
    cases hpayload
    have hskip : Reader.skipSized.Gives cursor _ (Frame.lengthSize + cursor.announced.toNat) 0 :=
      hlength.bind fun middle hmiddle => gives_skip (by rwa [hmiddle.remaining_of_front])
    exact hskip.map fun _ => Reading.nothing
  | count =>
    cases hpayload
    exact hlength.map Reading.count
  | _ => cases hpayload

/-- A step that reads a length fails before it, or behind it, or takes the length
and what it announces. These are all the ways there are, so nothing is asked of the
length that is announced. -/
theorem gives_of_payload :
    if cursor.remaining < Frame.lengthSize then
      step.reader.Gives cursor (.error (.truncated Frame.lengthSize cursor.remaining)) 0 0
    else if cursor.announced < 0 then
      step.reader.Gives cursor (.error (.negativeLength cursor.announced)) Frame.lengthSize 0
    else if cursor.remaining - Frame.lengthSize < payload then
      step.reader.Gives cursor
        (.error (.truncated payload (cursor.remaining - Frame.lengthSize))) Frame.lengthSize 0
    else
      step.reader.Gives cursor
        (.ok (step.reading cursor.order (cursor.next (Frame.lengthSize + payload))))
        (Frame.lengthSize + payload) 0 := by
  by_cases hshort : cursor.remaining < Frame.lengthSize
  · rw [if_pos hshort]
    exact gives_of_cut_length hpayload hshort
  have hroom := Nat.le_of_not_lt hshort
  rw [if_neg hshort]
  by_cases hneg : cursor.announced < 0
  · rw [if_pos hneg]
    exact gives_of_negative_length hpayload hroom hneg
  rw [if_neg hneg]
  by_cases hcut : cursor.remaining - Frame.lengthSize < payload
  · rw [if_pos hcut]
    exact gives_of_cut_payload hpayload hroom hneg hcut
  · rw [if_neg hcut]
    exact gives_of_whole_payload hpayload hroom hneg (Nat.le_of_not_lt hcut)

end Payload

/-- The step from the back takes the last byte that is left, if there is one. -/
theorem gives_back :
    if cursor.remaining < 1 then
      Step.back.reader.Gives cursor (.error (.truncated 1 cursor.remaining)) 0 0
    else ∃ b, cursor.data.toList[cursor.stop - 1]? = some b ∧
      Step.back.reader.Gives cursor (.ok (.byte b)) 0 1 := by
  by_cases hshort : cursor.remaining < 1
  · rw [if_pos hshort]
    exact (gives_lastByte_of_lt hshort).bind_error
  · rw [if_neg hshort]
    obtain ⟨b, hb, hlast⟩ := gives_lastByte (Nat.le_of_not_lt hshort)
    exact ⟨b, hb, hlast.map Reading.byte⟩

/-- A step from the front moves the cursor at its front only, whatever comes of it. -/
theorem moved_front (hstep : step ≠ .back) :
    ∃ outcome front, step.reader.Gives cursor outcome front 0 := by
  cases hsize : step.size? with
  | some size =>
    have h := @gives_of_size cursor step size hsize
    split at h
    · exact ⟨_, _, h⟩
    · exact ⟨_, _, h⟩
  | none =>
    obtain ⟨payload, hpayload⟩ : ∃ payload, step.payload? cursor.announced.toNat = some payload := by
      cases step with
      | sized | skipSized | count => exact ⟨_, rfl⟩
      | back => exact absurd rfl hstep
      | _ => cases hsize
    have h := gives_of_payload hpayload
    split at h
    · exact ⟨_, _, h⟩
    · split at h
      · exact ⟨_, _, h⟩
      · split at h
        · exact ⟨_, _, h⟩
        · exact ⟨_, _, h⟩

end Cursor.Step

namespace Cursor

variable {cursor : Cursor}

private theorem event_of_gives {step : Step} {outcome : Except Error Reading} {front back : Nat}
    (h : step.reader.Gives cursor outcome front back) :
    (cursor.event step).outcome = outcome ∧ (cursor.event step).after.Moved cursor front back := by
  obtain ⟨after, hread, hmoved⟩ := h
  rw [event, hread]
  exact ⟨rfl, hmoved⟩

private theorem length_next {count : Nat} (hroom : count ≤ cursor.remaining) :
    (cursor.next count).length = count := by
  rw [← take_unread hroom, List.length_take, length_unread, Nat.min_eq_left hroom]

private theorem front_event {step : Step} {front back : Nat}
    (h : (cursor.event step).after.Moved cursor front back) :
    (cursor.event step).front = cursor.next front := by
  change (cursor.data.extract cursor.pos (cursor.event step).after.pos).toList = _
  rw [h.pos, Array.toList_extract, List.extract_eq_take_drop, Nat.add_sub_cancel_left, next]

private theorem back_event_of_ne {step : Step} (hstep : step ≠ .back) : (cursor.event step).back? = none := by
  cases step with
  | back => exact absurd rfl hstep
  | _ => rfl

private theorem back_event : (cursor.event .back).back? =
    match (cursor.event .back).outcome with
    | .ok (.byte b) => some b
    | _ => none :=
  rfl

/-- An event takes from the end of what is unread the byte that it gives from there,
or nothing. -/
theorem exists_moved_event (step : Step) :
    ∃ front, (cursor.event step).after.Moved cursor front (cursor.event step).back?.toList.length ∧
      (cursor.data.toList.drop (cursor.event step).after.stop).take
        (cursor.event step).back?.toList.length = (cursor.event step).back?.toList := by
  by_cases hstep : step = .back
  · subst hstep
    have h := @Step.gives_back cursor
    split at h
    · obtain ⟨houtcome, hmoved⟩ := event_of_gives h
      rw [back_event, houtcome]
      exact ⟨0, hmoved, rfl⟩
    · obtain ⟨b, hb, h⟩ := h
      obtain ⟨houtcome, hmoved⟩ := event_of_gives h
      obtain ⟨hin, hget⟩ := List.getElem?_eq_some_iff.1 hb
      have hplace : (cursor.event .back).after.stop = cursor.stop - 1 :=
        Nat.eq_sub_of_add_eq hmoved.stop
      rw [back_event, houtcome, hplace, List.drop_eq_getElem_cons hin, hget]
      exact ⟨0, hmoved, rfl⟩
  · obtain ⟨outcome, front, h⟩ := @Step.moved_front cursor step hstep
    obtain ⟨-, hmoved⟩ := event_of_gives h
    rw [back_event_of_ne hstep]
    exact ⟨front, hmoved, rfl⟩

/-- An event takes its bytes from both ends of what is unread, and leaves the rest. -/
theorem event_splits (step : Step) :
    (cursor.event step).after.Moved cursor (cursor.event step).front.length
        (cursor.event step).back?.toList.length ∧
      cursor.unread = (cursor.event step).front ++ (cursor.event step).after.unread ++
        (cursor.event step).back?.toList := by
  obtain ⟨front, hmoved, hback⟩ := cursor.exists_moved_event step
  have hroom : front ≤ cursor.remaining := by
    have := hmoved.remaining
    omega
  rw [front_event hmoved, length_next hroom]
  refine ⟨hmoved, ?_⟩
  rw [hmoved.unread, hback]

/-- A run takes from both ends what its events take, and leaves the rest. -/
theorem run_splits (steps : List Step) :
    (cursor.run steps).Moved cursor ((cursor.trace steps).flatMap Event.front).length
        ((cursor.trace steps).filterMap Event.back?).length ∧
      cursor.unread = (cursor.trace steps).flatMap Event.front ++ (cursor.run steps).unread ++
        ((cursor.trace steps).filterMap Event.back?).reverse := by
  induction steps generalizing cursor with
  | nil => exact ⟨cursor.moved_refl, (List.append_nil _).symm⟩
  | cons step steps ih =>
    obtain ⟨hfirst, hunread⟩ := cursor.event_splits step
    obtain ⟨hrest, hleft⟩ := @ih (cursor.event step).after
    have hboth := hrest.trans hfirst
    rw [run_cons, trace, List.flatMap_cons, List.length_append, hunread, hleft]
    cases hback : (cursor.event step).back? with
    | none =>
      rw [hback, Option.toList_none, List.length_nil, Nat.zero_add] at hboth
      rw [List.filterMap_cons_none hback, Option.toList_none, List.append_nil]
      exact ⟨hboth, by simp only [List.append_assoc]⟩
    | some b =>
      rw [hback, Option.toList_some, List.length_singleton, Nat.add_comm 1] at hboth
      rw [List.filterMap_cons_some hback, Option.toList_some, List.reverse_cons]
      exact ⟨hboth, by simp only [List.append_assoc]⟩

/-- A cursor before any data under any steps, those that fail included. Each step
adds to the bytes taken from the front, to those taken from the back or to neither,
and these bytes, with what is unread between them, are the data, so none is read
twice. At every point a step of a fixed size either takes as many of the next bytes
as it needs, or fails and changes nothing, for want of bytes only. A step that reads
a length may also fail behind it, and has then taken just the length. -/
theorem run_moves_inwards (data : Bytes) (order : ByteOrder) (steps : List Step) :
    let events := (of data order).trace steps
    let cursor := (of data order).run steps
    let next := fun count => (data.drop cursor.pos).take count
    data = events.flatMap Event.front ++ cursor.unread ++ (events.filterMap Event.back?).reverse ∧
    cursor.pos = (events.flatMap Event.front).length ∧
    cursor.pos + cursor.remaining + (events.filterMap Event.back?).length = data.length ∧
    (∀ (step : Step) (size : Nat), step.size? = some size →
      if cursor.remaining < size then
        step.reader.Gives cursor (.error (.truncated size cursor.remaining)) 0 0
      else step.reader.Gives cursor (.ok (step.reading order (next size))) size 0) ∧
    (if cursor.remaining < 1 then
        Step.back.reader.Gives cursor (.error (.truncated 1 cursor.remaining)) 0 0
      else ∃ b, data[cursor.stop - 1]? = some b ∧
        Step.back.reader.Gives cursor (.ok (.byte b)) 0 1) ∧
    (∀ (step : Step) (payload : Nat),
      step.payload? (signed order (next 4)).toNat = some payload →
      if cursor.remaining < 4 then
        step.reader.Gives cursor (.error (.truncated 4 cursor.remaining)) 0 0
      else if signed order (next 4) < 0 then
        step.reader.Gives cursor (.error (.negativeLength (signed order (next 4)))) 4 0
      else if cursor.remaining - 4 < payload then
        step.reader.Gives cursor (.error (.truncated payload (cursor.remaining - 4))) 4 0
      else step.reader.Gives cursor (.ok (step.reading order (next (4 + payload)))) (4 + payload) 0) := by
  intro events cursor next
  obtain ⟨hmoved, hunread⟩ := (of data order).run_splits steps
  have hdata : cursor.data.toList = data := by rw [hmoved.data]; rfl
  have horder : cursor.order = order := hmoved.order
  have hnext : cursor.next = next := by
    funext count
    rw [Cursor.next, hdata]
  refine ⟨?_, ?_, ?_, ?_, ?_, ?_⟩
  · rw [← hunread, unread_of]
  · exact hmoved.pos.trans (Nat.zero_add _)
  · have hall : cursor.remaining + (events.flatMap Event.front).length +
        (events.filterMap Event.back?).length = (of data order).remaining := hmoved.remaining
    have hpos : cursor.pos = 0 + (events.flatMap Event.front).length := hmoved.pos
    rw [← length_unread (of data order), unread_of] at hall
    omega
  · intro step size hsize
    rw [← horder, ← hnext]
    exact Step.gives_of_size hsize
  · rw [← hdata]
    exact Step.gives_back
  · intro step payload hpayload
    rw [← horder, ← hnext] at hpayload ⊢
    exact Step.gives_of_payload hpayload

/-- A series of steps one of which fails for want of bytes, and a payload with a
negative length: the failures leave a cursor that the next steps can use. -/
theorem run_moves_inwards_past_failures :
    let steps : List Step := [.byte, .int64, .back]
    let cursor := (of [7, 255, 255, 255, 254, 1, 5, 9] .big).run steps
    cursor.pos + cursor.remaining + 1 = 8 ∧
    Step.int64.size? = some 8 ∧
    Step.int64.reader.Gives cursor (.error (.truncated 8 6)) 0 0 ∧
    Step.sized.payload? (signed .big [255, 255, 255, 254]).toNat = some 0 ∧
    Step.sized.reader.Gives cursor (.error (.negativeLength (-2))) 4 0 ∧
    Step.back.reader.Gives cursor (.ok (.byte 5)) 0 1 := by
  intro steps cursor
  obtain ⟨-, -, hcount, hfixed, hback, hprefixed⟩ :=
    run_moves_inwards [7, 255, 255, 255, 254, 1, 5, 9] .big steps
  have hint := hfixed .int64 8 rfl
  have hsized := hprefixed .sized 0 (by decide)
  have hleft : cursor.remaining = 6 := by decide
  rw [if_pos (by decide), hleft] at hint
  rw [if_neg (by decide), if_pos (by decide)] at hsized
  rw [if_neg (by decide)] at hback
  obtain ⟨b, hb, hback⟩ := hback
  have hstop : cursor.stop = 7 := by decide
  rw [hstop] at hb
  cases hb
  exact ⟨hcount, rfl, hint, by decide, hsized, hback⟩

end Cursor

end KeyedRows
