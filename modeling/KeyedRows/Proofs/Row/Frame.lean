import KeyedRows.Proofs.Column.Cutting
import KeyedRows.Proofs.Reader.Taking
import KeyedRows.Proofs.Row.Half

namespace KeyedRows.Decoder

open Reader

private theorem readReserved_eq_ok (fromEnd : Nat) {count : Nat} {cursor : Cursor} {body : Bytes}
    (hunread : cursor.unread = body ++ List.replicate count 0) :
    ∃ after, readReserved fromEnd count cursor = (.ok (), after) ∧ after.unread = body ∧
      after.order = cursor.order := by
  induction count generalizing fromEnd cursor with
  | zero =>
    rw [List.replicate_zero, List.append_nil] at hunread
    exact ⟨cursor, rfl, hunread, rfl⟩
  | succ count ih =>
    rw [List.replicate_succ', ← List.append_assoc] at hunread
    obtain ⟨middle, hbyte, hmiddle, horder⟩ := lastByte_of_unread_eq_append hunread
    obtain ⟨after, hrest, hafter, hsame⟩ := ih (fromEnd + 1) hmiddle
    refine ⟨after, ?_, hafter, hsame.trans horder⟩
    rw [readReserved, bind_of_ok hbyte, if_pos rfl, hrest]

/-- A trailer is read from the end and leaves what stands in front of it. What
stands in front may be any bytes, none included. -/
theorem readTrailer_eq_ok {cursor : Cursor} {body : Bytes}
    (hunread : cursor.unread = body ++ Frame.trailer) :
    ∃ after, readTrailer cursor = (.ok (), after) ∧ after.unread = body ∧
      after.order = cursor.order := by
  have hroom : ¬cursor.remaining < Frame.trailerSize := by
    rw [← cursor.length_unread, hunread, List.length_append]
    exact Nat.not_lt.2 (Nat.le_add_left ..)
  have hsplit : Frame.trailer = List.replicate (Frame.trailerSize - 1) 0 ++ [Frame.formatVersion] :=
    rfl
  rw [hsplit, ← List.append_assoc] at hunread
  obtain ⟨middle, hversion, hmiddle, horder⟩ := lastByte_of_unread_eq_append hunread
  obtain ⟨after, hreserved, hafter, hsame⟩ := readReserved_eq_ok 1 hmiddle
  refine ⟨after, ?_, hafter, hsame.trans horder⟩
  rw [readTrailer, bind_of_ok (rfl : remaining cursor = (.ok _, cursor)), if_neg hroom,
    bind_of_ok hversion, if_pos rfl, hreserved]

private theorem readReserved_cases (fromEnd : Nat) {count : Nat} {cursor : Cursor}
    (hroom : count ≤ cursor.remaining) :
    (∃ e after, readReserved fromEnd count cursor = (.error e, after) ∧ e.kind = .invalidTrailer) ∨
      ∃ body, cursor.unread = body ++ List.replicate count 0 := by
  induction count generalizing fromEnd cursor with
  | zero => exact .inr ⟨cursor.unread, (List.append_nil _).symm⟩
  | succ count ih =>
    have hlength := cursor.length_unread
    obtain hnil | ⟨front, b, hunread⟩ := List.eq_nil_or_concat' cursor.unread
    · rw [hnil, List.length_nil] at hlength
      omega
    · obtain ⟨middle, hbyte, hmiddle, -⟩ := lastByte_of_unread_eq_append hunread
      rw [readReserved, bind_of_ok hbyte]
      by_cases hzero : b = 0
      · rw [hunread, List.length_append, List.length_singleton, ← hmiddle,
          middle.length_unread] at hlength
        rw [if_pos hzero]
        obtain herror | ⟨body, hbody⟩ := ih (fromEnd + 1) (by omega : count ≤ middle.remaining)
        · exact .inl herror
        · right
          refine ⟨body, ?_⟩
          rw [List.replicate_succ', ← List.append_assoc, ← hbody, hmiddle, hunread, hzero]
      · rw [if_neg hzero]
        exact .inl ⟨_, _, rfl, rfl⟩

/-- A trailer is refused for being cut, for its version or for a reserved byte,
unless it is the one that is written. These are all the ways to fail, from any
cursor. -/
theorem readTrailer_cases (cursor : Cursor) :
    (∃ e after, readTrailer cursor = (.error e, after) ∧ (e.kind = .truncatedInput ∨
        e.kind = .unsupportedFormatVersion ∨ e.kind = .invalidTrailer)) ∨
      ∃ body, cursor.unread = body ++ Frame.trailer := by
  rw [readTrailer, bind_of_ok (rfl : remaining cursor = (.ok _, cursor))]
  by_cases hroom : cursor.remaining < Frame.trailerSize
  · rw [if_pos hroom]
    exact .inl ⟨_, _, rfl, .inl rfl⟩
  · rw [if_neg hroom]
    simp only [Frame.trailerSize] at hroom ⊢
    have hlength := cursor.length_unread
    obtain hnil | ⟨front, b, hunread⟩ := List.eq_nil_or_concat' cursor.unread
    · rw [hnil, List.length_nil] at hlength
      omega
    · obtain ⟨middle, hbyte, hmiddle, -⟩ := lastByte_of_unread_eq_append hunread
      rw [bind_of_ok hbyte]
      by_cases hversion : b = Frame.formatVersion
      · rw [hunread, List.length_append, List.length_singleton, ← hmiddle,
          middle.length_unread] at hlength
        rw [if_pos hversion]
        obtain ⟨e, after, herror, hkind⟩ | ⟨body, hbody⟩ :=
          readReserved_cases 1 (by omega : 3 ≤ middle.remaining)
        · exact .inl ⟨e, after, herror, .inr (.inr hkind)⟩
        · right
          refine ⟨body, ?_⟩
          rw [hunread, ← hmiddle, hbody, hversion, List.append_assoc]
          rfl
      · rw [if_neg hversion]
        exact .inl ⟨_, _, rfl, .inr (.inl rfl)⟩

variable (decoder : Decoder)

/-- The tag byte and the common id in front of the columns of a key. -/
def opening (tag : UInt8) : Bytes :=
  tag :: ByteOrder.big.word 8 decoder.commonId.toUInt64.toNat

/-- The opening of a key has always the same length, so column bytes start at the
same place in all keys. -/
theorem length_opening (tag : UInt8) : (decoder.opening tag).length = Frame.openingSize := by
  rw [opening, List.length_cons, ByteOrder.length_word]
  rfl

/-- Reads the tag byte and the common id. -/
def readOpening : Reader Unit := do
  let _ ← byte
  let commonId := (← uint64).toInt64
  if commonId = decoder.commonId then return
  else fail (.commonId decoder.commonId commonId)

/-- The frame of a key is its opening and then, from the other end, its trailer. -/
theorem readFrame_eq : decoder.readFrame = decoder.readOpening >>= fun _ => readTrailer := by
  simp only [readFrame, readOpening, bind_assoc]
  congr 1
  funext tag
  congr 1
  funext commonId
  split
  · rfl
  · rw [fail_bind]

/-- The opening of a key is read steadily, the refusal of another common id
included. -/
theorem steady_readOpening : Steady decoder.readOpening := by
  apply steady_byte.bind
  intro tag
  apply steady_uint64.bind
  intro commonId
  by_cases hsame : commonId.toInt64 = decoder.commonId
  · rw [if_pos hsame]
    exact steady_pure ()
  · rw [if_neg hsame]
    exact steady_fail _

/-- The header of a value is read steadily, the refusal of another version included. -/
theorem steady_readHeader : Steady decoder.readHeader := by
  apply steady_int32.bind
  intro schemaVersion
  split
  · exact steady_pure ()
  · exact steady_fail _

variable {decoder} {cursor after : Cursor}

/-- The opening of a key is read from its own bytes, for any tag byte and in any
order. -/
theorem consumes_readOpening (order : ByteOrder) (tag : UInt8) :
    Consumes order decoder.readOpening (decoder.opening tag) () := by
  intro cursor rest horder hunread
  have hword := consumes_uint64 order decoder.commonId.toUInt64.toNat_lt
  rw [UInt64.ofNat_toNat] at hword
  obtain ⟨first, hbyte, hfirst, horder'⟩ := byte_of_unread_eq_cons hunread
  obtain ⟨after, hid, hafter⟩ := hword first rest (horder'.trans horder) hfirst
  refine ⟨after, ?_, hafter⟩
  rw [readOpening, bind_of_ok hbyte, bind_of_ok hid, Int64.toInt64_toUInt64, if_pos rfl]
  rfl

/-- An opening that passes is one with the common id of the table. Its tag byte may
be any. -/
theorem follows_readOpening (h : decoder.readOpening cursor = (.ok (), after)) :
    ∃ tag, after.Follows cursor (decoder.opening tag) := by
  obtain ⟨tag, first, htag, h⟩ := bind_ok_iff.1 h
  obtain ⟨id, second, hid, h⟩ := bind_ok_iff.1 h
  have hfirst := follows_byte htag
  have hsecond := follows_uint64 hid
  split at h
  · rename_i hsame
    cases h
    rw [← UInt64.toUInt64_toInt64 id, hsame] at hsecond
    exact ⟨tag, hsecond.trans hfirst⟩
  · cases h

/-- A header that passes is the schema version of the table, in the configured
order. -/
theorem follows_readHeader (h : decoder.readHeader cursor = (.ok (), after)) :
    after.Follows cursor (cursor.order.word 4 decoder.schemaVersion.toUInt32.toNat) := by
  obtain ⟨version, middle, hversion, h⟩ := bind_ok_iff.1 h
  have hmiddle := follows_int32 hversion
  split at h
  · rename_i hsame
    cases h
    rwa [hsame] at hmiddle
  · cases h

/-- The trailer stands behind what is left in front of it. -/
theorem unread_of_readTrailer (h : readTrailer cursor = (.ok (), after)) :
    cursor.unread = after.unread ++ Frame.trailer := by
  obtain ⟨e, stop, herror, -⟩ | ⟨body, hbody⟩ := readTrailer_cases cursor
  · rw [h] at herror
    cases herror
  · obtain ⟨place, htrailer, hplace, -⟩ := readTrailer_eq_ok hbody
    rw [h] at htrailer
    cases htrailer
    rw [hbody, hplace]

section ToEnd

variable {α : Type} {reader : Reader α} {unread : Nat → Error} {rest : Bytes} {a : α}

/-- Reads what takes all bytes that are left. -/
def toEnd (reader : Reader α) (unread : Nat → Error) : Reader α := do
  let a ← reader
  expectEnd unread
  return a

/-- Bytes that are left behind what was read are refused by their number. -/
theorem toEnd_of_left (hread : reader cursor = (.ok a, after)) (hleft : after.unread = rest)
    (hne : rest ≠ []) : toEnd reader unread cursor = (.error (unread rest.length), after) := by
  have hlength : after.remaining = rest.length := by rw [← hleft, after.length_unread]
  have hsome : ¬rest.length = 0 := fun h => hne (List.eq_nil_of_length_eq_zero h)
  have hend : expectEnd unread after = (.error (unread rest.length), after) := by
    rw [expectEnd, bind_of_ok (rfl : remaining after = (.ok _, after)), hlength, if_neg hsome]
    rfl
  rw [toEnd, bind_of_ok hread, bind_of_error hend]

/-- Reading up to the end succeeds exactly if reading does and nothing is left. -/
theorem toEnd_eq_ok_iff :
    toEnd reader unread cursor = (.ok a, after) ↔
      reader cursor = (.ok a, after) ∧ after.unread = [] := by
  constructor
  · intro h
    obtain ⟨b, middle, hread, hend⟩ := bind_ok_iff.1 h
    by_cases hleft : middle.unread = []
    · rw [bind_of_ok (expectEnd_eq_ok hleft)] at hend
      cases hend
      exact ⟨hread, hleft⟩
    · rw [toEnd_of_left hread rfl hleft] at h
      cases h
  · intro ⟨hread, hleft⟩
    rw [toEnd, bind_of_ok hread, bind_of_ok (expectEnd_eq_ok hleft)]
    rfl

end ToEnd

variable (decoder)

/-- Reads the schema version and the columns of a value into a row. -/
def valueSlots (record : Record) : Reader Record := do
  decoder.readHeader
  readSlots Column.readValue Column.skipValue .all decoder.plan.valueColumns record

/-- Reads the columns of a key into a row. -/
def keySlots (record : Record) : Reader Record :=
  readSlots Column.readKey Column.skipKey .all decoder.plan.keyColumns record

/-- A value is its header and its columns, up to the end. -/
theorem readValue_eq_toEnd (record : Record) :
    decoder.readValue .all record = toEnd (decoder.valueSlots record) .unreadInValue := by
  rw [readValue_eq, toEnd, valueSlots, bind_assoc]
  rfl

/-- A key is its opening, its trailer from the other end, and its columns up to the
end of what both leave. So the columns are only looked at if the frame has passed. -/
theorem readKey_eq_toEnd (record : Record) :
    decoder.readKey .all record =
      decoder.readOpening >>= fun _ => readTrailer >>= fun _ =>
        toEnd (decoder.keySlots record) .unreadInKey := by
  have hframe : decoder.keyHalf.frame = decoder.readOpening >>= fun _ => readTrailer :=
    decoder.readFrame_eq
  rw [readKey_eq, Half.reader, hframe, bind_assoc]
  rfl

variable {decoder} {base record : Record} {key : Bytes}

/-- A key that is read is framed, and its columns are read from all that is framed.
The tag byte is whatever stood there. The row that it is read into makes no
difference to this. -/
theorem exists_frame_of_readKey (h : decoder.run (decoder.readKey .all base) key = .ok record) :
    ∃ tag place stop, key = decoder.opening tag ++ (place.unread ++ Frame.trailer) ∧
      decoder.keySlots base place = (.ok record, stop) ∧ stop.unread = [] := by
  rw [run, readKey_eq_toEnd] at h
  obtain ⟨stop, h⟩ := exists_after h
  obtain ⟨⟨⟩, opened, hopening, h⟩ := bind_ok_iff.1 h
  obtain ⟨⟨⟩, place, htrailer, h⟩ := bind_ok_iff.1 h
  obtain ⟨tag, hopened⟩ := follows_readOpening hopening
  have hkey := (Cursor.unread_of key decoder.plan.order).symm.trans hopened.unread
  rw [unread_of_readTrailer htrailer] at hkey
  exact ⟨tag, place, stop, hkey, toEnd_eq_ok_iff.1 h⟩

end KeyedRows.Decoder
