import KeyedRows.Proofs.Row.RoundTrip

namespace KeyedRows.Decoder

open Reader

section ToEnd

variable {α : Type} {reader : Reader α} {unread : Nat → Error} {short long cursor after stop : Cursor}
  {rest : Bytes} {a : α}

/-- What takes all bytes runs out of them if some are cut off. Something must be cut
off, and what is read must be read steadily. The end itself is not steady, so this
is more than a case of steadiness. -/
theorem runsOut_toEnd (hsteady : Steady reader) (hcut : short.Cut long rest) (hne : rest ≠ [])
    (hlong : toEnd reader unread long = (.ok a, stop)) : RunsOut (toEnd reader unread) short := by
  obtain ⟨hread, hend⟩ := toEnd_eq_ok_iff.1 hlong
  obtain hout | ⟨after, -, hleft⟩ := hsteady.of_long hcut hread
  · exact hout.bind
  · rw [hleft.unread] at hend
    exact absurd (List.append_eq_nil_iff.1 hend).2 hne

/-- What takes all bytes leaves those that are added. They are refused by their
number. -/
theorem toEnd_of_extended (hsteady : Steady reader) (hcut : short.Cut long rest) (hne : rest ≠ [])
    (hshort : toEnd reader unread short = (.ok a, after)) :
    ∃ stop, toEnd reader unread long = (.error (unread rest.length), stop) := by
  obtain ⟨hread, hend⟩ := toEnd_eq_ok_iff.1 hshort
  obtain ⟨stop, hlong, hleft⟩ := hsteady.of_short hcut hread
  have hrest : stop.unread = rest := by rw [hleft.unread, hend, List.nil_append]
  exact ⟨stop, toEnd_of_left hlong hrest hne⟩

end ToEnd

private theorem steady_readSlots {read : Column → Reader Slot} {skip : Column → Reader Unit}
    (hread : ∀ column, Steady (read column)) (columns : Schema) (record : Record) :
    Steady (readSlots read skip .all columns record) := by
  induction columns generalizing record with
  | nil => exact steady_pure record
  | cons column columns ih =>
    exact (hread column).bind fun slot => ih (record.set column.ordinal slot)

variable {decoder : Decoder} {key value rest early late : Bytes} {record : Record}

private theorem steady_valueSlots : Steady (decoder.valueSlots record) :=
  decoder.steady_readHeader.bind fun _ => steady_readSlots Column.steady_readValue _ _

private theorem steady_keySlots : Steady (decoder.keySlots record) :=
  steady_readSlots Column.steady_readKey _ _

private theorem decodeValue_of_cut (h : decoder.decodeValue (early ++ late) = .ok record)
    (hne : late ≠ []) : ∃ needed left, decoder.decodeValue early = .error (.truncated needed left) := by
  rw [decodeValue, run, readValue_eq_toEnd] at h ⊢
  obtain ⟨stop, hlong⟩ := exists_after h
  obtain ⟨needed, left, after, hshort⟩ :=
    runsOut_toEnd steady_valueSlots (Cursor.cut_of early late decoder.plan.order) hne hlong
  exact ⟨needed, left, congrArg Prod.fst hshort⟩

private theorem decodeValue_of_extended (h : decoder.decodeValue value = .ok record) (hne : rest ≠ []) :
    decoder.decodeValue (value ++ rest) = .error (.unreadInValue rest.length) := by
  rw [decodeValue, run, readValue_eq_toEnd] at h ⊢
  obtain ⟨after, hshort⟩ := exists_after h
  obtain ⟨stop, hlong⟩ :=
    toEnd_of_extended steady_valueSlots (Cursor.cut_of value rest decoder.plan.order) hne hshort
  exact congrArg Prod.fst hlong

section Framed

variable (decoder)

/-- Behind the opening of a key stand the trailer and what it frames, or the key is
refused for its trailer. The opening is that of the table, whatever its tag byte,
and what follows it may be any bytes. -/
theorem decodeKey_opening_append (tag : UInt8) (behind : Bytes) :
    (∃ e, decoder.decodeKey (decoder.opening tag ++ behind) = .error e ∧ (e.kind = .truncatedInput ∨
        e.kind = .unsupportedFormatVersion ∨ e.kind = .invalidTrailer)) ∨
      ∃ body, behind = body ++ Frame.trailer := by
  obtain ⟨middle, hopening, hmiddle, -⟩ := consumes_readOpening decoder.plan.order tag
    (Cursor.of (decoder.opening tag ++ behind) decoder.plan.order) behind rfl (Cursor.unread_of ..)
  obtain ⟨e, after, htrailer, hkind⟩ | hbody := readTrailer_cases middle
  · left
    refine ⟨e, ?_, hkind⟩
    rw [decodeKey, run, readKey_eq_toEnd, bind_of_ok hopening, bind_of_error htrailer]
  · rw [hmiddle] at hbody
    exact .inr hbody

/-- A framed key is read as its columns are. What is framed may be any bytes, and
need not be the columns of a row. -/
theorem decodeKey_framed (tag : UInt8) (body : Bytes) :
    ∃ place, place.unread = body ∧ place.order = decoder.plan.order ∧
      decoder.decodeKey (decoder.opening tag ++ (body ++ Frame.trailer)) =
        (toEnd (decoder.keySlots decoder.absentRecord) .unreadInKey place).1 := by
  obtain ⟨middle, hopening, hmiddle, horder⟩ := consumes_readOpening decoder.plan.order tag
    (Cursor.of (decoder.opening tag ++ (body ++ Frame.trailer)) decoder.plan.order) _ rfl
    (Cursor.unread_of ..)
  obtain ⟨place, htrailer, hplace, hsame⟩ := readTrailer_eq_ok hmiddle
  refine ⟨place, hplace, hsame.trans horder, ?_⟩
  rw [decodeKey, run, readKey_eq_toEnd, bind_of_ok hopening, bind_of_ok htrailer]

end Framed

/-- An accepted key is framed. -/
theorem exists_frame_of_decodeKey (h : decoder.decodeKey key = .ok record) :
    ∃ tag body, key = decoder.opening tag ++ (body ++ Frame.trailer) := by
  obtain ⟨tag, place, -, hkey, -⟩ := exists_frame_of_readKey h
  exact ⟨tag, place.unread, hkey⟩

/-- The columns of a key leave what is put behind them. The bytes behind the columns
are not looked at further, and may look like a trailer themselves. -/
theorem decodeKey_of_extra {tag : UInt8} {body extra : Bytes}
    (h : decoder.decodeKey (decoder.opening tag ++ (body ++ Frame.trailer)) = .ok record)
    (hne : extra ≠ []) :
    decoder.decodeKey (decoder.opening tag ++ ((body ++ extra) ++ Frame.trailer)) =
      .error (.unreadInKey extra.length) := by
  obtain ⟨place, hplace, horder, hkey⟩ := decodeKey_framed decoder tag body
  obtain ⟨place', hplace', horder', hlonger⟩ := decodeKey_framed decoder tag (body ++ extra)
  rw [hkey] at h
  obtain ⟨after, hshort⟩ := exists_after h
  have hcut : place.Cut place' extra := ⟨by rw [hplace', hplace], horder.trans horder'.symm⟩
  obtain ⟨stop, hlong⟩ := toEnd_of_extended steady_keySlots hcut hne hshort
  rw [hlonger, hlong]

/-- The columns of a key run out of bytes if some of theirs are missing. The trailer
still stands behind what is left, so this is not seen from the frame. -/
theorem decodeKey_of_missing {tag : UInt8} (tag' : UInt8) {body extra : Bytes}
    (h : decoder.decodeKey (decoder.opening tag ++ ((body ++ extra) ++ Frame.trailer)) = .ok record)
    (hne : extra ≠ []) :
    ∃ needed left, decoder.decodeKey (decoder.opening tag' ++ (body ++ Frame.trailer)) =
      .error (.truncated needed left) := by
  obtain ⟨place, hplace, horder, hkey⟩ := decodeKey_framed decoder tag (body ++ extra)
  obtain ⟨place', hplace', horder', hshorter⟩ := decodeKey_framed decoder tag' body
  rw [hkey] at h
  obtain ⟨stop, hlong⟩ := exists_after h
  have hcut : place'.Cut place extra := ⟨by rw [hplace', hplace], horder'.trans horder.symm⟩
  obtain ⟨needed, left, after, hshort⟩ := runsOut_toEnd steady_keySlots hcut hne hlong
  exact ⟨needed, left, by rw [hshorter, hshort]⟩

/-- Of two byte strings that end alike, one of which is longer, the longer one goes
on in front of that end. Nothing is asked of that end. -/
theorem exists_of_append_same_end {front longer last : Bytes}
    (heq : front ++ (last ++ rest) = longer ++ last) (hne : rest ≠ []) :
    ∃ extra, extra ≠ [] ∧ longer = front ++ extra := by
  obtain ⟨extra, hlonger, hbehind⟩ | ⟨extra, hfront, hlast⟩ := List.append_eq_append_iff.1 heq
  · refine ⟨extra, ?_, hlonger⟩
    rintro rfl
    have hlength := congrArg List.length hbehind
    rw [List.length_append, List.nil_append] at hlength
    exact hne (List.eq_nil_of_length_eq_zero (by omega))
  · have hlength := congrArg List.length hlast
    simp only [List.length_append] at hlength
    exact absurd (List.eq_nil_of_length_eq_zero (by omega : rest.length = 0)) hne

/-- A cut key ends inside its opening, or has no trailer, or its columns run out of
bytes. The last bytes of what is left may pass for a trailer by accident; then the
columns in front of it have lost bytes. -/
theorem decodeKey_of_cut (h : decoder.decodeKey (early ++ late) = .ok record) (hne : late ≠ []) :
    ∃ e, decoder.decodeKey early = .error e ∧ (e.kind = .truncatedInput ∨
      e.kind = .unsupportedFormatVersion ∨ e.kind = .invalidTrailer) := by
  obtain ⟨tag, body, hkey⟩ := exists_frame_of_decodeKey h
  obtain ⟨middle, hopening, -⟩ := consumes_readOpening decoder.plan.order tag
    (Cursor.of (early ++ late) decoder.plan.order) _ rfl ((Cursor.unread_of ..).trans hkey)
  obtain ⟨needed, left, stop, hout⟩ | ⟨after, hafter, -⟩ :=
    decoder.steady_readOpening.of_long (Cursor.cut_of early late decoder.plan.order) hopening
  · refine ⟨.truncated needed left, ?_, .inl rfl⟩
    rw [decodeKey, run, readKey_eq_toEnd, bind_of_error hout]
  · obtain ⟨tag', hfollows⟩ := follows_readOpening hafter
    have hearly := (Cursor.unread_of early decoder.plan.order).symm.trans hfollows.unread
    obtain herror | ⟨body', hbody⟩ := decodeKey_opening_append decoder tag' after.unread
    · rwa [hearly]
    · -- The cut key has a trailer of its own, in front of which its columns stand.
      rw [hbody] at hearly
      have hwhole := hkey
      rw [hearly, List.append_assoc, List.append_assoc] at hwhole
      have hlength := (decoder.length_opening tag').trans (decoder.length_opening tag).symm
      obtain ⟨-, hbehind⟩ := List.append_inj hwhole hlength
      obtain ⟨extra, hextra, rfl⟩ := exists_of_append_same_end hbehind hne
      rw [hkey] at h
      obtain ⟨needed, left, hout⟩ := decodeKey_of_missing tag' h hextra
      exact ⟨.truncated needed left, by rw [hearly, hout], .inl rfl⟩

/-- Behind an extended key stands no trailer, or bytes are left in front of it.
Which error it is depends on what was put there. -/
theorem decodeKey_of_extended (h : decoder.decodeKey key = .ok record) (hne : rest ≠ []) :
    ∃ e, decoder.decodeKey (key ++ rest) = .error e := by
  obtain ⟨tag, body, rfl⟩ := exists_frame_of_decodeKey h
  rw [List.append_assoc, List.append_assoc]
  -- If there is another trailer behind the added bytes, the columns end before it.
  obtain ⟨e, herror, -⟩ | ⟨longer, hlonger⟩ :=
    decodeKey_opening_append decoder tag (body ++ (Frame.trailer ++ rest))
  · exact ⟨e, herror⟩
  · obtain ⟨extra, hextra, rfl⟩ := exists_of_append_same_end hlonger hne
    rw [hlonger]
    exact ⟨_, decodeKey_of_extra h hextra⟩

/-- What is put in front of the trailer of a key is left. The error names their
number. -/
theorem decodeKey_of_inserted {front : Bytes}
    (h : decoder.decodeKey (front ++ Frame.trailer) = .ok record) (hne : rest ≠ []) :
    decoder.decodeKey (front ++ rest ++ Frame.trailer) = .error (.unreadInKey rest.length) := by
  obtain ⟨tag, body, hkey⟩ := exists_frame_of_decodeKey h
  rw [← List.append_assoc] at hkey
  obtain rfl := List.append_cancel_right hkey
  rw [List.append_assoc] at h
  rw [List.append_assoc _ body rest, List.append_assoc]
  exact decodeKey_of_extra h hne

private theorem exists_ne_nil_of_prefix {cut whole : Bytes} (hbegins : cut <+: whole) (hne : cut ≠ whole) :
    ∃ late, late ≠ [] ∧ whole = cut ++ late := by
  obtain ⟨late, rfl⟩ := hbegins
  refine ⟨late, ?_, rfl⟩
  rintro rfl
  exact hne (List.append_nil cut).symm

/-- No beginning of an accepted value or key is accepted, nor is anything longer,
nor a key with more in front of its trailer. Nothing is asked of the bytes, which
need not have been written by an encoder. For a cut value the error says that bytes
are missing; for a cut key there are three kinds of errors, since what is left may
or may not end like a trailer. So no accepted string is a proper beginning of
another. -/
theorem accepted_prefix_free (decoder : Decoder) :
    (∀ value record, decoder.decodeValue value = .ok record →
      (∀ cut, cut <+: value → cut ≠ value →
        ∃ needed left, decoder.decodeValue cut = .error (.truncated needed left)) ∧
      ∀ more, more ≠ [] →
        decoder.decodeValue (value ++ more) = .error (.unreadInValue more.length)) ∧
    (∀ key record, decoder.decodeKey key = .ok record →
      (∀ cut, cut <+: key → cut ≠ key → ∃ e, decoder.decodeKey cut = .error e ∧
        (e.kind = .truncatedInput ∨ e.kind = .unsupportedFormatVersion ∨
          e.kind = .invalidTrailer)) ∧
      (∀ more, more ≠ [] → ∃ e, decoder.decodeKey (key ++ more) = .error e) ∧
      ∃ front, key = front ++ Frame.trailer ∧ ∀ more, more ≠ [] →
        decoder.decodeKey (front ++ more ++ Frame.trailer) = .error (.unreadInKey more.length)) ∧
    (∀ value value' record record', decoder.decodeValue value = .ok record →
      decoder.decodeValue value' = .ok record' → value <+: value' → value = value') ∧
    (∀ key key' record record', decoder.decodeKey key = .ok record →
      decoder.decodeKey key' = .ok record' → key <+: key' → key = key') := by
  refine ⟨?_, ?_, ?_, ?_⟩
  · intro value record h
    refine ⟨?_, fun more hne => decodeValue_of_extended h hne⟩
    intro cut hbegins hcut
    obtain ⟨late, hne, rfl⟩ := exists_ne_nil_of_prefix hbegins hcut
    exact decodeValue_of_cut h hne
  · intro key record h
    refine ⟨?_, fun more hne => decodeKey_of_extended h hne, ?_⟩
    · intro cut hbegins hcut
      obtain ⟨late, hne, rfl⟩ := exists_ne_nil_of_prefix hbegins hcut
      exact decodeKey_of_cut h hne
    · obtain ⟨tag, body, hkey⟩ := exists_frame_of_decodeKey h
      rw [← List.append_assoc] at hkey
      subst hkey
      exact ⟨_, rfl, fun more hne => decodeKey_of_inserted h hne⟩
  · intro value value' record record' h h' hbegins
    by_contra hne
    obtain ⟨late, hlate, rfl⟩ := exists_ne_nil_of_prefix hbegins hne
    rw [decodeValue_of_extended h hlate] at h'
    cases h'
  · intro key key' record record' h h' hbegins
    by_contra hne
    obtain ⟨late, hlate, rfl⟩ := exists_ne_nil_of_prefix hbegins hne
    obtain ⟨e, herror⟩ := decodeKey_of_extended h hlate
    rw [herror] at h'
    cases h'

/-- The least positive number ends like a trailer. A key that loses its trailer
passes for one with a trailer, and only its last column is found too short. -/
theorem accepted_prefix_free_at_number_like_trailer :
    ∃ record record',
      (readings .little 5).decodeKey
        [114, 0, 0, 0, 0, 0, 0, 0, 5, 0, 128, 0, 0, 0, 0, 0, 0, 1, 0, 0, 0, 1] = .ok record ∧
      (∃ e, (readings .little 5).decodeKey
          [114, 0, 0, 0, 0, 0, 0, 0, 5, 0, 128, 0, 0, 0, 0, 0, 0, 1] = .error e ∧
        (e.kind = .truncatedInput ∨ e.kind = .unsupportedFormatVersion ∨
          e.kind = .invalidTrailer)) ∧
      (readings .little 5).decodeValue [1, 0, 0, 0, 1, 1, 0, 0, 0, 7, 0, 0, 0, 0, 0, 0, 0] =
        .ok record' ∧
      (readings .little 5).decodeValue ([1, 0, 0, 0, 1, 1, 0, 0, 0, 7, 0, 0, 0, 0, 0, 0, 0] ++ [0]) =
        .error (.unreadInValue 1) := by
  have hkey : (readings .little 5).decodeKey
      [114, 0, 0, 0, 0, 0, 0, 0, 5, 0, 128, 0, 0, 0, 0, 0, 0, 1, 0, 0, 0, 1] =
      .ok ⟨[none, some (.scalar .float64 ⟨1⟩), none]⟩ := by
    decide +kernel
  have hvalue : (readings .little 5).decodeValue
      [1, 0, 0, 0, 1, 1, 0, 0, 0, 7, 0, 0, 0, 0, 0, 0, 0] =
      .ok ⟨[some (.list .int64 [7]), none, none]⟩ := by
    decide +kernel
  obtain ⟨hvalues, hkeys, -⟩ := accepted_prefix_free (readings .little 5)
  exact ⟨_, _, hkey, (hkeys _ _ hkey).1 _ (by decide) (by decide), hvalue,
    (hvalues _ _ hvalue).2 [0] (by decide)⟩

end KeyedRows.Decoder
