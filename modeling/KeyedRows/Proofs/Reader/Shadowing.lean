import KeyedRows.Cursor.Unread
import KeyedRows.Proofs.Reader.Sequence

namespace KeyedRows.Reader

variable {α β γ : Type}

/-- Moving over a thing does what reading it does, at a cursor. -/
structure Shadows (move : Reader Unit) (read : Reader α) (cursor : Cursor) : Prop where
  ok {a : α} {after : Cursor} : read cursor = (.ok a, after) → move cursor = (.ok (), after)
  error {e : Error} {after : Cursor} : read cursor = (.error e, after) → e.kind ≠ .invalidUtf8 →
    ∃ stop, move cursor = (.error e, stop)

/-- A reader that only judges what is read stays where it is, and finds fault with
text alone. -/
def Judges (reader : Reader α) : Prop :=
  ∀ cursor, (∃ a, reader cursor = (.ok a, cursor)) ∨
    ∃ e after, reader cursor = (.error e, after) ∧ e.kind = .invalidUtf8

private theorem judges_pure (a : α) : Judges (pure a) :=
  fun _ => Or.inl ⟨a, rfl⟩

variable {move : Reader Unit} {read : Reader α} {cursor : Cursor}

private theorem shadows_of_ok {a : α} {after : Cursor} (hmove : move cursor = (.ok (), after))
    (hread : read cursor = (.ok a, after)) : Shadows move read cursor where
  ok h := by
    rw [hread] at h
    cases h
    exact hmove
  error h := by
    rw [hread] at h
    cases h

private theorem shadows_of_error {e : Error} {stop after : Cursor} (hmove : move cursor = (.error e, stop))
    (hread : read cursor = (.error e, after)) : Shadows move read cursor where
  ok h := by
    rw [hread] at h
    cases h
  error h _ := by
    rw [hread] at h
    cases h
    exact ⟨stop, hmove⟩

theorem shadows_pure (a : α) (cursor : Cursor) : Shadows (pure ()) (pure a) cursor :=
  shadows_of_ok rfl rfl

theorem shadows_fail (e : Error) (cursor : Cursor) :
    Shadows (fail e) (fail e : Reader α) cursor :=
  shadows_of_error rfl rfl

/-- Only what a movement does at the cursor matters. -/
theorem Shadows.congr {move' : Reader Unit} (h : Shadows move read cursor)
    (hsame : move cursor = move' cursor) : Shadows move' read cursor where
  ok hread := hsame.symm.trans (h.ok hread)
  error hread hkind := hsame ▸ h.error hread hkind

/-- What is read before both may be used by both. The rest has to be moved over only
from where the common part stops. -/
theorem Shadows.bind {first : Reader γ} {move : γ → Reader Unit} {read : γ → Reader α}
    (h : ∀ c middle, first cursor = (.ok c, middle) → Shadows (move c) (read c) middle) :
    Shadows (first >>= move) (first >>= read) cursor where
  ok hread := by
    obtain ⟨c, middle, hfirst, hread⟩ := bind_ok_iff.1 hread
    rw [bind_of_ok hfirst]
    exact (h c middle hfirst).ok hread
  error hread hkind := by
    obtain hfirst | ⟨c, middle, hfirst, hread⟩ := bind_error_iff.1 hread
    · exact ⟨_, bind_of_error hfirst⟩
    · obtain ⟨stop, hmove⟩ := (h c middle hfirst).error hread hkind
      exact ⟨stop, (bind_of_ok hfirst).trans hmove⟩

/-- Two things one behind the other are moved over one behind the other. The second
movement is asked for only where the first thing could be read. -/
theorem Shadows.seq {move' : Reader Unit} {next : α → Reader β} (h : Shadows move read cursor)
    (hnext : ∀ a middle, read cursor = (.ok a, middle) → Shadows move' (next a) middle) :
    Shadows (move >>= fun _ => move') (read >>= next) cursor where
  ok hread := by
    obtain ⟨a, middle, hread, hafter⟩ := bind_ok_iff.1 hread
    rw [bind_of_ok (h.ok hread)]
    exact (hnext a middle hread).ok hafter
  error hread hkind := by
    obtain hread | ⟨a, middle, hread, hafter⟩ := bind_error_iff.1 hread
    · obtain ⟨stop, hmove⟩ := h.error hread hkind
      exact ⟨stop, bind_of_error hmove⟩
    · obtain ⟨stop, hmove⟩ := (hnext a middle hread).error hafter hkind
      exact ⟨stop, (bind_of_ok (h.ok hread)).trans hmove⟩

/-- What was read need not be judged to move over it. Judging may fail with text
alone, which moving over it does not notice. -/
theorem Shadows.judge {next : α → Reader β} (h : Shadows move read cursor)
    (hnext : ∀ a, Judges (next a)) : Shadows move (read >>= next) cursor where
  ok hread := by
    obtain ⟨a, middle, hread, hafter⟩ := bind_ok_iff.1 hread
    obtain ⟨b, hjudged⟩ | ⟨e, after, hjudged, -⟩ := hnext a middle
    · rw [hjudged] at hafter
      cases hafter
      exact h.ok hread
    · rw [hjudged] at hafter
      cases hafter
  error hread hkind := by
    obtain hread | ⟨a, middle, hread, hafter⟩ := bind_error_iff.1 hread
    · exact h.error hread hkind
    · obtain ⟨b, hjudged⟩ | ⟨e, after, hjudged, htext⟩ := hnext a middle
      · rw [hjudged] at hafter
        cases hafter
      · rw [hjudged] at hafter
        cases hafter
        exact absurd htext hkind

/-- What is made of a thing that was read makes no difference to moving over it. -/
theorem Shadows.map (f : α → β) (h : Shadows move read cursor) :
    Shadows move (read >>= fun a => pure (f a)) cursor :=
  h.judge fun a => judges_pure (f a)

/-- A thing may also be moved over by reading it and forgetting it. -/
theorem shadows_forget (read : Reader α) (cursor : Cursor) :
    Shadows (read >>= fun _ => pure ()) read cursor where
  ok h := bind_of_ok h
  error h _ := ⟨_, bind_of_error h⟩

/-- One byte is moved over as it is read. -/
theorem shadows_byte (cursor : Cursor) : Shadows (skip 1) byte cursor := by
  by_cases hroom : cursor.pos < cursor.stop
  · have hle : 1 ≤ cursor.remaining := Nat.sub_pos_of_lt hroom
    exact shadows_of_ok (dif_pos hle) (dif_pos hroom)
  · have hle : ¬1 ≤ cursor.remaining := fun hle => hroom (Nat.lt_of_sub_pos hle)
    exact shadows_of_error (dif_neg hle) (dif_neg hroom)

private theorem shadows_take (count : Nat) (cursor : Cursor) :
    Shadows (skip count) (take count) cursor := by
  rcases hskip : skip count cursor with ⟨e | ⟨⟨⟩⟩, after⟩
  · have htake : take count cursor = (.error e, after) := by rw [take, hskip]
    exact shadows_of_error hskip htake
  · have htake : take count cursor = (.ok (cursor.data.extract cursor.pos after.pos).toList, after) := by
      rw [take, hskip]
    exact shadows_of_ok hskip htake

private theorem shadows_numberIn (order : ByteOrder) (width : Nat) (cursor : Cursor) :
    Shadows (skip width) (numberIn order width) cursor :=
  (shadows_take width cursor).map order.number

private theorem shadows_number (width : Nat) (cursor : Cursor) :
    Shadows (skip width) (number width) cursor where
  ok h := (shadows_numberIn cursor.order width cursor).ok h
  error h hkind := (shadows_numberIn cursor.order width cursor).error h hkind

theorem shadows_int32 (cursor : Cursor) : Shadows (skip 4) int32 cursor :=
  (shadows_number 4 cursor).map _

theorem shadows_int64 (cursor : Cursor) : Shadows (skip 8) int64 cursor :=
  (shadows_number 8 cursor).map _

theorem shadows_uint32 (cursor : Cursor) : Shadows (skip 4) uint32 cursor :=
  (shadows_numberIn .big 4 cursor).map _

theorem shadows_uint64 (cursor : Cursor) : Shadows (skip 8) uint64 cursor :=
  (shadows_numberIn .big 8 cursor).map _

/-- A payload is moved over as it is read: on both sides its length is read first,
and a negative one refused. -/
theorem shadows_sized (cursor : Cursor) : Shadows skipSized sized cursor :=
  Shadows.bind fun count middle _ => shadows_take count middle

/-- Things are moved over one by one as they are read one by one. Each of them must
be, wherever it stands. -/
theorem shadows_repeated (h : ∀ cursor, Shadows move read cursor) (count : Nat) (cursor : Cursor) :
    Shadows (repeated move count >>= fun _ => pure ()) (repeated read count) cursor := by
  induction count generalizing cursor with
  | zero => exact shadows_pure [] cursor
  | succ count ih =>
    have hstep : (repeated move (count + 1) >>= fun _ => pure ()) =
        move >>= fun _ => repeated move count >>= fun _ => pure () := by
      simp only [repeated, bind_assoc, pure_bind]
    rw [hstep]
    exact (h cursor).seq fun a middle _ => (ih middle).map (a :: ·)

private theorem skip_add {early late : Nat} {middle after : Cursor}
    (hearly : skip early cursor = (.ok (), middle)) (hlate : skip late middle = (.ok (), after)) :
    skip (early + late) cursor = (.ok (), after) := by
  have hmiddle := remaining_skip hearly
  have hafter := remaining_skip hlate
  have hroom : early ≤ cursor.remaining := by omega
  have hroom' : late ≤ middle.remaining := by omega
  have hboth : early + late ≤ cursor.remaining := by omega
  rw [skip, dif_pos hroom] at hearly
  cases hearly
  rw [skip, dif_pos hroom'] at hlate
  cases hlate
  rw [skip, dif_pos hboth]
  simp only [Nat.add_assoc]

/-- Things of one width are moved over at once if all of them are there. If some
were missing, moving over them at once would name another number of bytes than the
reading does, so the bound is needed. -/
theorem shadows_repeated_width {width : Nat} (h : ∀ cursor, Shadows (skip width) read cursor)
    (count : Nat) (cursor : Cursor) (hroom : count * width ≤ cursor.remaining) :
    Shadows (skip (count * width)) (repeated read count) cursor := by
  induction count generalizing cursor with
  | zero =>
    rw [Nat.zero_mul]
    exact shadows_of_ok (dif_pos (Nat.zero_le _)) rfl
  | succ count ih =>
    rw [Nat.succ_mul] at hroom
    have hwidth : width ≤ cursor.remaining := Nat.le_trans (Nat.le_add_left ..) hroom
    obtain ⟨middle, hfirst, -⟩ := skip_of_le hwidth
    have hleft : count * width ≤ middle.remaining := by
      have := remaining_skip hfirst
      omega
    obtain ⟨after, hrest, -⟩ := skip_of_le hleft
    -- One move over everything is a move over the first thing and then one over the rest.
    have hseq : Shadows (skip width >>= fun _ => skip (count * width))
        (repeated read (count + 1)) cursor := by
      apply (h cursor).seq
      intro a place hread
      have hplace := (h cursor).ok hread
      rw [hfirst] at hplace
      cases hplace
      exact (ih middle hleft).map (a :: ·)
    apply hseq.congr
    rw [bind_of_ok hfirst, hrest, Nat.succ_mul, Nat.add_comm, skip_add hfirst hrest]

/-- A reader that never finds fault with text. -/
def IgnoresText (read : Reader α) : Prop :=
  ∀ cursor e after, read cursor = (.error e, after) → e.kind ≠ .invalidUtf8

theorem ignoresText_pure (a : α) : IgnoresText (pure a) := by
  intro cursor e after h
  cases h

theorem ignoresText_fail {e : Error} (hkind : e.kind ≠ .invalidUtf8) :
    IgnoresText (fail e : Reader α) := by
  intro cursor e' after h
  cases h
  exact hkind

/-- Readers one behind the other find no fault with text if none of them does. -/
theorem IgnoresText.bind {next : α → Reader β} (h : IgnoresText read)
    (hnext : ∀ a, IgnoresText (next a)) : IgnoresText (read >>= next) := by
  intro cursor e after herror
  obtain hread | ⟨a, middle, -, hafter⟩ := bind_error_iff.1 herror
  · exact h cursor e after hread
  · exact hnext a middle e after hafter

theorem ignoresText_remaining : IgnoresText remaining := by
  intro cursor e after h
  cases h

theorem ignoresText_byte : IgnoresText byte := by
  intro cursor e after h
  unfold byte at h
  split at h
  · cases h
  · cases h
    simp [Error.kind]

theorem ignoresText_lastByte : IgnoresText lastByte := by
  intro cursor e after h
  unfold lastByte at h
  split at h
  · cases h
  · cases h
    simp [Error.kind]

private theorem ignoresText_take (count : Nat) : IgnoresText (take count) := by
  intro cursor e after h
  by_cases hroom : count ≤ cursor.remaining
  · obtain ⟨stop, htake, -⟩ := take_of_le hroom
    rw [htake] at h
    cases h
  · rw [take_of_lt (Nat.lt_of_not_le hroom)] at h
    cases h
    simp [Error.kind]

theorem ignoresText_uint64 : IgnoresText uint64 :=
  ((ignoresText_take 8).bind fun _ => ignoresText_pure _).bind fun _ => ignoresText_pure _

theorem ignoresText_int32 : IgnoresText int32 := by
  have hnumber : IgnoresText (number 4) := by
    intro cursor
    exact ((ignoresText_take 4).bind fun bytes => ignoresText_pure (cursor.order.number bytes)) cursor
  exact hnumber.bind fun _ => ignoresText_pure _

end KeyedRows.Reader
