import KeyedRows.Cursor.Unread
import KeyedRows.Proofs.Reader.Sequence

namespace KeyedRows

/-- A cursor before the same bytes as another one, save that the last of them are
cut off. -/
structure Cursor.Cut (short long : Cursor) (rest : Bytes) : Prop where
  unread : long.unread = short.unread ++ rest
  order : short.order = long.order

/-- Bytes without their last ones, and all of them, both from the beginning. -/
theorem Cursor.cut_of (bytes rest : Bytes) (order : ByteOrder) :
    (of bytes order).Cut (of (bytes ++ rest) order) rest :=
  ⟨by rw [unread_of, unread_of], rfl⟩

/-- The cursor over the longer bytes has more left, by what was cut off. -/
theorem Cursor.Cut.remaining {short long : Cursor} {rest : Bytes} (hcut : short.Cut long rest) :
    long.remaining = short.remaining + rest.length := by
  rw [← length_unread, hcut.unread, List.length_append, length_unread]

namespace Reader

variable {α β : Type}

/-- A reader fails for want of bytes. -/
def RunsOut (reader : Reader α) (cursor : Cursor) : Prop :=
  ∃ needed left after, reader cursor = (.error (.truncated needed left), after)

/-- A reader does the same with and without the bytes cut off, or runs out of bytes. -/
def Stands (reader : Reader α) (short long : Cursor) (rest : Bytes) : Prop :=
  RunsOut reader short ∨
    ∃ outcome after stop, reader short = (outcome, after) ∧ reader long = (outcome, stop) ∧
      after.Cut stop rest

/-- A reader stands the cutting off of any bytes. -/
def Steady (reader : Reader α) : Prop :=
  ∀ short long rest, short.Cut long rest → reader.Stands short long rest

variable {reader : Reader α} {short long : Cursor} {rest : Bytes}

/-- What succeeds on the longer bytes succeeds alike on the shorter ones, or runs
out. In this way a failure on the shorter bytes is known from a success on the
longer ones. -/
theorem Steady.of_long {a : α} {stop : Cursor} (hsteady : Steady reader) (hcut : short.Cut long rest)
    (hlong : reader long = (.ok a, stop)) :
    RunsOut reader short ∨ ∃ after, reader short = (.ok a, after) ∧ after.Cut stop rest := by
  obtain hout | ⟨outcome, after, stop', hshort, hsame, hcut⟩ := hsteady short long rest hcut
  · exact .inl hout
  · rw [hlong] at hsame
    cases hsame
    exact .inr ⟨after, hshort, hcut⟩

/-- What succeeds on the shorter bytes succeeds alike on the longer ones. No running
out is possible here, and what was added is still unread. -/
theorem Steady.of_short {a : α} {after : Cursor} (hsteady : Steady reader)
    (hcut : short.Cut long rest) (hshort : reader short = (.ok a, after)) :
    ∃ stop, reader long = (.ok a, stop) ∧ after.Cut stop rest := by
  obtain ⟨needed, left, after', hout⟩ | ⟨outcome, after', stop, hsame, hlong, hcut⟩ :=
    hsteady short long rest hcut
  · rw [hshort] at hout
    cases hout
  · rw [hshort] at hsame
    cases hsame
    exact ⟨stop, hlong, hcut⟩

theorem RunsOut.bind {next : α → Reader β} (hout : RunsOut reader short) :
    RunsOut (reader >>= next) short := by
  obtain ⟨needed, left, after, hread⟩ := hout
  exact ⟨needed, left, after, bind_of_error hread⟩

/-- A series of readers stands the cut if both parts do. The second part is only
looked at from where the first one stops on both sides, which is where it gives the
same. -/
theorem Stands.bind {next : α → Reader β} (hreader : reader.Stands short long rest)
    (hnext : ∀ a after stop, reader short = (.ok a, after) → after.Cut stop rest →
      (next a).Stands after stop rest) :
    (reader >>= next).Stands short long rest := by
  obtain hout | ⟨outcome, after, stop, hshort, hlong, hcut⟩ := hreader
  · exact .inl hout.bind
  · cases outcome with
    | error e => exact .inr ⟨.error e, after, stop, bind_of_error hshort, bind_of_error hlong, hcut⟩
    | ok a =>
      rw [Stands, RunsOut, bind_of_ok hshort, bind_of_ok hlong]
      exact hnext a after stop hshort hcut

/-- Steady readers one behind the other are steady. -/
theorem Steady.bind {next : α → Reader β} (hreader : Steady reader)
    (hnext : ∀ a, Steady (next a)) : Steady (reader >>= next) := by
  intro short long rest hcut
  apply (hreader short long rest hcut).bind
  intro a after stop _ hcut
  exact hnext a after stop rest hcut

theorem steady_pure (a : α) : Steady (pure a) :=
  fun short long _ hcut => .inr ⟨.ok a, short, long, rfl, rfl, hcut⟩

theorem steady_fail (e : Error) : Steady (fail e : Reader α) :=
  fun short long _ hcut => .inr ⟨.error e, short, long, rfl, rfl, hcut⟩

theorem Steady.map (f : α → β) (hreader : Steady reader) :
    Steady (reader >>= fun a => pure (f a)) :=
  hreader.bind fun a => steady_pure (f a)

/-- The first byte is the same with and without the bytes cut off, or it was cut
off. Taking the last byte is not steady, since it sees where the bytes end. -/
theorem steady_byte : Steady byte := by
  intro short long rest hcut
  cases hunread : short.unread with
  | nil => exact .inl ⟨1, 0, short, byte_of_unread_eq_nil hunread⟩
  | cons b behind =>
    have hlonger := hcut.unread
    rw [hunread, List.cons_append] at hlonger
    obtain ⟨after, hshort, hafter, horder⟩ := byte_of_unread_eq_cons hunread
    obtain ⟨stop, hlong, hstop, horder'⟩ := byte_of_unread_eq_cons hlonger
    exact .inr ⟨.ok b, after, stop, hshort, hlong, by rw [hstop, hafter],
      horder.trans (hcut.order.trans horder'.symm)⟩

/-- Moving on is the same with and without the bytes cut off, or too few are left. -/
theorem steady_skip (count : Nat) : Steady (skip count) := by
  intro short long rest hcut
  by_cases hroom : count ≤ short.remaining
  · have hroom' : count ≤ long.remaining := hcut.remaining ▸ Nat.le_add_right_of_le hroom
    obtain ⟨after, hshort, hafter, horder⟩ := skip_of_le hroom
    obtain ⟨stop, hlong, hstop, horder'⟩ := skip_of_le hroom'
    rw [← short.length_unread] at hroom
    refine .inr ⟨.ok (), after, stop, hshort, hlong, ?_, horder.trans (hcut.order.trans horder'.symm)⟩
    rw [hstop, hafter, hcut.unread, List.drop_append_of_le_length hroom]
  · exact .inl ⟨_, _, _, skip_of_lt (Nat.lt_of_not_le hroom)⟩

theorem steady_take (count : Nat) : Steady (take count) := by
  intro short long rest hcut
  by_cases hroom : count ≤ short.remaining
  · have hroom' : count ≤ long.remaining := hcut.remaining ▸ Nat.le_add_right_of_le hroom
    obtain ⟨after, hshort, hafter, horder⟩ := take_of_le hroom
    obtain ⟨stop, hlong, hstop, horder'⟩ := take_of_le hroom'
    rw [← short.length_unread] at hroom
    rw [hcut.unread, List.take_append_of_le_length hroom] at hlong
    refine .inr ⟨_, after, stop, hshort, hlong, ?_, horder.trans (hcut.order.trans horder'.symm)⟩
    rw [hstop, hafter, hcut.unread, List.drop_append_of_le_length hroom]
  · exact .inl ⟨_, _, _, take_of_lt (Nat.lt_of_not_le hroom)⟩

private theorem steady_numberIn (order : ByteOrder) (width : Nat) : Steady (numberIn order width) :=
  (steady_take width).map order.number

private theorem steady_number (width : Nat) : Steady (number width) := by
  intro short long rest hcut
  have hshort : number width short = numberIn short.order width short := rfl
  have hlong : number width long = numberIn short.order width long := by
    rw [hcut.order]
    rfl
  rw [Stands, RunsOut, hshort, hlong]
  exact steady_numberIn short.order width short long rest hcut

theorem steady_int32 : Steady int32 :=
  (steady_number 4).map _

theorem steady_int64 : Steady int64 :=
  (steady_number 8).map _

theorem steady_uint32 : Steady uint32 :=
  (steady_numberIn .big 4).map _

theorem steady_uint64 : Steady uint64 :=
  (steady_numberIn .big 8).map _

/-- Lengths are read steadily; a negative one is refused on both sides. -/
theorem steady_length : Steady length := by
  apply steady_int32.bind
  intro n
  split
  · exact steady_fail _
  · exact steady_pure _

/-- Payloads behind their lengths are read steadily. -/
theorem steady_sized : Steady sized :=
  steady_length.bind steady_take

/-- Things that are each read steadily are so one by one, for any count of them. -/
theorem steady_repeated {item : Reader α} (hitem : Steady item) (count : Nat) :
    Steady (repeated item count) := by
  induction count with
  | zero => exact steady_pure []
  | succ count ih => exact hitem.bind fun a => ih.map (a :: ·)

end Reader

end KeyedRows
