import KeyedRows.Proofs.Reader.Taking
import KeyedRows.Row.Scrutiny

namespace KeyedRows

namespace Scrutiny

/-- Bytes that are found pass, one by one, for bytes that are written. -/
inductive AllPass : List Scrutiny → Bytes → Bytes → Prop
  | nil : AllPass [] [] []
  | cons {look : Scrutiny} {looks : List Scrutiny} {b c : UInt8} {written found : Bytes}
      (hwritten : look.Written b) (hpasses : look.Passes b c) (hrest : AllPass looks written found) :
      AllPass (look :: looks) (b :: written) (c :: found)

/-- All bytes are some that are written where bytes are looked at so. -/
def AllWritten (looks : List Scrutiny) (found : Bytes) : Prop :=
  ∀ (place : Nat) (look : Scrutiny) (b : UInt8),
    looks[place]? = some look → found[place]? = some b → look.Written b

/-- Bytes differ from those that are found just where the found ones would not be
written. -/
structure Rewrites (looks : List Scrutiny) (found written : Bytes) : Prop where
  length_looks : looks.length = found.length
  length_written : written.length = found.length
  keeps_iff : ∀ (place : Nat) (look : Scrutiny) (b : UInt8), looks[place]? = some look →
    found[place]? = some b → (written[place]? = some b ↔ look.Written b)

variable {look : Scrutiny} {looks more : List Scrutiny} {b c : UInt8}
  {written found written' found' : Bytes}

private theorem eq_iff_written (hwritten : look.Written b) (hpasses : look.Passes b c) :
    b = c ↔ look.Written c := by
  cases look with
  | exact => exact ⟨fun _ => trivial, fun _ => hpasses.symm⟩
  | flag =>
    constructor
    · rintro rfl
      exact hwritten
    · intro hc
      have hzero : c = 0 ↔ b = 0 := hpasses
      obtain rfl | rfl := hwritten
      · exact (hzero.2 rfl).symm
      · exact (hc.resolve_left fun h => absurd (hzero.1 h) (by decide)).symm
  | filler =>
    have hb : b = 0 := hwritten
    rw [hb]
    exact eq_comm

namespace AllPass

theorem append (h : AllPass looks written found) (h' : AllPass more written' found') :
    AllPass (looks ++ more) (written ++ written') (found ++ found') := by
  induction h with
  | nil => exact h'
  | cons hwritten hpasses _ ih => exact .cons hwritten hpasses ih

private theorem length_looks (h : AllPass looks written found) : looks.length = found.length := by
  induction h with
  | nil => rfl
  | cons _ _ _ ih => rw [List.length_cons, List.length_cons, ih]

/-- As many bytes are found as written. -/
theorem length_written (h : AllPass looks written found) : written.length = found.length := by
  induction h with
  | nil => rfl
  | cons _ _ _ ih => rw [List.length_cons, List.length_cons, ih]

/-- Where bytes pass for those that are written, both differ just where the found
ones would not be written. -/
theorem rewrites (h : AllPass looks written found) : Rewrites looks found written := by
  refine ⟨h.length_looks, h.length_written, ?_⟩
  induction h with
  | nil => simp
  | cons hwritten hpasses _ ih =>
    intro place look b hlook hb
    cases place with
    | zero =>
      rw [List.getElem?_cons_zero, Option.some.injEq] at hlook hb ⊢
      rw [← hlook, ← hb]
      exact eq_iff_written hwritten hpasses
    | succ place => exact ih place look b hlook hb

end AllPass

/-- Nothing differs if all bytes would be written. -/
theorem Rewrites.eq_iff (h : Rewrites looks found written) :
    written = found ↔ AllWritten looks found := by
  constructor
  · rintro rfl place look b hlook hb
    exact (h.keeps_iff place look b hlook hb).1 hb
  · intro hall
    apply List.ext_getElem h.length_written
    intro place hplace hfound
    have hlooked : place < looks.length := h.length_looks ▸ hfound
    have hlook := List.getElem?_eq_getElem hlooked
    have hb := List.getElem?_eq_getElem hfound
    have hsame := (h.keeps_iff place _ _ hlook hb).2 (hall place _ _ hlook hb)
    rwa [List.getElem?_eq_getElem hplace, Option.some.injEq] at hsame

theorem exactly_add (count count' : Nat) :
    exactly (count + count') = exactly count ++ exactly count' :=
  List.replicate_append_replicate.symm

/-- Every string passes for itself under the closest scrutiny. -/
theorem allPass_exactly (bytes : Bytes) : AllPass (exactly bytes.length) bytes bytes := by
  induction bytes with
  | nil => exact .nil
  | cons b bytes ih => exact .cons trivial rfl ih

/-- Every word passes for itself under the closest scrutiny, which leaves one way to
store a number. -/
theorem allPass_word (order : ByteOrder) (width n : Nat) :
    AllPass (exactly width) (order.word width n) (order.word width n) := by
  have h := allPass_exactly (order.word width n)
  rwa [ByteOrder.length_word] at h

/-- Anything passes for zeros that fill up a place. -/
theorem allPass_filler (bytes : Bytes) :
    AllPass (List.replicate bytes.length filler) (List.replicate bytes.length 0) bytes := by
  induction bytes with
  | nil => exact .nil
  | cons b bytes ih => exact .cons rfl trivial ih

/-- Any byte passes for the one that is written of its being zero or not. -/
theorem allPass_flag (b : UInt8) : AllPass [flag] [if b != 0 then 1 else 0] [b] := by
  by_cases hb : b = 0
  · subst hb
    exact .cons (.inl rfl) Iff.rfl .nil
  · have hflag : (b != 0) = true := bne_iff_ne.2 hb
    rw [hflag, if_pos rfl]
    exact .cons (.inr rfl) ⟨fun h => absurd h hb, fun h => absurd h (by decide)⟩ .nil

end Scrutiny

/-- The bytes between two places of a cursor pass for bytes that are written. -/
def Cursor.Accepts (before after : Cursor) (looks : List Scrutiny) (written : Bytes) : Prop :=
  ∃ found, after.Follows before found ∧ Scrutiny.AllPass looks written found

namespace Cursor

variable {before middle after : Cursor} {looks more : List Scrutiny} {written further : Bytes}

theorem Accepts.order (h : before.Accepts after looks written) : after.order = before.order := by
  obtain ⟨found, hfollows, -⟩ := h
  exact hfollows.order

theorem accepts_refl (cursor : Cursor) : cursor.Accepts cursor [] [] :=
  ⟨[], cursor.follows_refl, .nil⟩

/-- What is accepted in two parts is accepted. -/
theorem Accepts.trans (h : before.Accepts middle looks written)
    (h' : middle.Accepts after more further) :
    before.Accepts after (looks ++ more) (written ++ further) := by
  obtain ⟨found, hfollows, hpass⟩ := h
  obtain ⟨found', hfollows', hpass'⟩ := h'
  exact ⟨found ++ found', hfollows'.trans hfollows, hpass.append hpass'⟩

/-- Bytes that were taken as they stand are accepted under the closest scrutiny. -/
theorem Follows.accepts (h : after.Follows before written) :
    before.Accepts after (Scrutiny.exactly written.length) written :=
  ⟨written, h, Scrutiny.allPass_exactly written⟩

/-- A word that was taken as it stands is accepted under the closest scrutiny. -/
theorem Follows.accepts_word {order : ByteOrder} {width n : Nat}
    (h : after.Follows before (order.word width n)) :
    before.Accepts after (Scrutiny.exactly width) (order.word width n) :=
  ⟨_, h, Scrutiny.allPass_word order width n⟩

end Cursor

end KeyedRows
