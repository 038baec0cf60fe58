import KeyedRows.Proofs.Group.Accepting
import KeyedRows.Proofs.Row.Written
import KeyedRows.Proofs.Text.Utf8

namespace KeyedRows

open Reader Scrutiny

variable {cursor after : Cursor}

namespace Scalar

private theorem encode_of_readText {bytes : Bytes} {text : String}
    (h : readText bytes cursor = (.ok text, after)) : Utf8.encode text = bytes ∧ after = cursor := by
  rw [readText] at h
  cases hdecode : Utf8.decode bytes with
  | error fault =>
    simp only [hdecode] at h
    cases h
  | ok found =>
    simp only [hdecode] at h
    cases h
    exact ⟨Utf8.encode_eq_of_decode hdecode, rfl⟩

private theorem accepts_readFlag {flag : Bool}
    (h : (byte >>= fun b => pure (b != 0)) cursor = (.ok flag, after)) :
    cursor.Accepts after [.flag] [if flag then 1 else 0] := by
  obtain ⟨b, middle, hbyte, hflag⟩ := bind_ok_iff.1 h
  cases hflag
  exact ⟨[b], follows_byte hbyte, allPass_flag b⟩

/-- A number of a key that is read and turned into an item, whatever its width. The
item must be written as the number that was read. -/
private theorem accepts_readNumber {α β : Type} {read : Reader β} {width : Nat} {number : β → Nat}
    {decode : β → α} {item : α} (code : α → Nat)
    (hfollows : ∀ {n after}, read cursor = (.ok n, after) →
      after.Follows cursor (ByteOrder.big.word width (number n)))
    (hcode : ∀ n, code (decode n) = number n)
    (h : (read >>= fun n => pure (decode n)) cursor = (.ok item, after)) :
    cursor.Accepts after (exactly width) (ByteOrder.big.word width (code item)) := by
  obtain ⟨n, middle, hnumber, hitem⟩ := bind_ok_iff.1 h
  cases hitem
  rw [hcode]
  exact (hfollows hnumber).accepts_word

private theorem accepts_readKeyItem {kind : Scalar} {item : kind.Item}
    (h : kind.readKeyItem cursor = (.ok item, after)) :
    cursor.Accepts after (kind.keyScrutiny item) (kind.keyBytes item) := by
  cases kind with
  | bool => exact accepts_readFlag h
  | int32 =>
    refine accepts_readNumber (fun n : Int32 => Sortable.ofSigned signBit32 n.toInt) follows_uint32
      (fun n => ?_) h
    rw [Int32.toInt_ofInt]
    exact Sortable.ofSigned_bmod_toSigned n.toNat_lt
  | int64 =>
    refine accepts_readNumber (fun n : Int64 => Sortable.ofSigned signBit64 n.toInt) follows_uint64
      (fun n => ?_) h
    rw [Int64.toInt_ofInt]
    exact Sortable.ofSigned_bmod_toSigned n.toNat_lt
  | float32 =>
    exact accepts_readNumber (fun x : Float32Bits => Sortable.ofPattern signBit32 x.bits.toNat)
      follows_uint32 (fun n => Sortable.ofPattern_mod_toPattern n.toNat_lt) h
  | float64 =>
    exact accepts_readNumber (fun x : Float64Bits => Sortable.ofPattern signBit64 x.bits.toNat)
      follows_uint64 (fun n => Sortable.ofPattern_mod_toPattern n.toNat_lt) h
  | string =>
    obtain ⟨bytes, middle, hgroups, htext⟩ := bind_ok_iff.1 h
    obtain ⟨hbytes, rfl⟩ := encode_of_readText htext
    rw [keyScrutiny, keyBytes, hbytes]
    exact Group.accepts_reader hgroups

private theorem accepts_readItem {kind : Scalar} {item : kind.Item}
    (h : kind.readItem cursor = (.ok item, after)) :
    cursor.Accepts after (kind.valueScrutiny item) (kind.valueBytes cursor.order item) ∧
      kind.Fits item := by
  cases kind with
  | bool => exact ⟨accepts_readFlag h, trivial⟩
  | int32 => exact ⟨(follows_int32 h).accepts_word, trivial⟩
  | int64 => exact ⟨(follows_int64 h).accepts_word, trivial⟩
  | float32 =>
    obtain ⟨n, middle, hnumber, hitem⟩ := bind_ok_iff.1 h
    cases hitem
    exact ⟨(follows_int32 hnumber).accepts_word, trivial⟩
  | float64 =>
    obtain ⟨n, middle, hnumber, hitem⟩ := bind_ok_iff.1 h
    cases hitem
    exact ⟨(follows_int64 hnumber).accepts_word, trivial⟩
  | string =>
    obtain ⟨bytes, middle, hsized, htext⟩ := bind_ok_iff.1 h
    obtain ⟨rfl, rfl⟩ := encode_of_readText htext
    obtain ⟨hfits, hfollows⟩ := follows_sized hsized
    have haccepts := hfollows.accepts
    rw [List.length_append, ByteOrder.length_word] at haccepts
    exact ⟨haccepts, hfits⟩

private theorem follows_readCount {kind : Scalar} {count : Nat}
    (h : kind.readCount cursor = (.ok count, after)) :
    count < Frame.lengthLimit ∧
      after.Follows cursor (cursor.order.word Frame.lengthSize count) := by
  obtain ⟨n, middle, hlength, hcount⟩ := bind_ok_iff.1 h
  rw [bind_of_ok (rfl : remaining middle = (.ok _, middle))] at hcount
  split at hcount
  · cases hcount
  · cases hcount
    exact follows_length hlength

private theorem accepts_repeated {kind : Scalar} {count : Nat} {items : List kind.Item}
    (h : repeated kind.readItem count cursor = (.ok items, after)) :
    items.length = count ∧ (∀ item ∈ items, kind.Fits item) ∧
      cursor.Accepts after (items.flatMap kind.valueScrutiny)
        (items.flatMap (kind.valueBytes cursor.order)) := by
  induction count generalizing cursor items with
  | zero =>
    cases h
    exact ⟨rfl, by simp, Cursor.accepts_refl _⟩
  | succ count ih =>
    obtain ⟨item, middle, hitem, h⟩ := bind_ok_iff.1 h
    obtain ⟨rest, last, hrest, hitems⟩ := bind_ok_iff.1 h
    cases hitems
    obtain ⟨hfirst, hfits⟩ := accepts_readItem hitem
    obtain ⟨hlength, hall, hbehind⟩ := ih hrest
    rw [hfirst.order] at hbehind
    exact ⟨congrArg Nat.succ hlength, List.forall_mem_cons.2 ⟨hfits, hall⟩, hfirst.trans hbehind⟩

end Scalar

namespace Column

variable {column : Column} {slot : Slot}

private theorem accepts_readMarker {present : Bool} (h : column.readMarker cursor = (.ok present, after)) :
    (present = false → column.nullable = true) ∧ ∀ slot : Slot, slot.isSome = present →
      cursor.Accepts after (column.markerScrutiny slot) (column.markerBytes slot) := by
  rw [readMarker] at h
  cases hnullable : column.nullable with
  | false =>
    simp only [hnullable] at h
    cases h
    refine ⟨fun h => absurd h (by decide), fun slot _ => ?_⟩
    simp only [markerScrutiny, markerBytes, hnullable]
    exact cursor.accepts_refl
  | true =>
    simp only [hnullable, if_true] at h
    refine ⟨fun _ => rfl, fun slot hsome => ?_⟩
    simp only [markerScrutiny, markerBytes, hnullable, if_true, hsome]
    obtain ⟨marker, middle, hmarker, h⟩ := bind_ok_iff.1 h
    have hfirst := (follows_byte hmarker).accepts
    split at h
    · rename_i hpresent
      cases h
      rwa [hpresent] at hfirst
    · split at h
      · rename_i habsent
        obtain ⟨⟨⟩, last, hskip, hpresent⟩ := bind_ok_iff.1 h
        cases hpresent
        obtain ⟨filling, hlength, hfollows⟩ := follows_skip hskip
        rw [habsent] at hfirst
        rw [← hlength]
        exact hfirst.trans ⟨filling, hfollows, allPass_filler filling⟩
      · cases h

/-- A slot of a key column is only read from bytes that pass for its own. Nothing is
asked of the column or of the bytes, and the slot that is read is one that the
column admits, so that it can be written again. -/
theorem accepts_readKey (h : column.readKey cursor = (.ok slot, after)) :
    column.Admits slot ∧ cursor.Accepts after (column.keyScrutiny slot) (column.keyBytes slot) := by
  obtain ⟨present, middle, hmarker, h⟩ := bind_ok_iff.1 h
  obtain ⟨hnullable, hmarked⟩ := accepts_readMarker hmarker
  cases present with
  | false =>
    cases h
    exact ⟨hnullable rfl, (hmarked none rfl).trans after.accepts_refl⟩
  | true =>
    simp only [if_true] at h
    cases htype : column.type with
    | list kind =>
      simp only [htype] at h
      cases h
    | scalar kind =>
      simp only [htype] at h
      obtain ⟨item, last, hitem, hslot⟩ := bind_ok_iff.1 h
      cases hslot
      exact ⟨htype.symm, (hmarked (some (.scalar kind item)) rfl).trans
        (Scalar.accepts_readKeyItem hitem)⟩

/-- A slot of a column outside the key is only read from bytes that pass for its
own. What is read is admitted by the column and short enough for its length fields,
which no bound on the bytes is needed for: each length was read from such a field. -/
theorem accepts_readValue (h : column.readValue cursor = (.ok slot, after)) :
    column.Admits slot ∧ slot.Fits ∧
      cursor.Accepts after (column.valueScrutiny slot) (column.valueBytes cursor.order slot) := by
  obtain ⟨present, middle, hmarker, h⟩ := bind_ok_iff.1 h
  obtain ⟨hnullable, hmarked⟩ := accepts_readMarker hmarker
  cases present with
  | false =>
    cases h
    exact ⟨hnullable rfl, Slot.fits_none, (hmarked none rfl).trans after.accepts_refl⟩
  | true =>
    simp only [if_true] at h
    cases htype : column.type with
    | scalar kind =>
      simp only [htype] at h
      obtain ⟨item, last, hitem, hslot⟩ := bind_ok_iff.1 h
      cases hslot
      obtain ⟨hbytes, hfits⟩ := Scalar.accepts_readItem hitem
      have hmarked := hmarked (some (.scalar kind item)) rfl
      rw [hmarked.order] at hbytes
      exact ⟨htype.symm, Slot.fits_some hfits, hmarked.trans hbytes⟩
    | list kind =>
      simp only [htype] at h
      obtain ⟨count, counted, hcount, h⟩ := bind_ok_iff.1 h
      obtain ⟨items, last, hitems, hslot⟩ := bind_ok_iff.1 h
      cases hslot
      have hmarked := hmarked (some (.list kind items)) rfl
      -- The marker and the count keep the order of numbers, so the items are laid out in it too.
      obtain ⟨hlimit, hcounted⟩ := Scalar.follows_readCount hcount
      obtain ⟨rfl, hfits, hbytes⟩ := Scalar.accepts_repeated hitems
      rw [hcounted.order, hmarked.order] at hbytes
      rw [hmarked.order] at hcounted
      exact ⟨htype.symm, Slot.fits_some ⟨hlimit, hfits⟩,
        hmarked.trans (hcounted.accepts_word.trans hbytes)⟩

end Column

end KeyedRows
