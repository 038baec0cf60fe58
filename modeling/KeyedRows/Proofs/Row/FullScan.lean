import KeyedRows.Proofs.Row.KeyOrder

namespace KeyedRows.Encoder

variable {encoder other : Encoder} {tag tag' : UInt8}

private theorem lowerBound_eq (encoder : Encoder) (tag : UInt8) :
    encoder.lowerBound tag = encoder.opening tag :=
  (encoder.extends_writeOpening tag encoder.keyRegion).toBytes_of_empty

/-- The encoder for the next common id. -/
def next (encoder : Encoder) : Encoder :=
  { encoder with commonId := encoder.commonId + 1 }

private theorem upperBound_eq (tag : UInt8)
    (hnext : ¬(encoder.commonId = Int64.maxValue ∨ encoder.commonId = -1)) :
    encoder.upperBound tag = .ok (encoder.next.opening tag) := by
  have hbytes := (encoder.next.extends_writeOpening tag encoder.keyRegion).toBytes_of_empty
  rw [upperBound, if_neg hnext, ← hbytes]
  rfl

private theorem toInt_add_one {n : Int64} (hlast : n ≠ Int64.maxValue) : (n + 1).toInt = n.toInt + 1 := by
  have hlow := n.le_toInt
  have hhigh := n.toInt_lt
  have hne : n.toInt ≠ 2 ^ 63 - 1 := fun h => hlast (Int64.toInt_inj.1 h)
  have hone : (1 : Int64).toInt = 1 := rfl
  rw [Int64.toInt_add, hone]
  exact Int.bmod_eq_of_le (by omega) (by omega)

private theorem toNat_toUInt64_add_one {n : Int64} (hones : n ≠ -1) :
    (n + 1).toUInt64.toNat = n.toUInt64.toNat + 1 := by
  have hlt := n.toUInt64.toNat_lt
  have hne : n.toUInt64.toNat ≠ 2 ^ 64 - 1 :=
    fun h => hones (toUInt64_inj.1 (UInt64.toNat_inj.1 h))
  have hone : (1 : Int64).toUInt64.toNat = 1 := rfl
  rw [Int64.toUInt64_add, UInt64.toNat_add, hone]
  exact Nat.mod_eq_of_lt (by omega)

/-- A key lies below an opening only if its own opening does, since the key is the
longer one. The key may be one of any encoder, under any schema and with any tag
byte. -/
theorem lt_opening_iff {record : Record} {key : Bytes}
    (hkey : other.encodeKey tag' record = .ok key) :
    key < encoder.opening tag ↔
      tag' < tag ∨ tag' = tag ∧
        other.commonId.toUInt64.toNat < encoder.commonId.toUInt64.toNat := by
  obtain ⟨-, -, hbytes⟩ := encodeKey_eq_ok hkey
  have htag : compare tag' tag = .lt ↔ tag' < tag := Std.compare_eq_lt
  have hid : compare other.commonId.toUInt64 encoder.commonId.toUInt64 = .lt ↔
      other.commonId.toUInt64 < encoder.commonId.toUInt64 := Std.compare_eq_lt
  have hbehind : ∀ columns : Bytes, compare (columns ++ Frame.trailer) [] = .gt := by
    intro columns
    cases columns <;> exact List.compare_cons_nil
  have hcompare := compare_opening_append other encoder tag' tag
    (record.bytesBy Column.keyBytes other.plan.keyColumns ++ Frame.trailer) []
  rw [List.append_nil, ← List.append_assoc, ← hbytes, hbehind] at hcompare
  rw [← Bytes.compare_eq_lt_iff, hcompare, Ordering.then_eq_lt, Ordering.then_eq_lt, htag, hid,
    Std.LawfulEqOrd.compare_eq_iff_eq, ← UInt64.lt_iff_toNat_lt]
  simp

/-- There is no upper bound for the greatest common id and for the one that is all
ones, and for no others. Between the bounds of a tag byte and any other common id
lie the keys with this tag byte and id, and no others, whichever encoders of
whichever schemas write them. -/
theorem between_bounds_iff (encoder : Encoder) (tag : UInt8) :
    (encoder.upperBound tag = .error (.noNextCommonId encoder.commonId) ↔
      encoder.commonId = Int64.maxValue ∨ encoder.commonId = -1) ∧
    (¬(encoder.commonId = Int64.maxValue ∨ encoder.commonId = -1) →
      (encoder.commonId + 1).toInt = encoder.commonId.toInt + 1 ∧
      ∃ stop, encoder.upperBound tag = .ok stop ∧
        ∀ (other : Encoder) (tag' : UInt8) (record : Record) (key : Bytes),
          other.encodeKey tag' record = .ok key →
            (encoder.lowerBound tag ≤ key ∧ key < stop ↔
              tag' = tag ∧ other.commonId = encoder.commonId)) := by
  constructor
  · constructor
    · intro herror
      by_contra hnext
      rw [upperBound_eq tag hnext] at herror
      cases herror
    · intro hlast
      rw [upperBound, if_pos hlast]
  · intro hnext
    obtain ⟨hlast, hones⟩ := not_or.1 hnext
    refine ⟨toInt_add_one hlast, encoder.next.opening tag, upperBound_eq tag hnext, ?_⟩
    intro other tag' record key hkey
    have hstep : encoder.next.commonId.toUInt64.toNat = encoder.commonId.toUInt64.toNat + 1 :=
      toNat_toUInt64_add_one hones
    rw [lowerBound_eq, ← List.not_lt, lt_opening_iff hkey, lt_opening_iff hkey, hstep,
      UInt8.lt_iff_toNat_lt, ← UInt8.toNat_inj, ← toUInt64_inj, ← UInt64.toNat_inj]
    omega

/-- The common ids 255 and 256, between which a carry goes to the next byte. A key
of the first lies between its bounds although it was written for the other byte
order, and a key of the second does not. -/
theorem between_bounds_across_carry :
    ∃ inside outside stop,
      (readings .little 255).encodeKey 114 ⟨[none, some (.scalar .float64 ⟨0⟩), none]⟩ =
        .ok inside ∧
      (readings .big 256).encodeKey 114 ⟨[none, some (.scalar .float64 ⟨0⟩), none]⟩ =
        .ok outside ∧
      (readings .big 255).upperBound 114 = .ok stop ∧
      ((readings .big 255).lowerBound 114 ≤ inside ∧ inside < stop) ∧
      ¬((readings .big 255).lowerBound 114 ≤ outside ∧ outside < stop) := by
  have hinside : (readings .little 255).encodeKey 114
      ⟨[none, some (.scalar .float64 ⟨0⟩), none]⟩ =
      .ok [114, 0, 0, 0, 0, 0, 0, 0, 255, 0, 128, 0, 0, 0, 0, 0, 0, 0, 0, 0, 0, 1] := by
    decide +kernel
  have houtside : (readings .big 256).encodeKey 114
      ⟨[none, some (.scalar .float64 ⟨0⟩), none]⟩ =
      .ok [114, 0, 0, 0, 0, 0, 0, 1, 0, 0, 128, 0, 0, 0, 0, 0, 0, 0, 0, 0, 0, 1] := by
    decide +kernel
  obtain ⟨-, hbounds⟩ := between_bounds_iff (readings .big 255) 114
  obtain ⟨-, stop, hstop, hiff⟩ := hbounds (by decide)
  refine ⟨_, _, stop, hinside, houtside, hstop, (hiff _ _ _ _ hinside).2 ⟨rfl, rfl⟩, ?_⟩
  intro hbetween
  exact absurd ((hiff _ _ _ _ houtside).1 hbetween).2 (by decide)

end KeyedRows.Encoder
