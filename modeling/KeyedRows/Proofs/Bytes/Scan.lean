import KeyedRows.Bytes.Successor

namespace KeyedRows.Bytes

/-- Whether a byte string lies in the range from `start` on up to the successor of
`start`, which itself lies outside. Without a successor the range has no end. -/
def InScan (start bytes : Bytes) : Prop :=
  start ≤ bytes ∧ ∀ stop, successor? start = some stop → bytes < stop

/-- A byte can be counted up without wrapping unless all its bits are set. -/
theorem toNat_add_one {b : UInt8} (hfull : b ≠ 0xFF) : (b + 1).toNat = b.toNat + 1 := by
  have hb := b.toNat_lt
  have hne : b.toNat ≠ 255 := fun h => hfull (UInt8.toNat_inj.1 h)
  have hone : (1 : UInt8).toNat = 1 := rfl
  rw [UInt8.toNat_add, hone]
  exact Nat.mod_eq_of_lt (by omega)

private theorem lt_add_one_iff {b c : UInt8} (hfull : b ≠ 0xFF) : c < b + 1 ↔ c < b ∨ c = b := by
  rw [UInt8.lt_iff_toNat_lt, UInt8.lt_iff_toNat_lt, toNat_add_one hfull, ← UInt8.toNat_inj]
  omega

private theorem lt_or_eq_full (c : UInt8) : c < 0xFF ∨ c = 0xFF := by
  have hc := c.toNat_lt
  have hfull : (0xFF : UInt8).toNat = 255 := rfl
  rw [UInt8.lt_iff_toNat_lt, ← UInt8.toNat_inj, hfull]
  omega

/-- The end of a scan is compared byte by byte, although it may be shorter than the
start. The end is given as all ends that there are, so that a scan without one needs
no case of its own. -/
theorem lt_successor_cons_iff {b c : UInt8} {start bytes : Bytes} :
    (∀ stop, successor? (b :: start) = some stop → c :: bytes < stop) ↔
      c < b ∨ c = b ∧ ∀ stop, successor? start = some stop → bytes < stop := by
  cases hnext : successor? start with
  | some tail =>
    have hcons : successor? (b :: start) = some (b :: tail) := by rw [successor?, hnext]
    simp only [hcons, Option.some.injEq, forall_eq', List.cons_lt_cons_iff]
  | none =>
    by_cases hfull : b = 0xFF
    · subst hfull
      have hcons : successor? (0xFF :: start) = none := by simp [successor?, hnext]
      simp [hcons, lt_or_eq_full c]
    · have hcons : successor? (b :: start) = some [b + 1] := by simp [successor?, hnext, hfull]
      simp [hcons, List.cons_lt_cons_iff, lt_add_one_iff hfull]

private theorem inScan_cons_iff {b c : UInt8} {start bytes : Bytes} :
    InScan (b :: start) (c :: bytes) ↔ b = c ∧ InScan start bytes := by
  rw [InScan, InScan, lt_successor_cons_iff, List.cons_le_cons_iff]
  constructor
  · intro ⟨hlow, hhigh⟩
    obtain hless | ⟨heq, hlow⟩ := hlow
    · obtain hmore | ⟨heq, -⟩ := hhigh
      · exact absurd hmore (UInt8.lt_asymm hless)
      · exact absurd heq.symm (UInt8.ne_of_lt hless)
    · obtain hmore | ⟨-, hhigh⟩ := hhigh
      · exact absurd heq.symm (UInt8.ne_of_lt hmore)
      · exact ⟨heq, hlow, hhigh⟩
  · intro ⟨heq, hlow, hhigh⟩
    exact ⟨.inr ⟨heq, hlow⟩, .inr ⟨heq.symm, hhigh⟩⟩

/-- The range of a scan holds exactly the byte strings that start with its start.
This covers scans without an end, and the start may be empty. -/
theorem inScan_iff_prefix {start bytes : Bytes} : start.InScan bytes ↔ start <+: bytes := by
  induction start generalizing bytes with
  | nil => simp [InScan, successor?]
  | cons b start ih =>
    cases bytes with
    | nil => simp [InScan]
    | cons c bytes => rw [List.cons_prefix_cons, ← ih, inScan_cons_iff]

/-- A scan has no end only if its start holds nothing but full bytes. -/
theorem successor?_eq_none_iff {start : Bytes} : successor? start = none ↔ ∀ b ∈ start, b = 0xFF := by
  induction start with
  | nil => simp [successor?]
  | cons b start ih =>
    rw [List.forall_mem_cons, ← ih, successor?]
    cases successor? start <;> simp

end KeyedRows.Bytes
