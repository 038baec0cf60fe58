import KeyedRows.Proofs.Bytes.Scan

namespace KeyedRows.Bytes

variable {start stop bytes : Bytes}

/-- The end of a scan is its start up to the last byte that is not full, with that
byte raised. That the raised byte was not full is what keeps it from wrapping round. -/
theorem exists_raised (h : successor? start = some stop) :
    ∃ front b full, start = front ++ b :: List.replicate full 0xFF ∧ stop = front ++ [b + 1] ∧
      b ≠ 0xFF := by
  induction start generalizing stop with
  | nil => cases h
  | cons b start ih =>
    rw [successor?] at h
    cases hnext : successor? start with
    | some tail =>
      simp only [hnext] at h
      cases h
      obtain ⟨front, raised, full, rfl, rfl, hraised⟩ := ih hnext
      exact ⟨b :: front, raised, full, rfl, rfl, hraised⟩
    | none =>
      simp only [hnext] at h
      split at h
      · cases h
      · rename_i hb
        cases h
        have hfull : start = List.replicate start.length 0xFF :=
          List.eq_replicate_of_mem (successor?_eq_none_iff.1 hnext)
        exact ⟨[], b, start.length, by rw [← hfull]; rfl, rfl, hb⟩

/-- Between the start and the end of a scan lie the strings that start with its
start. No bound on the length of either string is needed. -/
theorem between_iff_starts (h : successor? start = some stop) :
    start ≤ bytes ∧ bytes < stop ↔ start <+: bytes := by
  rw [← inScan_iff_prefix, InScan, h]
  simp

/-- A scan without an end holds all that is not below its start. -/
theorem prefix_of_le (h : successor? start = none) (hle : start ≤ bytes) : start <+: bytes := by
  rw [← inScan_iff_prefix, InScan, h]
  simpa using hle

/-- No string below the end of a scan is above all strings of the scan. So a scan
that ends there reads nothing that it need not. -/
theorem le_of_above_prefixed (h : successor? start = some stop) {upper : Bytes}
    (habove : ∀ bytes, start <+: bytes → bytes < upper) : stop ≤ upper := by
  rw [← List.not_lt]
  intro hless
  have hstart : start < upper := habove start List.prefix_rfl
  have hscanned : start <+: upper := (between_iff_starts h).1 ⟨List.le_of_lt hstart, hless⟩
  exact List.lt_irrefl upper (habove upper hscanned)

/-- A scan has no end exactly if its start is empty or full bytes only, and then all
that is not below the start starts with it. In every other case the start and the
end have between them the strings that start with the start, and no others, and the
end is the least string above all of these. The end is found by dropping the full
bytes at the end of the start and raising the last byte that is left, which is not a
full one. -/
theorem successor?_least_end (start : Bytes) :
    (successor? start = none ↔ start = [] ∨ ∀ b ∈ start, b = 0xFF) ∧
    (successor? start = none → ∀ bytes, start ≤ bytes → start <+: bytes) ∧
    (¬(start = [] ∨ ∀ b ∈ start, b = 0xFF) → ∃ stop, successor? start = some stop ∧
      (∀ bytes, start ≤ bytes ∧ bytes < stop ↔ start <+: bytes) ∧
      (∀ upper, (∀ bytes, start <+: bytes → bytes < upper) → stop ≤ upper) ∧
      ∃ front b full, start = front ++ b :: List.replicate full 0xFF ∧ stop = front ++ [b + 1] ∧
        b ≠ 0xFF ∧ (b + 1).toNat = b.toNat + 1) := by
  have hnone : successor? start = none ↔ start = [] ∨ ∀ b ∈ start, b = 0xFF := by
    rw [successor?_eq_none_iff]
    constructor
    · exact .inr
    · rintro (rfl | hfull)
      · simp
      · exact hfull
  refine ⟨hnone, fun h bytes hle => prefix_of_le h hle, ?_⟩
  intro hsome
  obtain ⟨stop, hstop⟩ := Option.ne_none_iff_exists'.1 (mt hnone.1 hsome)
  obtain ⟨front, b, full, hstart, hraised, hb⟩ := exists_raised hstop
  exact ⟨stop, hstop, fun bytes => between_iff_starts hstop,
    fun upper habove => le_of_above_prefixed hstop habove,
    front, b, full, hstart, hraised, hb, toNat_add_one hb⟩

/-- A start that ends in full bytes, for which they are cut off, and one of full
bytes only, which has no end. -/
theorem successor?_least_end_at_full_bytes :
    let start : Bytes := [7, 255, 255]
    successor? [255, 255] = none ∧ [255, 255] <+: ([255, 255, 3] : Bytes) ∧
      ∃ stop, successor? start = some stop ∧ start ≤ [7, 255, 255, 0] ∧ [7, 255, 255, 0] < stop ∧
        ¬(start ≤ [7, 255] ∧ [7, 255] < stop) ∧ stop ≤ [8] := by
  intro start
  obtain ⟨hnone, hunbounded, -⟩ := successor?_least_end [255, 255]
  have hfull : successor? [255, 255] = none := hnone.2 (.inr (by simp))
  obtain ⟨-, -, hend⟩ := successor?_least_end start
  obtain ⟨stop, hstop, hbetween, hleast, -⟩ := hend (by decide)
  have habove : ∀ bytes, start <+: bytes → bytes < [8] := by
    rintro _ ⟨rest, rfl⟩
    exact List.Lex.rel (by decide)
  obtain ⟨hlow, hhigh⟩ := (hbetween [7, 255, 255, 0]).2 (by decide)
  exact ⟨hfull, hunbounded hfull _ (by decide), stop, hstop, hlow, hhigh,
    fun h => absurd ((hbetween [7, 255]).1 h) (by decide), hleast _ habove⟩

end KeyedRows.Bytes
