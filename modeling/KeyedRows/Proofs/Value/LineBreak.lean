import KeyedRows.Proofs.Value.ListText

namespace KeyedRows

/-- A number is written on one line, in any base that has digits to write it with. -/
theorem newline_not_mem_toDigits {base : Nat} (hbase : 1 < base) (n : Nat) :
    '\n' ∉ Nat.toDigits base n := by
  induction n using Nat.strongRecOn with
  | ind n ih =>
    rw [Nat.toDigits_eq_if hbase]
    split
    · simp
    · rename_i hle
      have hless : n / base < n := Nat.div_lt_self (by omega) hbase
      simpa using ih (n / base) hless

private theorem Text.newline_not_mem_escape (c : Char) : '\n' ∉ Text.escape '\x22' c := by
  have hcode : '\n' ∉ ['\\', 'u', '\x7b'] ++ Nat.toDigits 16 c.toNat ++ ['\x7d'] := by
    have hdigits := newline_not_mem_toDigits (by decide : 1 < 16) c.toNat
    simpa using hdigits
  unfold Text.escape
  split_ifs with hnul htab hreturn hnewline hbackslash hquote hpoint
  · decide
  · decide
  · decide
  · decide
  · decide
  · decide
  · exact hcode
  · exact fun hmem => hnewline (List.mem_singleton.1 hmem).symm

/-- A quoted text stands on one line, whatever is quoted. Line breaks are escaped,
like all that shows nothing of its own. -/
theorem Text.newline_not_mem_quoted (text : String) : '\n' ∉ (Text.quoted text).toList := by
  rw [Text.quoted, String.toList_ofList]
  simp only [List.mem_cons, List.mem_append, List.mem_flatMap, not_or, not_exists, not_and]
  exact ⟨by decide, fun c _ => newline_not_mem_escape c, by decide, List.not_mem_nil⟩

/-- A decimal that is written out in full stands on one line. -/
theorem Binary.newline_not_mem_positional (digits : Nat) (power : Int) :
    '\n' ∉ Binary.positional digits power := by
  have hdigits := newline_not_mem_toDigits (by decide : 1 < 10) digits
  unfold Binary.positional
  dsimp only
  split_ifs
  · simp [hdigits]
  · simp only [List.mem_append, List.mem_cons, not_or]
    exact ⟨fun hmem => hdigits (List.mem_of_mem_take hmem), by decide,
      fun hmem => hdigits (List.mem_of_mem_drop hmem)⟩
  · simp [hdigits]

private theorem Binary.Format.newline_not_mem_render (fmt : Binary.Format) (bits : Nat) :
    '\n' ∉ fmt.render bits := by
  unfold Binary.Format.render
  cases fmt.datum bits with
  | notANumber => simp
  | infinite negative => cases negative <;> simp
  | finite negative significand exponent =>
    have hpositional := newline_not_mem_positional (fmt.shortest significand exponent).1
      (fmt.shortest significand exponent).2
    cases negative <;> by_cases hzero : significand = 0 <;> simp [hzero, hpositional]

private theorem Integer.newline_not_mem_render (i : Int) : '\n' ∉ Integer.render i := by
  intro hmem
  obtain hminus | hdigit := mem_render hmem
  · cases hminus
  · cases hdigit

/-- Items other than strings stand on one line. Strings are left out: inside a list
they are not quoted. -/
theorem Scalar.newline_not_mem_renderItem {kind : Scalar} (hkind : kind ≠ .string)
    (item : kind.Item) : '\n' ∉ kind.renderItem item := by
  cases kind with
  | bool => cases item <;> decide
  | int32 => exact Integer.newline_not_mem_render _
  | int64 => exact Integer.newline_not_mem_render _
  | float32 => exact Binary.single.newline_not_mem_render _
  | float64 => exact Binary.double.newline_not_mem_render _
  | string => exact absurd rfl hkind

private theorem Value.newline_not_mem_renderItems {kind : Scalar} (hkind : kind ≠ .string)
    (items : List kind.Item) : '\n' ∉ renderItems kind items := by
  unfold renderItems
  induction items with
  | nil => simp
  | cons item items ih =>
    have hitem := Scalar.newline_not_mem_renderItem hkind item
    cases items with
    | nil => simpa using hitem
    | cons next rest =>
      rw [List.map_cons, List.map_cons, List.intercalate_cons_cons]
      simp only [List.mem_append, not_or]
      exact ⟨⟨hitem, by decide⟩, ih⟩

/-- Only a string is quoted when it stands by itself. -/
theorem Value.render_scalar {kind : Scalar} (hkind : kind ≠ .string) (item : kind.Item) :
    (scalar kind item).render = String.ofList (kind.renderItem item) := by
  cases kind with
  | string => exact absurd rfl hkind
  | bool | int32 | int64 | float32 | float64 => rfl

/-- A value that was read from a text breaks the line that it is shown on exactly if
it is a list of strings and the text has a line break in it: strings in a list are
shown as they are, and all other values either have no line breaks in their text or
escape them. -/
theorem Value.newline_mem_render_iff {type : ColumnType} {text : String} {v : Value}
    (h : parse type text = .ok v) :
    '\n' ∈ v.render.toList ↔ type = .list .string ∧ '\n' ∈ text.toList := by
  cases type with
  | scalar kind =>
    rw [parse, map_eq_ok_iff] at h
    obtain ⟨item, -, rfl⟩ := h
    have hline : '\n' ∉ (scalar kind item).render.toList := by
      by_cases hkind : kind = .string
      · subst hkind
        exact Text.newline_not_mem_quoted item
      · rw [render_scalar hkind, String.toList_ofList]
        exact Scalar.newline_not_mem_renderItem hkind item
    simp [hline]
  | list kind =>
    obtain ⟨items, rfl⟩ := exists_list_of_parse h
    rw [render, String.toList_ofList]
    by_cases hkind : kind = .string
    · subst hkind
      have hitems : renderItems .string items = text.toList := by
        have hjoin := intercalate_itemTexts text.toList
        rwa [← map_toList_of_parse_strings h] at hjoin
      simp [hitems]
    · have hitems := newline_not_mem_renderItems hkind items
      simp [hitems, hkind]

end KeyedRows
