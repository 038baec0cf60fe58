import KeyedRows.Proofs.Error.Outcome
import KeyedRows.Proofs.Schema.Checked
import KeyedRows.Schema.Catalog

namespace KeyedRows

/-- Whether the number of columns and their ordinals fit the fields in which they
are stored. -/
def Schema.Storable (columns : Schema) : Prop :=
  columns.length < Nat.pow 256 8 ∧ ∀ column ∈ columns, column.ordinal < Nat.pow 256 8

instance (columns : Schema) : Decidable columns.Storable :=
  inferInstanceAs (Decidable (_ ∧ _))

private theorem ColumnType.ofCode?_eq_some_iff {code : Nat} {type : ColumnType} :
    ofCode? code = some type ↔ code = type.code := by
  constructor
  · intro h
    obtain ⟨hlt, rfl⟩ := List.getElem?_eq_some_iff.1 h
    have hcodes : ∀ place : Fin 12, all[place].code = place := by decide
    exact (hcodes ⟨code, hlt⟩).symm
  · intro h
    rw [h]
    rcases type with kind | kind <;> cases kind <;> rfl

/-- A type is one of twelve, so its code fits its field. -/
theorem ColumnType.code_lt (type : ColumnType) : type.code < Nat.pow 256 4 := by
  rcases type with kind | kind <;> cases kind <;> decide

namespace Catalog

/-- Whether a reader undoes a writer: it finds a value just where the value was
written, with what stands behind it left over. Only values of a kind are written. -/
def Undoes {α : Type} (read : Read α) (kind : α → Prop) (write : α → Bytes) : Prop :=
  ∀ bytes a rest, read bytes = .ok (a, rest) ↔ kind a ∧ bytes = write a ++ rest

private theorem undoes_readWord (width : Nat) :
    Undoes (readWord width) (· < Nat.pow 256 width) (ByteOrder.little.word width) := by
  intro bytes n rest
  by_cases hshort : bytes.length < width
  · rw [readWord, if_pos hshort]
    constructor
    · intro h
      cases h
    · intro ⟨_, hbytes⟩
      rw [hbytes, List.length_append, ByteOrder.length_word] at hshort
      omega
  · rw [readWord, if_neg hshort]
    have hlength : (bytes.take width).length = width :=
      List.length_take_of_le (Nat.le_of_not_lt hshort)
    constructor
    · intro h
      obtain ⟨rfl, rfl⟩ := Prod.mk.inj (Except.ok.inj h)
      have hword := ByteOrder.little.word_number (bytes.take width)
      have hlt := Bytes.toNat_lt (ByteOrder.little.arrange (bytes.take width))
      rw [hlength] at hword
      rw [ByteOrder.length_arrange, hlength] at hlt
      exact ⟨hlt, by rw [hword, List.take_append_drop]⟩
    · intro ⟨hlt, hbytes⟩
      have hword := ByteOrder.little.length_word width n
      rw [hbytes, List.take_left' hword, List.drop_left' hword, ByteOrder.number_word,
        Nat.mod_eq_of_lt hlt]

private theorem undoes_readType :
    Undoes readType (fun _ => True) fun type => ByteOrder.little.word 4 type.code := by
  intro bytes type rest
  rw [readType, bind_eq_ok_iff]
  constructor
  · intro ⟨⟨code, behind⟩, hword, h⟩
    obtain ⟨-, hbytes⟩ := (undoes_readWord 4 ..).1 hword
    cases hcode : ColumnType.ofCode? code with
    | none => simp [hcode, throw, throwThe, MonadExceptOf.throw] at h
    | some found =>
      simp only [hcode] at h
      cases h
      rw [ColumnType.ofCode?_eq_some_iff.1 hcode] at hbytes
      exact ⟨trivial, hbytes⟩
  · intro ⟨_, hbytes⟩
    refine ⟨(type.code, rest), (undoes_readWord 4 ..).2 ⟨type.code_lt, hbytes⟩, ?_⟩
    simp only [ColumnType.ofCode?_eq_some_iff.2 rfl]
    rfl

private theorem undoes_readFlag : Undoes readFlag (fun _ => True) fun flag => [flagByte flag] := by
  intro bytes flag rest
  cases bytes with
  | nil => simp [readFlag]
  | cons b behind =>
    rw [readFlag]
    by_cases hzero : b = 0
    · cases flag <;> simp [hzero, flagByte, eq_comm]
    · by_cases hone : b = 1
      · cases flag <;> simp [hone, flagByte, eq_comm]
      · cases flag <;> simp [hzero, hone, flagByte]

private theorem undoes_readColumn :
    Undoes readColumn (fun column => column.ordinal < Nat.pow 256 8) columnBytes := by
  intro bytes column rest
  simp only [readColumn, bind_eq_ok_iff, Prod.exists]
  constructor
  · intro ⟨type, afterType, htype, ordinal, afterOrdinal, hordinal, isKey, afterKey, hkey, nullable,
      afterNullable, hnullable, h⟩
    obtain ⟨-, rfl⟩ := (undoes_readType ..).1 htype
    obtain ⟨hlt, rfl⟩ := (undoes_readWord 8 ..).1 hordinal
    obtain ⟨-, rfl⟩ := (undoes_readFlag ..).1 hkey
    obtain ⟨-, rfl⟩ := (undoes_readFlag ..).1 hnullable
    cases h
    exact ⟨hlt, by simp [columnBytes]⟩
  · intro ⟨hlt, hbytes⟩
    obtain ⟨type, ordinal, isKey, nullable⟩ := column
    simp only [columnBytes, List.append_assoc] at hbytes
    exact ⟨_, _, (undoes_readType ..).2 ⟨trivial, hbytes⟩, _, _, (undoes_readWord 8 ..).2 ⟨hlt, rfl⟩,
      _, _, (undoes_readFlag ..).2 ⟨trivial, rfl⟩, _, _, (undoes_readFlag ..).2 ⟨trivial, rfl⟩, rfl⟩

private theorem undoes_readColumns (count : Nat) :
    Undoes (readColumns count)
      (fun columns => columns.length = count ∧ ∀ column ∈ columns, column.ordinal < Nat.pow 256 8)
      fun columns => columns.flatMap columnBytes := by
  intro bytes columns rest
  induction count generalizing bytes columns rest with
  | zero =>
    rw [readColumns]
    constructor
    · intro h
      cases h
      simp
    · intro ⟨⟨hlength, _⟩, hbytes⟩
      obtain rfl := List.length_eq_zero_iff.1 hlength
      rw [hbytes]
      rfl
  | succ count ih =>
    simp only [readColumns, bind_eq_ok_iff, Prod.exists]
    constructor
    · intro ⟨column, behind, hcolumn, others, behindAll, hothers, h⟩
      obtain ⟨hlt, rfl⟩ := (undoes_readColumn ..).1 hcolumn
      obtain ⟨⟨hlength, hall⟩, rfl⟩ := (ih ..).1 hothers
      cases h
      rw [List.length_cons, hlength, List.forall_mem_cons, List.flatMap_cons, List.append_assoc]
      exact ⟨⟨rfl, hlt, hall⟩, rfl⟩
    · intro ⟨⟨hlength, hall⟩, hbytes⟩
      obtain ⟨column, others, rfl⟩ := List.exists_cons_of_length_eq_add_one hlength
      rw [List.forall_mem_cons] at hall
      rw [List.flatMap_cons, List.append_assoc] at hbytes
      exact ⟨_, _, (undoes_readColumn ..).2 ⟨hall.1, hbytes⟩, _, _,
        (ih ..).2 ⟨⟨Nat.succ.inj hlength, hall.2⟩, rfl⟩, rfl⟩

/-- The columns behind their number are read just where they were written. Schemas
must fit their fields, which is all that `Storable` says. -/
theorem undoes_read : Undoes read Schema.Storable toBytes := by
  intro bytes columns rest
  simp only [read, bind_eq_ok_iff, Prod.exists]
  constructor
  · intro ⟨count, behind, hcount, hcolumns⟩
    obtain ⟨hlt, rfl⟩ := (undoes_readWord 8 ..).1 hcount
    obtain ⟨⟨rfl, hall⟩, rfl⟩ := (undoes_readColumns ..).1 hcolumns
    exact ⟨⟨hlt, hall⟩, by rw [toBytes, List.append_assoc]⟩
  · intro ⟨⟨hlt, hall⟩, hbytes⟩
    rw [toBytes, List.append_assoc] at hbytes
    exact ⟨_, _, (undoes_readWord 8 ..).2 ⟨hlt, hbytes⟩, (undoes_readColumns ..).2 ⟨⟨rfl, hall⟩, rfl⟩⟩

/-- What is stored is read as it was before, whatever stands behind it, and then
checked. The schema need not be a good one; if it is not, it is refused as if it had
been given directly. -/
theorem ofBytes_toBytes_append {columns : Schema} (hstorable : columns.Storable) (extra : Bytes) :
    ofBytes (toBytes columns ++ extra) = columns.check.map fun _ => columns := by
  rw [ofBytes, (undoes_read ..).2 ⟨hstorable, rfl⟩]

/-- Bytes that are read at all start with the bytes of one schema. Nothing is asked
of the bytes. -/
theorem ofBytes_cases (bytes : Bytes) :
    (∃ columns extra, columns.Storable ∧ bytes = toBytes columns ++ extra) ∨
      ∃ fault, ofBytes bytes = .error (.catalog fault) := by
  cases hread : read bytes with
  | ok found =>
    obtain ⟨columns, extra⟩ := found
    obtain ⟨hstorable, hbytes⟩ := (undoes_read ..).1 hread
    exact .inl ⟨columns, extra, hstorable, hbytes⟩
  | error fault =>
    right
    exact ⟨fault, by rw [ofBytes, hread]⟩

/-- No schema's bytes are a proper beginning of another's. Both schemas must fit
their fields. So bytes are those of one schema at most, whatever follows them. -/
theorem toBytes_prefix_inj {columns others : Schema} {extra : Bytes} (hstorable : columns.Storable)
    (hothers : others.Storable) (h : toBytes columns ++ extra = toBytes others) :
    columns = others ∧ extra = [] := by
  have hread := (undoes_read ..).2 ⟨hstorable, h.symm⟩
  have hwhole := (undoes_read (toBytes others) others []).2 ⟨hothers, (List.append_nil _).symm⟩
  rw [hread] at hwhole
  cases hwhole
  exact ⟨rfl, rfl⟩

/-- Stored bytes are read as a schema exactly if they start with the bytes of that
schema and it passes its check. If it does not pass, the fault of the check is the
answer; bytes that start with no schema's bytes, such as those of a schema cut
short, are no stored schema at all. What follows a schema's bytes makes no
difference. -/
theorem ofBytes_decided_by_start (bytes : Bytes) :
    (∀ columns, ofBytes bytes = .ok columns ↔
      columns.Storable ∧ columns.check = .ok () ∧ toBytes columns <+: bytes) ∧
    (∀ columns e, columns.Storable → toBytes columns <+: bytes → columns.check = .error e →
      ofBytes bytes = .error e ∧ e.kind = .invalidSchema) ∧
    ((∀ columns : Schema, columns.Storable → ¬toBytes columns <+: bytes) →
      ∃ fault, ofBytes bytes = .error (.catalog fault)) ∧
    (∀ columns : Schema, columns.Storable → bytes <+: toBytes columns → bytes ≠ toBytes columns →
      ∃ fault, ofBytes bytes = .error (.catalog fault)) ∧
    (∀ (columns : Schema) (extra : Bytes), columns.Storable → toBytes columns <+: bytes →
      ofBytes (bytes ++ extra) = ofBytes bytes) := by
  refine ⟨?_, ?_, ?_, ?_, ?_⟩
  · intro columns
    constructor
    · intro h
      obtain ⟨found, extra, hstorable, rfl⟩ | ⟨fault, hfault⟩ := ofBytes_cases bytes
      · rw [ofBytes_toBytes_append hstorable, map_eq_ok_iff] at h
        obtain ⟨⟨⟩, hcheck, rfl⟩ := h
        exact ⟨hstorable, hcheck, List.prefix_append ..⟩
      · rw [hfault] at h
        cases h
    · intro ⟨hstorable, hcheck, extra, hbytes⟩
      rw [← hbytes, ofBytes_toBytes_append hstorable, hcheck]
      rfl
  · intro columns e hstorable ⟨extra, hbytes⟩ hcheck
    rw [← hbytes, ofBytes_toBytes_append hstorable, hcheck]
    exact ⟨rfl, Schema.kind_of_check_eq_error hcheck⟩
  · intro hnone
    obtain ⟨columns, extra, hstorable, rfl⟩ | hfault := ofBytes_cases bytes
    · exact absurd (List.prefix_append ..) (hnone columns hstorable)
    · exact hfault
  · intro columns hstorable ⟨missing, hcut⟩ hproper
    obtain ⟨found, extra, hfound, rfl⟩ | hfault := ofBytes_cases bytes
    · rw [List.append_assoc] at hcut
      obtain ⟨rfl, hempty⟩ := toBytes_prefix_inj hfound hstorable hcut
      rw [(List.append_eq_nil_iff.1 hempty).1, List.append_nil] at hproper
      exact absurd rfl hproper
    · exact hfault
  · intro columns extra hstorable ⟨behind, hbytes⟩
    rw [← hbytes, List.append_assoc, ofBytes_toBytes_append hstorable,
      ofBytes_toBytes_append hstorable]

/-- A list outside the key and the same list in the key, both with a byte behind
them that is not looked at; a single byte; and a stored schema without its last
byte. -/
theorem ofBytes_decided_at_list_column :
    let plain : Schema := [{ type := .list .bool, ordinal := 0 }]
    let keyed : Schema := [{ type := .list .bool, ordinal := 0, isKey := true }]
    ofBytes (toBytes plain ++ [7]) = .ok plain ∧
      ofBytes (toBytes keyed ++ [7]) = .error (.listKey 0 (.list .bool)) ∧
      (∃ fault, ofBytes [1] = .error (.catalog fault)) ∧
      (∃ fault, ofBytes (toBytes plain).dropLast = .error (.catalog fault)) ∧
      ofBytes (toBytes plain ++ [7]) = ofBytes (toBytes plain) := by
  intro plain keyed
  have hplain : plain.Storable := by decide
  have hkeyed : keyed.Storable := by decide
  have hshort : ∀ columns : Schema, columns.Storable → ¬toBytes columns <+: [1] := by
    intro columns _ hprefix
    have hlength := hprefix.length_le
    rw [toBytes, List.length_append, ByteOrder.length_word, List.length_singleton] at hlength
    omega
  exact ⟨((ofBytes_decided_by_start _).1 plain).2 ⟨hplain, rfl, List.prefix_append ..⟩,
    ((ofBytes_decided_by_start _).2.1 keyed _ hkeyed (List.prefix_append ..) rfl).1,
    (ofBytes_decided_by_start _).2.2.1 hshort,
    (ofBytes_decided_by_start _).2.2.2.1 plain hplain (List.dropLast_prefix _) (by decide),
    (ofBytes_decided_by_start _).2.2.2.2 plain [7] hplain List.prefix_rfl⟩

end Catalog

end KeyedRows
