import KeyedRows.Proofs.Error.Outcome
import KeyedRows.Proofs.Schema.Spelling
import Mathlib.Data.List.Induction

namespace KeyedRows

attribute [ext] Column

namespace Schema

variable {column : Column} {entry : List Char} {place : Nat} {type : ColumnType} {flags : List ColumnFlag}
  {e : Error}

/-- The column at a place with a type and flags. -/
def described (place : Nat) (type : ColumnType) (flags : List ColumnFlag) : Column :=
  flags.foldl ColumnFlag.apply { type, ordinal := place }

private theorem described_concat (flag : ColumnFlag) :
    described place type (flags ++ [flag]) = flag.apply (described place type flags) :=
  List.foldl_concat ..

-- Flags are set from the front and the last one has the last word, so the inductions take them off the end.

/-- Flags do not change the type. -/
theorem described_type : (described place type flags).type = type := by
  induction flags using List.reverseRecOn with
  | nil => rfl
  | append_singleton flags flag ih =>
    rw [described_concat]
    cases flag <;> exact ih

private theorem described_ordinal : (described place type flags).ordinal = place := by
  induction flags using List.reverseRecOn with
  | nil => rfl
  | append_singleton flags flag ih =>
    rw [described_concat]
    cases flag <;> exact ih

/-- A column is part of the key exactly if one of its flags says so, wherever it
stands. -/
theorem described_isKey : (described place type flags).isKey = true ↔ .key ∈ flags := by
  induction flags using List.reverseRecOn with
  | nil => simp [described]
  | append_singleton flags flag ih =>
    rw [described_concat]
    cases flag <;> simp [ColumnFlag.apply, ih]

private theorem described_nullable : (described place type flags).nullable = true ↔
    (flags.filter (· ≠ .key)).getLast? = none ∨
      (flags.filter (· ≠ .key)).getLast? = some .null := by
  induction flags using List.reverseRecOn with
  | nil => simp [described]
  | append_singleton flags flag ih =>
    rw [described_concat, List.filter_append]
    cases flag with
    | key => simpa [ColumnFlag.apply] using ih
    | null | notNull => simp [ColumnFlag.apply]

/-- An entry describes a column exactly if it gives a type and flags from which the
column is made, flag by flag. The last of the flags for absent values decides. -/
theorem describesColumn_iff : DescribesColumn entry place column ↔
    ∃ type flags, Describes entry type flags ∧ described place type flags = column := by
  constructor
  · rintro ⟨flags, hentry, hordinal, hkey, hnullable⟩
    refine ⟨column.type, flags, hentry, ?_⟩
    ext1
    · exact described_type
    · rw [described_ordinal, hordinal]
    · exact Bool.eq_iff_iff.2 (described_isKey.trans hkey.symm)
    · exact Bool.eq_iff_iff.2 (described_nullable.trans hnullable.symm)
  · rintro ⟨type, flags, hentry, rfl⟩
    exact ⟨flags, described_type.symm ▸ hentry, described_ordinal, described_isKey, described_nullable⟩

/-- An entry that describes something is no empty text. -/
theorem Describes.ne_nil (h : Describes entry type flags) : entry ≠ [] := by
  obtain ⟨typeText, flagTexts, rfl, hfree, hspelled, -⟩ := h
  intro hempty
  have hparts := Text.splitOn_eq_iff.2 ⟨List.cons_ne_nil typeText flagTexts, hfree, hempty⟩
  rw [List.splitOn_nil] at hparts
  cases hparts
  have hnone : ColumnType.named? (Text.folded []) = none := rfl
  rw [ColumnType.named?_eq_some_iff.2 hspelled] at hnone
  cases hnone

/-- What goes wrong in reading an entry, as opposed to the columns taken together. -/
def EntryFailure (e : Error) : Prop :=
  e.kind = .invalidSchema ∧ ∀ ordinal type, e ≠ .listKey ordinal type

private theorem readFlags_cons_of_named {start : Column} {part : List Char} {rest : List (List Char)}
    {flag : ColumnFlag} (h : ColumnFlag.named? (Text.folded part) = some flag) :
    readFlags entry start (part :: rest) = readFlags entry (flag.apply start) rest := by
  rw [Text.folded] at h
  rw [readFlags]
  simp only [h]

private theorem readFlags_cons_of_unnamed {start : Column} {part : List Char} {rest : List (List Char)}
    (h : ColumnFlag.named? (Text.folded part) = none) : readFlags entry start (part :: rest) =
      .error (.unknownFlag (String.ofList (Text.folded part)) (String.ofList entry)) := by
  rw [Text.folded] at h ⊢
  rw [readFlags]
  simp only [h]

/-- Flags are read if each of them is known, and are set one after the other. Flags
may be repeated and may contradict each other. -/
theorem readFlags_eq_ok_iff {start : Column} {parts : List (List Char)} :
    readFlags entry start parts = .ok column ↔
      ∃ flags : List ColumnFlag, parts.map Text.folded = flags.map (·.name.toList) ∧
        flags.foldl ColumnFlag.apply start = column := by
  induction parts generalizing start with
  | nil =>
    constructor
    · intro h
      exact ⟨[], rfl, Except.ok.inj h⟩
    · rintro ⟨flags, hnames, rfl⟩
      rw [List.map_eq_nil_iff.1 hnames.symm]
      rfl
  | cons part rest ih =>
    constructor
    · intro h
      cases hfound : ColumnFlag.named? (Text.folded part) with
      | none =>
        rw [readFlags_cons_of_unnamed hfound] at h
        cases h
      | some flag =>
        rw [readFlags_cons_of_named hfound, ih] at h
        obtain ⟨flags, hnames, hcolumn⟩ := h
        refine ⟨flag :: flags, ?_, hcolumn⟩
        rw [List.map_cons, List.map_cons, hnames, ColumnFlag.named?_eq_some_iff.1 hfound]
    · rintro ⟨flags, hnames, hcolumn⟩
      rw [List.map_cons] at hnames
      obtain ⟨flag, others, rfl, hname, hrest⟩ := List.map_eq_cons_iff.1 hnames.symm
      rw [readFlags_cons_of_named (ColumnFlag.named?_eq_some_iff.2 hname.symm), ih]
      exact ⟨others, hrest.symm, hcolumn⟩

private theorem entryFailure_of_readFlags {start : Column} {parts : List (List Char)}
    (h : readFlags entry start parts = .error e) : EntryFailure e := by
  induction parts generalizing start with
  | nil => cases h
  | cons part rest ih =>
    cases hfound : ColumnFlag.named? (Text.folded part) with
    | none =>
      rw [readFlags_cons_of_unnamed hfound] at h
      cases h
      exact ⟨rfl, nofun⟩
    | some flag =>
      rw [readFlags_cons_of_named hfound] at h
      exact ih h

/-- An entry is read as the column that it describes. The entry may be any text, and
the place any number. -/
theorem readEntry_eq_ok_iff :
    readEntry place entry = .ok column ↔ DescribesColumn entry place column := by
  rw [describesColumn_iff]
  constructor
  · intro h
    rw [readEntry] at h
    split at h
    · cases h
    · split at h
      · cases h
      · rename_i typeText flagTexts hparts
        split at h
        · cases h
        · rename_i type htype
          obtain ⟨flags, hnames, hcolumn⟩ := readFlags_eq_ok_iff.1 h
          obtain ⟨-, hfree, hentry⟩ := Text.splitOn_eq_iff.1 hparts
          exact ⟨type, flags, ⟨typeText, flagTexts, hentry.symm, hfree,
            ColumnType.named?_eq_some_iff.1 htype, hnames⟩, hcolumn⟩
  · rintro ⟨type, flags, hdescribes, hcolumn⟩
    have hsome := hdescribes.ne_nil
    obtain ⟨typeText, flagTexts, hentry, hfree, hspelled, hnames⟩ := hdescribes
    have hparts := Text.splitOn_eq_iff.2 ⟨List.cons_ne_nil typeText flagTexts, hfree, hentry.symm⟩
    have htype : ColumnType.parse? typeText = some type := ColumnType.named?_eq_some_iff.2 hspelled
    rw [readEntry, if_neg (mt List.isEmpty_iff.1 hsome), hparts]
    simp only [htype]
    exact readFlags_eq_ok_iff.2 ⟨flags, hnames, hcolumn⟩

/-- What goes wrong in an entry is the schema's fault, but never a list in the key,
which is only found once all entries are read. -/
theorem entryFailure_of_readEntry (h : readEntry place entry = .error e) : EntryFailure e := by
  rw [readEntry] at h
  split at h
  · cases h
    exact ⟨rfl, nofun⟩
  · split at h
    · cases h
      exact ⟨rfl, nofun⟩
    · split at h
      · cases h
        exact ⟨rfl, nofun⟩
      · exact entryFailure_of_readFlags h

/-- The flags that a description names. -/
def flagsOf (column : Column) : List ColumnFlag :=
  (if column.isKey then [.key] else []) ++ (if column.nullable then [] else [.notNull])

private theorem describeColumn_eq_intercalate : describeColumn column =
    [':'].intercalate (column.type.name.toList :: (flagsOf column).map (·.name.toList)) := by
  rw [describeColumn, flagsOf]
  cases column.isKey <;> cases column.nullable <;> simp [List.intercalate, ColumnFlag.name]

/-- Whether a character is neither blank nor what separates columns or flags. -/
def isPlain (c : Char) : Bool :=
  !Text.isBlank c && c != ':' && c != ','

private theorem isPlain_iff {c : Char} : isPlain c = true ↔ Text.isBlank c = false ∧ c ≠ ':' ∧ c ≠ ',' := by
  simp [isPlain, and_assoc]

/-- A type's name is a plain spelling of the type. -/
theorem name_spelled (type : ColumnType) :
    type.Spelled (Text.folded type.name.toList) ∧ type.name.toList.all isPlain = true := by
  have hall : ∀ type ∈ ColumnType.all, ColumnType.named? (Text.folded type.name.toList) = some type ∧
      type.name.toList.all isPlain = true := by
    decide +kernel
  rw [← ColumnType.named?_eq_some_iff]
  exact hall type type.mem_all

/-- A flag's name is plain and stays as it is when it is looked up. -/
theorem flagName_folded (flag : ColumnFlag) :
    Text.folded flag.name.toList = flag.name.toList ∧ flag.name.toList.all isPlain = true := by
  cases flag <;> decide +kernel

private theorem describes_describeColumn (column : Column) :
    Describes (describeColumn column) column.type (flagsOf column) := by
  refine ⟨_, _, describeColumn_eq_intercalate, ?_, (name_spelled column.type).1, ?_⟩
  · have hplain : ∀ part ∈ column.type.name.toList :: (flagsOf column).map (·.name.toList),
        part.all isPlain = true := by
      rw [List.forall_mem_cons, List.forall_mem_map]
      exact ⟨(name_spelled column.type).2, fun flag _ => (flagName_folded flag).2⟩
    intro part hpart hcolon
    exact (isPlain_iff.1 (List.all_eq_true.1 (hplain part hpart) ':' hcolon)).2.1 rfl
  · rw [List.map_map]
    exact List.map_congr_left fun flag _ => (flagName_folded flag).1

/-- A column is described by its description, wherever it stands. Nothing is asked
of the column: a list in the key is described as well, and only refused later. -/
theorem describesColumn_describeColumn (column : Column) :
    DescribesColumn (describeColumn column) column.ordinal column := by
  refine ⟨flagsOf column, describes_describeColumn column, rfl, ?_, ?_⟩
  · rw [flagsOf]
    cases column.isKey <;> cases column.nullable <;> simp
  · rw [flagsOf]
    cases column.isKey <;> cases column.nullable <;> simp

/-- A column's description has neither blanks nor commas in it. So the entries of a
description are found again by cutting at commas, and trimming them does nothing. -/
theorem describeColumn_plain {c : Char} (hmem : c ∈ describeColumn column) :
    Text.isBlank c = false ∧ c ≠ ',' := by
  have hflag : ∀ flag : ColumnFlag, c ∈ ':' :: flag.name.toList → Text.isBlank c = false ∧ c ≠ ',' := by
    intro flag hmem
    obtain rfl | hname := List.mem_cons.1 hmem
    · decide
    · exact (isPlain_iff.1 (List.all_eq_true.1 (flagName_folded flag).2 c hname)).imp_right And.right
  rw [describeColumn, List.mem_append, List.mem_append] at hmem
  obtain (hname | hkey) | hnotNull := hmem
  · exact (isPlain_iff.1 (List.all_eq_true.1 (name_spelled column.type).2 c hname)).imp_right And.right
  · split at hkey
    · exact hflag .key hkey
    · cases hkey
  · split at hnotNull
    · cases hnotNull
    · exact hflag .notNull hnotNull

end Schema

end KeyedRows
