import KeyedRows.Proofs.Command.Outcome
import KeyedRows.Proofs.Number.Integer
import KeyedRows.Proofs.Text.Splitting

namespace KeyedRows.Command

/-- The long name of an option. -/
def ValuedOption.longName : ValuedOption → String
  | columns => "columns"
  | schemaFile => "schema-file"
  | commonId => "common-id"
  | schemaVersion => "schema-version"
  | tag => "prefix"
  | absentText => "null-token"

/-- The letter of an option that has one. -/
def ValuedOption.letter? : ValuedOption → Option Char
  | columns => some 'c'
  | tag => some 'p'
  | _ => none

/-- One option of a command line. -/
inductive Setting where
  | valued (option : ValuedOption) (text : String)
  | littleEndian
deriving DecidableEq

namespace Setting

/-- The arguments that an option can be written as. The value stands in an argument
of its own only if it does not look like an option there, which matters for all
options but the common id. -/
inductive Spells : Setting → List String → Prop where
  | attached (option : ValuedOption) (text : String) :
    Spells (.valued option text) ["--" ++ option.longName ++ "=" ++ text]
  | apart {option : ValuedOption} {text : String}
      (hplain : option.takesHyphen = true ∨ Argument.of text = .plain) :
    Spells (.valued option text) ["--" ++ option.longName, text]
  | letterAttached {option : ValuedOption} {letter : Char} (text : String)
      (hletter : option.letter? = some letter) :
    Spells (.valued option text) [String.ofList ('-' :: letter :: '=' :: text.toList)]
  | letterApart {option : ValuedOption} {text : String} {letter : Char}
      (hletter : option.letter? = some letter) (hplain : Argument.of text = .plain) :
    Spells (.valued option text) [String.ofList ['-', letter], text]
  | littleEndian : Spells .littleEndian ["--little-endian"]

end Setting

/-- Adds an option to those that are set already. Each can be set once. -/
def Draft.add? (draft : Draft) : Setting → Option Draft
  | .valued option text => draft.set? option text
  | .littleEndian =>
    if draft.littleEndian then none else some { draft with littleEndian := true }

private theorem of_eq_ofLong {text : String} {c : Char} {rest : List Char}
    (h : text.toList = '-' :: '-' :: c :: rest) : Argument.of text = Argument.ofLong (c :: rest) := by
  simp only [Argument.of, h]

private theorem of_eq_short {text : String} {letter : Char} {rest : List Char}
    (h : text.toList = '-' :: letter :: rest) (hletter : letter ≠ '-') :
    Argument.of text = .short letter rest := by
  unfold Argument.of
  rw [h]
  split <;> simp_all

private theorem ofLong_append {name : List Char} (hname : '=' ∉ name) (value : List Char) :
    Argument.ofLong (name ++ '=' :: value) =
      .long (String.ofList name) (some (String.ofList value)) := by
  have hall : ∀ c ∈ name, (c != '=') = true := by
    intro c hmem
    rw [bne_iff_ne]
    rintro rfl
    exact hname hmem
  rw [Argument.ofLong, List.takeWhile_append_of_pos hall, List.dropWhile_append_of_pos hall]
  simp

private theorem of_long (option : ValuedOption) :
    Argument.of ("--" ++ option.longName) = .long option.longName none := by
  cases option <;> decide

private theorem of_attached {name : String} {c : Char} {rest : List Char}
    (hsome : name.toList = c :: rest) (hname : '=' ∉ name.toList) (text : String) :
    Argument.of ("--" ++ name ++ "=" ++ text) = .long name (some text) := by
  have hlook := ofLong_append hname text.toList
  rw [String.ofList_toList, String.ofList_toList, hsome] at hlook
  rw [← hlook]
  exact of_eq_ofLong (by simp [hsome])

private theorem of_long_attached (option : ValuedOption) (text : String) :
    Argument.of ("--" ++ option.longName ++ "=" ++ text) = .long option.longName (some text) := by
  cases option <;> exact of_attached rfl (by decide) text

private theorem eq_columns_or_eq_tag {option : ValuedOption} {letter : Char}
    (h : option.letter? = some letter) :
    option = .columns ∧ letter = 'c' ∨ option = .tag ∧ letter = 'p' := by
  cases option <;> simp_all [ValuedOption.letter?, eq_comm]

/-- An option whose value stands in the next argument. -/
private theorem readArguments_pending (option : ValuedOption) {text : String}
    (hplain : option.takesHyphen = true ∨ Argument.of text = .plain) (draft : Draft)
    (rest : List String) :
    readArguments draft (some option) (text :: rest) =
      (draft.set? option text).bind fun draft => readArguments draft none rest := by
  have htaken : (option.takesHyphen || decide (Argument.of text = .plain)) = true := by
    simpa using hplain
  rw [readArguments]
  simp only [htaken, if_true]

/-- Reading an option, in whatever way it is written, sets it and goes on behind it.
The draft may hold anything; an option that is given twice is refused by
`Draft.add?`, on both sides. -/
theorem readArguments_of_spells {setting : Setting} {arguments : List String}
    (h : setting.Spells arguments) (draft : Draft) (rest : List String) :
    readArguments draft none (arguments ++ rest) =
      (draft.add? setting).bind fun draft => readArguments draft none rest := by
  cases h with
  | attached option text =>
    rw [List.singleton_append, readArguments]
    simp only [of_long_attached]
    cases option <;> rfl
  | @apart option text hplain =>
    have hnext := readArguments_pending option hplain draft rest
    rw [List.cons_append, List.singleton_append, readArguments]
    simp only [of_long]
    cases option <;> exact hnext
  | @letterAttached option letter text hletter =>
    have hlook : Argument.of (String.ofList ('-' :: letter :: '=' :: text.toList)) =
        .short letter ('=' :: text.toList) := by
      obtain ⟨-, rfl⟩ | ⟨-, rfl⟩ := eq_columns_or_eq_tag hletter <;>
        exact of_eq_short String.toList_ofList (by decide)
    have hvalue : Argument.attachedToLetter ('=' :: text.toList) = some text :=
      congrArg some String.ofList_toList
    rw [List.singleton_append, readArguments]
    simp only [hlook]
    obtain ⟨rfl, rfl⟩ | ⟨rfl, rfl⟩ := eq_columns_or_eq_tag hletter <;>
      simp [ValuedOption.short?, hvalue, Draft.add?]
  | @letterApart option text letter hletter hplain =>
    have hlook : Argument.of (String.ofList ['-', letter]) = .short letter [] := by
      obtain ⟨-, rfl⟩ | ⟨-, rfl⟩ := eq_columns_or_eq_tag hletter <;>
        exact of_eq_short String.toList_ofList (by decide)
    have hnext := readArguments_pending option (.inr hplain) draft rest
    rw [List.cons_append, List.singleton_append, readArguments]
    simp only [hlook]
    obtain ⟨rfl, rfl⟩ | ⟨rfl, rfl⟩ := eq_columns_or_eq_tag hletter <;> exact hnext
  | littleEndian =>
    have hlook : Argument.of "--little-endian" = .long "little-endian" none := by decide
    rw [List.singleton_append, readArguments, Draft.add?]
    simp only [hlook]
    cases draft.littleEndian <;> rfl

/-- Reading options sets them one after the other and goes on behind them. They may
stand in any order. -/
theorem readArguments_of_settings {settings : List Setting} {spelled : List (List String)}
    (h : List.Forall₂ Setting.Spells settings spelled) (draft : Draft) (rest : List String) :
    readArguments draft none (spelled.flatten ++ rest) =
      (settings.foldlM Draft.add? draft).bind fun draft => readArguments draft none rest := by
  induction h generalizing draft with
  | nil => rfl
  | @cons setting arguments settings spelled hspells _ ih =>
    rw [List.flatten_cons, List.append_assoc, readArguments_of_spells hspells, List.foldlM_cons]
    cases draft.add? setting with
    | none => rfl
    | some next => exact ih next

/-- The texts of a command that takes any number of them, as arguments. They may
stand behind two hyphens. Without these the first must not ask for help, and decides
that all others are taken as they are. -/
inductive SpellsTexts : List String → List String → Prop where
  | none : SpellsTexts [] []
  | separated (texts : List String) : SpellsTexts texts ("--" :: texts)
  | direct {first : String} (rest : List String)
      (hfirst : Argument.of first = .plain ∨
        ∃ letter letters, Argument.of first = .short letter letters ∧ letter ≠ 'h') :
      SpellsTexts (first :: rest) (first :: rest)

private theorem readTexts_of_spells {texts arguments : List String} (h : SpellsTexts texts arguments)
    (finish : List String → Reading) : readTexts finish arguments = finish texts := by
  cases h with
  | none => rfl
  | separated =>
    have hlook : Argument.of "--" = .separator := by decide
    rw [readTexts]
    simp only [hlook]
  | @direct first rest hfirst =>
    rw [readTexts]
    obtain hplain | ⟨letter, letters, hshort, hletter⟩ := hfirst
    · simp only [hplain]
    · simp only [hshort]
      split <;> simp_all

/-- Ordinals as one argument, separated by commas. -/
def ordinalsText (ordinals : List Nat) : String :=
  String.ofList ([','].intercalate (ordinals.map (Nat.toDigits 10)))

private theorem readOrdinals_ordinalsText {ordinals : List Nat} (hsome : ordinals ≠ [])
    (hlt : ∀ ordinal ∈ ordinals, ordinal < Nat.pow 2 64) :
    readOrdinals (ordinalsText ordinals) = some ordinals := by
  have hparts : (ordinalsText ordinals).toList.splitOn ',' = ordinals.map (Nat.toDigits 10) := by
    rw [Text.splitOn_eq_iff, ordinalsText, String.toList_ofList]
    refine ⟨by simpa using hsome, ?_, rfl⟩
    simp only [List.forall_mem_map]
    intro ordinal _ hmem
    exact absurd (Integer.isDigit_of_mem_toDigits ',' hmem) (by decide)
  rw [readOrdinals, hparts]
  clear hparts hsome
  induction ordinals with
  | nil => rfl
  | cons ordinal ordinals ih =>
    rw [List.forall_mem_cons] at hlt
    have hfirst : Integer.parseUnsigned signBit64 (Nat.toDigits 10 ordinal) = .ok ordinal :=
      Integer.parseUnsigned_toDigits (Nat.le_sub_one_of_lt hlt.1)
    rw [List.map_cons, List.mapM_cons, ih hlt.2]
    simp only [hfirst]
    rfl

private theorem of_eq_plain {text : String} {c : Char} {rest : List Char}
    (h : text.toList = c :: rest) (hc : c ≠ '-') : Argument.of text = .plain := by
  unfold Argument.of
  rw [h]
  split <;> simp_all

private theorem of_ordinalsText {ordinals : List Nat} (hsome : ordinals ≠ []) :
    Argument.of (ordinalsText ordinals) = .plain := by
  obtain ⟨first, others, rfl⟩ := List.exists_cons_of_ne_nil hsome
  obtain ⟨c, digits, hdigits⟩ := List.exists_cons_of_ne_nil (Nat.toDigits_ne_nil (n := first) (b := 10))
  have hdigit : c.isDigit = true := Integer.isDigit_of_mem_toDigits c (hdigits ▸ List.mem_cons_self)
  have htext : (ordinalsText (first :: others)).toList =
      c :: [','].intercalate (digits :: others.map (Nat.toDigits 10)) := by
    rw [ordinalsText, String.toList_ofList, List.map_cons, hdigits, List.intercalate_cons_cons_left]
  refine of_eq_plain htext ?_
  rintro rfl
  cases hdigit

/-- One part of what the command is told that reads a row. -/
inductive DecodePart where
  | plain (text : String)
  | select (ordinals : List Nat)

namespace DecodePart

/-- The arguments that a part can be written as. A selection names at least one
ordinal. -/
inductive Spells : DecodePart → List String → Prop where
  | plain {text : String} (hplain : Argument.of text = .plain) : Spells (.plain text) [text]
  | attached {ordinals : List Nat} (hsome : ordinals ≠ [])
      (hlt : ∀ ordinal ∈ ordinals, ordinal < Nat.pow 2 64) :
    Spells (.select ordinals) ["--" ++ "select" ++ "=" ++ ordinalsText ordinals]
  | apart {ordinals : List Nat} (hsome : ordinals ≠ [])
      (hlt : ∀ ordinal ∈ ordinals, ordinal < Nat.pow 2 64) :
    Spells (.select ordinals) ["--select", ordinalsText ordinals]

end DecodePart

/-- Adds a part to those that are there. -/
def DecodeDraft.addPart? (draft : DecodeDraft) : DecodePart → Option DecodeDraft
  | .plain text => draft.add? text
  | .select ordinals => some { draft with selected := draft.selected ++ ordinals, pending := false }

/-- Whether any further argument may still be an option. -/
structure DecodeDraft.Open (draft : DecodeDraft) : Prop where
  pending_eq : draft.pending = false
  plainOnly_eq : draft.plainOnly = false

private theorem DecodeDraft.open_of_addPart? {part : DecodePart} {draft next : DecodeDraft}
    (hopen : draft.Open) (h : draft.addPart? part = some next) : next.Open := by
  cases part with
  | plain text =>
    rw [addPart?, add?] at h
    split at h
    · cases h
      exact ⟨hopen.pending_eq, hopen.plainOnly_eq⟩
    · cases h
  | select ordinals =>
    cases h
    exact ⟨rfl, hopen.plainOnly_eq⟩

private theorem DecodeDraft.open_of_foldlM {parts : List DecodePart} {draft last : DecodeDraft}
    (hopen : draft.Open) (h : parts.foldlM addPart? draft = some last) : last.Open := by
  induction parts generalizing draft with
  | nil =>
    cases h
    exact hopen
  | cons part parts ih =>
    rw [List.foldlM_cons] at h
    obtain ⟨next, hnext, hrest⟩ := Option.bind_eq_some_iff.1 h
    exact ih (open_of_addPart? hopen hnext) hrest

/-- Reading a part, in whatever way it is written, adds it and goes on behind it.
The draft must be open: no option waits for more ordinals, and options are still
looked for. -/
theorem readDecode_of_spells {part : DecodePart} {arguments : List String}
    (h : part.Spells arguments) (options : Draft) {draft : DecodeDraft} (hopen : draft.Open)
    (rest : List String) :
    readDecode options draft (arguments ++ rest) =
      (draft.addPart? part).bind fun draft => readDecode options draft rest := by
  obtain ⟨plain, selected, pending, plainOnly⟩ := draft
  obtain ⟨rfl, rfl⟩ := hopen
  cases h with
  | plain hplain =>
    rw [List.singleton_append, readDecode]
    simp only [hplain]
    rfl
  | @attached ordinals hsome hlt =>
    have hlook : Argument.of ("--" ++ "select" ++ "=" ++ ordinalsText ordinals) =
        .long "select" (some (ordinalsText ordinals)) :=
      of_attached rfl (by decide) (ordinalsText ordinals)
    rw [List.singleton_append, readDecode]
    simp only [hlook, DecodeDraft.select?, readOrdinals_ordinalsText hsome hlt]
    rfl
  | @apart ordinals hsome hlt =>
    have hlook : Argument.of "--select" = .long "select" none := by decide
    have hplain := of_ordinalsText hsome
    rw [List.cons_append, List.singleton_append, readDecode]
    simp only [hlook]
    rw [readDecode]
    simp only [hplain, DecodeDraft.select?, readOrdinals_ordinalsText hsome hlt]
    rfl

private theorem readDecode_of_parts {parts : List DecodePart} {spelled : List (List String)}
    (h : List.Forall₂ DecodePart.Spells parts spelled) (options : Draft) {draft : DecodeDraft}
    (hopen : draft.Open) (rest : List String) :
    readDecode options draft (spelled.flatten ++ rest) =
      (parts.foldlM DecodeDraft.addPart? draft).bind fun draft => readDecode options draft rest := by
  induction h generalizing draft with
  | nil => rfl
  | @cons part arguments parts spelled hspells _ ih =>
    rw [List.flatten_cons, List.append_assoc, readDecode_of_spells hspells options hopen,
      List.foldlM_cons]
    cases hnext : draft.addPart? part with
    | none => rfl
    | some next => exact ih (DecodeDraft.open_of_addPart? hopen hnext)

/-- The arguments that a command can be written as. Plain arguments of the command
that reads a row may also stand behind two hyphens, as may the path of a schema that
is to be stored. -/
inductive Action.Spells : Action → List String → Prop where
  | encode {texts arguments : List String} (htexts : SpellsTexts texts arguments) :
    Spells (.encode texts) ("encode" :: arguments)
  | bounds {texts arguments : List String} (htexts : SpellsTexts texts arguments) :
    Spells (.bounds texts) ("bounds" :: arguments)
  | decode {parts : List DecodePart} {spelled : List (List String)} {draft : DecodeDraft}
      {key value : String} (hparts : List.Forall₂ DecodePart.Spells parts spelled)
      (hdraft : parts.foldlM DecodeDraft.addPart? {} = some draft) (hplain : draft.plain = [key, value]) :
    Spells (.decode key value draft.selected) ("decode" :: spelled.flatten)
  | decodePlain {parts : List DecodePart} {spelled : List (List String)} {draft : DecodeDraft}
      (key value : String) (hparts : List.Forall₂ DecodePart.Spells parts spelled)
      (hdraft : parts.foldlM DecodeDraft.addPart? {} = some draft) (hplain : draft.plain = []) :
    Spells (.decode key value draft.selected) ("decode" :: spelled.flatten ++ ["--", key, value])
  | schema {path : String} (hsome : path ≠ "") (hplain : Argument.of path = .plain) :
    Spells (.schema path) ["schema", path]
  | schemaPlain {path : String} (hsome : path ≠ "") : Spells (.schema path) ["schema", "--", path]

private theorem Action.exists_readAction? {action : Action} {arguments : List String}
    (h : action.Spells arguments) (draft : Draft) :
    ∃ name rest, arguments = name :: rest ∧ Argument.of name = .plain ∧
      readAction? draft name rest = some (request draft action) := by
  have hempty : DecodeDraft.Open {} := ⟨rfl, rfl⟩
  cases h with
  | encode htexts =>
    refine ⟨_, _, rfl, by decide, ?_⟩
    rw [readAction?, readTexts_of_spells htexts]
  | bounds htexts =>
    refine ⟨_, _, rfl, by decide, ?_⟩
    rw [readAction?, readTexts_of_spells htexts]
  | @decode parts spelled found key value hparts hdraft hplain =>
    refine ⟨_, _, rfl, by decide, ?_⟩
    have hread := readDecode_of_parts hparts draft hempty []
    have hopen := DecodeDraft.open_of_foldlM hempty hdraft
    rw [List.append_nil, hdraft, Option.bind_some, readDecode] at hread
    simp only [hopen.pending_eq, hplain] at hread
    rw [readAction?, hread]
  | @decodePlain parts spelled found key value hparts hdraft hplain =>
    refine ⟨_, _, rfl, by decide, ?_⟩
    have hread := readDecode_of_parts hparts draft hempty ["--", key, value]
    have hopen := DecodeDraft.open_of_foldlM hempty hdraft
    have hlook : Argument.of "--" = .separator := by decide
    rw [hdraft, Option.bind_some, readDecode] at hread
    simp only [hopen.pending_eq, hopen.plainOnly_eq, hlook] at hread
    rw [readAction?, List.append_eq, hread]
    simp [DecodeDraft.add?, hplain, readDecode]
  | schema hsome hplain =>
    refine ⟨_, _, rfl, by decide, ?_⟩
    simp [readAction?, readPath, hplain, hsome]
  | schemaPlain hsome =>
    have hlook : Argument.of "--" = .separator := by decide
    refine ⟨_, _, rfl, by decide, ?_⟩
    simp [readAction?, readPath, hlook, hsome]

/-- A command line asks for what its arguments spell: options in any order, each
written in any of its ways and given once, and then a command. That options are
given at most once, and leave a schema to work with, is what the two hypotheses
about the draft say. -/
theorem Request.of?_of_spells {settings : List Setting} {spelled : List (List String)} {draft : Draft}
    {options : Options} {action : Action} {arguments : List String}
    (hsettings : List.Forall₂ Setting.Spells settings spelled)
    (hdraft : settings.foldlM Draft.add? {} = some draft)
    (hoptions : draft.options? = some options) (haction : action.Spells arguments) :
    Request.of? (spelled.flatten ++ arguments) = some (.run ⟨options, action⟩) := by
  obtain ⟨name, rest, rfl, hplain, hread⟩ := Action.exists_readAction? haction draft
  rw [of?, readArguments_of_settings hsettings, hdraft, Option.bind_some, readArguments]
  simp only [hplain, hread]
  simp [request, hoptions]

/-- A command line does what its arguments spell. What holds of invocations holds of
command lines. This needs nothing of the files nor of the form of hexadecimal text. -/
theorem execute_of_spells {m : Type → Type} [Monad m] (hex : HexForm) (files : Files m)
    {settings : List Setting} {spelled : List (List String)} {draft : Draft} {options : Options}
    {action : Action} {arguments : List String}
    (hsettings : List.Forall₂ Setting.Spells settings spelled)
    (hdraft : settings.foldlM Draft.add? {} = some draft)
    (hoptions : draft.options? = some options) (haction : action.Spells arguments) :
    execute hex files (spelled.flatten ++ arguments) =
      Invocation.outcome hex files ⟨options, action⟩ := by
  rw [execute, Request.of?_of_spells hsettings hdraft hoptions haction]

/-- The options of a command line, each of them given. -/
def Options.settings (options : Options) : List Setting :=
  [match options.source with
    | .spec text => .valued .columns text
    | .file path => .valued .schemaFile path,
    .valued .commonId (String.ofList (Integer.render options.commonId.toInt)),
    .valued .schemaVersion (String.ofList (Integer.render options.schemaVersion.toInt)),
    .valued .tag (String.singleton options.tag), .valued .absentText options.absentText] ++
    if options.littleEndian then [.littleEndian] else []

private theorem Options.exists_draft (options : Options) (hpath : options.source ≠ .file "") :
    ∃ draft, options.settings.foldlM Draft.add? {} = some draft ∧
      draft.options? = some options := by
  have hid : Integer.parse signBit64 (Integer.render options.commonId.toInt) =
      .ok options.commonId.toInt :=
    Integer.parse_render options.commonId.le_toInt options.commonId.toInt_lt
  have hversion : Integer.parse signBit32 (Integer.render options.schemaVersion.toInt) =
      .ok options.schemaVersion.toInt :=
    Integer.parse_render options.schemaVersion.le_toInt options.schemaVersion.toInt_lt
  obtain ⟨source, commonId, schemaVersion, tag, littleEndian, absentText⟩ := options
  cases source with
  | spec text =>
    cases littleEndian <;>
      simp [settings, Draft.add?, Draft.set?, hid, hversion, Draft.options?]
  | file path =>
    have hsome : path ≠ "" := by simpa using hpath
    cases littleEndian <;>
      simp [settings, Draft.add?, Draft.set?, hid, hversion, Draft.options?, hsome]

/-- The arguments of an option with its value attached. -/
def Setting.attached : Setting → List String
  | valued option text => ["--" ++ option.longName ++ "=" ++ text]
  | littleEndian => ["--little-endian"]

private theorem Setting.spells_attached (setting : Setting) : setting.Spells setting.attached := by
  cases setting with
  | valued option text => exact .attached option text
  | littleEndian => exact .littleEndian

/-- Every invocation can be asked for. Paths must not be empty, and ordinals that
are selected must fit a machine word. Tag characters and texts may be any, those
that look like options included. -/
theorem Request.exists_arguments (invocation : Invocation)
    (hsource : invocation.options.source ≠ .file "") (hpath : invocation.action ≠ .schema "")
    (hselect : ∀ key value selected, invocation.action = .decode key value selected →
      ∀ ordinal ∈ selected, ordinal < Nat.pow 2 64) :
    ∃ arguments, Request.of? arguments = some (.run invocation) := by
  obtain ⟨options, action⟩ := invocation
  obtain ⟨draft, hdraft, hoptions⟩ := options.exists_draft hsource
  have hspelled : List.Forall₂ Setting.Spells options.settings
      (options.settings.map Setting.attached) := by
    rw [List.forall₂_map_right_iff, List.forall₂_same]
    exact fun setting _ => setting.spells_attached
  obtain ⟨arguments, harguments⟩ : ∃ arguments, action.Spells arguments := by
    cases action with
    | encode texts => exact ⟨_, .encode (.separated texts)⟩
    | bounds texts => exact ⟨_, .bounds (.separated texts)⟩
    | decode key value selected =>
      cases selected with
      | nil => exact ⟨_, .decodePlain key value .nil rfl rfl⟩
      | cons ordinal others =>
        have hspells := DecodePart.Spells.attached (List.cons_ne_nil ordinal others)
          (hselect key value _ rfl)
        exact ⟨_, .decodePlain key value (.cons hspells .nil) rfl rfl⟩
    | schema path => exact ⟨_, .schemaPlain (by simpa using hpath)⟩
  exact ⟨_, of?_of_spells hspelled hdraft hoptions harguments⟩

end KeyedRows.Command
