import KeyedRows.Number.Integer

namespace KeyedRows.Command

/-- Where a schema comes from. -/
inductive SchemaSource where
  /-- A text of column descriptions. -/
  | spec (text : String)
  /-- A file of stored bytes. -/
  | file (path : String)
deriving DecidableEq, Repr

/-- What holds for every command. -/
structure Options where
  source : SchemaSource
  commonId : Int64 := 0
  schemaVersion : Int32 := 0
  /-- The character of the tag byte. -/
  tag : Char := 'r'
  littleEndian : Bool := false
  /-- The text that stands for an absent value. -/
  absentText : String := "\\N"
deriving DecidableEq

/-- What to do. -/
inductive Action where
  /-- Write the row that texts spell, one for each ordinal. -/
  | encode (texts : List String)
  /-- Read the row behind a key and a value in hexadecimal form, all of it if
  nothing is selected. -/
  | decode (key value : String) (selected : List Nat)
  /-- Give the bounds of a scan over the keys that start with values spelled by
  texts. -/
  | bounds (texts : List String)
  /-- Store the schema in a file. -/
  | schema (path : String)
deriving DecidableEq, Repr

/-- A command with its options. -/
structure Invocation where
  options : Options
  action : Action
deriving DecidableEq

/-- What a command line asks for. -/
inductive Request where
  | run (invocation : Invocation)
  | version
  | help
deriving DecidableEq

/-- The options that take a value. -/
inductive ValuedOption where
  | columns
  | schemaFile
  | commonId
  | schemaVersion
  | tag
  | absentText
deriving DecidableEq, Repr

namespace ValuedOption

/-- The option with a long name. -/
def long? : String → Option ValuedOption
  | "columns" => some columns
  | "schema-file" => some schemaFile
  | "common-id" => some commonId
  | "schema-version" => some schemaVersion
  | "prefix" => some tag
  | "null-token" => some absentText
  | _ => none

/-- The option with a letter. -/
def short? : Char → Option ValuedOption
  | 'c' => some columns
  | 'p' => some tag
  | _ => none

/-- Whether the next argument is taken as the value even if it looks like an option. -/
def takesHyphen : ValuedOption → Bool
  | commonId => true
  | _ => false

end ValuedOption

/-- What the options read so far say. -/
structure Draft where
  columns : Option String := none
  schemaFile : Option String := none
  commonId : Option Int64 := none
  schemaVersion : Option Int32 := none
  tag : Option Char := none
  littleEndian : Bool := false
  absentText : Option String := none
deriving DecidableEq

namespace Draft

/-- Sets an option that is not set yet. A number must be in range, a tag one
character, and a path not empty. -/
def set? (draft : Draft) (option : ValuedOption) (text : String) : Option Draft :=
  match option with
  | .columns => if draft.columns.isSome then none else some { draft with columns := some text }
  | .schemaFile =>
    if draft.schemaFile.isSome || text.isEmpty then none
    else some { draft with schemaFile := some text }
  | .commonId =>
    match draft.commonId, Integer.parse signBit64 text.toList with
    | none, .ok n => some { draft with commonId := some (Int64.ofInt n) }
    | _, _ => none
  | .schemaVersion =>
    match draft.schemaVersion, Integer.parse signBit32 text.toList with
    | none, .ok n => some { draft with schemaVersion := some (Int32.ofInt n) }
    | _, _ => none
  | .tag =>
    match draft.tag, text.toList with
    | none, [c] => some { draft with tag := some c }
    | _, _ => none
  | .absentText =>
    if draft.absentText.isSome then none else some { draft with absentText := some text }

/-- The options as read. The schema comes from a text or from a file, not from both. -/
def options? (draft : Draft) : Option Options :=
  let source? : Option SchemaSource :=
    match draft.columns, draft.schemaFile with
    | some text, none => some (.spec text)
    | none, some path => some (.file path)
    | _, _ => none
  source?.map fun source =>
    { source
      commonId := draft.commonId.getD 0
      schemaVersion := draft.schemaVersion.getD 0
      tag := draft.tag.getD 'r'
      littleEndian := draft.littleEndian
      absentText := draft.absentText.getD "\\N" }

end Draft

/-- The look of an argument. -/
inductive Argument where
  /-- Two hyphens: all that follows is plain. -/
  | separator
  /-- Two hyphens and a name, and what is attached to it behind an equals sign. -/
  | long (name : String) (attached : Option String)
  /-- A hyphen, a letter and what follows it. -/
  | short (letter : Char) (rest : List Char)
  | plain
deriving DecidableEq, Repr

namespace Argument

/-- Splits a long option at its first equals sign. -/
def ofLong (text : List Char) : Argument :=
  let name := text.takeWhile (· != '=')
  match text.dropWhile (· != '=') with
  | [] => long (String.ofList name) none
  | _ :: value => long (String.ofList name) (some (String.ofList value))

/-- The look of an argument. A single hyphen is plain. -/
def of (text : String) : Argument :=
  match text.toList with
  | ['-', '-'] => separator
  | '-' :: '-' :: rest => ofLong rest
  | '-' :: letter :: rest => short letter rest
  | _ => plain

/-- What is attached to the letter of an option, with or without an equals sign. -/
def attachedToLetter : List Char → Option String
  | [] => none
  | '=' :: rest => some (String.ofList rest)
  | rest => some (String.ofList rest)

end Argument

/-- The request that a reading ends in, or nothing if the arguments are rejected. -/
abbrev Reading := Option Request

/-- A command behind its options. -/
def request (draft : Draft) (action : Action) : Reading :=
  draft.options?.map fun options => .run { options, action }

/-- Reads the texts of a command that takes any number of them. From the first text
on all arguments are taken as they are. -/
def readTexts (finish : List String → Reading) : List String → Reading
  | [] => finish []
  | text :: rest =>
    match Argument.of text with
    | .separator => finish rest
    | .long "help" attached => if attached.isNone then some .help else none
    | .short 'h' letters =>
      if letters.all (· == 'h') then some .help else finish (text :: rest)
    | _ => finish (text :: rest)

/-- Reads ordinals separated by commas. -/
def readOrdinals (text : String) : Option (List Nat) :=
  (text.toList.splitOn ',').mapM fun part =>
    match Integer.parseUnsigned signBit64 part with
    | .ok n => some n
    | .error _ => none

/-- The arguments of the command that reads a row, as far as they are read. -/
structure DecodeDraft where
  plain : List String := []
  selected : List Nat := []
  /-- An option has been read and its value has not. -/
  pending : Bool := false
  /-- All further arguments are plain. -/
  plainOnly : Bool := false
deriving DecidableEq

namespace DecodeDraft

/-- Adds a selection. -/
def select? (draft : DecodeDraft) (text : String) : Option DecodeDraft :=
  (readOrdinals text).map fun ordinals =>
    { draft with selected := draft.selected ++ ordinals, pending := false }

/-- Adds a plain argument, of which there are two: the key and the value. -/
def add? (draft : DecodeDraft) (text : String) : Option DecodeDraft :=
  if draft.plain.length < 2 then some { draft with plain := draft.plain ++ [text] } else none

end DecodeDraft

/-- Reads the arguments of the command that reads a row: a key, a value, and
selections anywhere among them. -/
def readDecode (options : Draft) (draft : DecodeDraft) : List String → Reading
  | [] =>
    match draft.pending, draft.plain with
    | false, [key, value] => request options (.decode key value draft.selected)
    | _, _ => none
  | text :: rest =>
    if draft.plainOnly then (draft.add? text).bind fun draft => readDecode options draft rest
    else if draft.pending then
      if Argument.of text = .plain then
        (draft.select? text).bind fun draft => readDecode options draft rest
      else none
    else
      match Argument.of text with
      | .separator => readDecode options { draft with plainOnly := true } rest
      | .plain => (draft.add? text).bind fun draft => readDecode options draft rest
      | .long "select" none => readDecode options { draft with pending := true } rest
      | .long "select" (some value) =>
        (draft.select? value).bind fun draft => readDecode options draft rest
      | .long "help" none => some .help
      | .short 'h' _ => some .help
      | _ => none

/-- Reads the arguments of the command that stores a schema: one path. With
`plainOnly` all further arguments are plain. -/
def readPath (options : Draft) (path : Option String) (plainOnly : Bool) : List String → Reading
  | [] => path.bind fun path => request options (.schema path)
  | text :: rest =>
    match if plainOnly then .plain else Argument.of text with
    | .separator => readPath options path true rest
    | .plain =>
      if path.isSome || text.isEmpty then none else readPath options (some text) plainOnly rest
    | .long "help" none => some .help
    | .short 'h' _ => some .help
    | _ => none

/-- The names of the commands. -/
def commandNames : List String :=
  ["encode", "decode", "bounds", "schema", "help"]

/-- Reads the arguments of the command that prints help: nothing, or the name of a
command. -/
def readHelp : List String → Reading
  | [] => some .help
  | [name] => if commandNames.contains name then some .help else none
  | _ => none

/-- Reads what follows the name of a command, if it is one. -/
def readAction? (draft : Draft) (name : String) (rest : List String) : Option Reading :=
  match name with
  | "encode" => some (readTexts (fun texts => request draft (.encode texts)) rest)
  | "decode" => some (readDecode draft {} rest)
  | "bounds" => some (readTexts (fun texts => request draft (.bounds texts)) rest)
  | "schema" => some (readPath draft none false rest)
  | "help" => some (readHelp rest)
  | _ => none

/-- Reads options and a command. An option whose value is still to come is
`pending`. -/
def readArguments (draft : Draft) (pending : Option ValuedOption) : List String → Reading
  | [] => none
  | text :: rest =>
    match pending with
    | some option =>
      if option.takesHyphen || Argument.of text = .plain then
        (draft.set? option text).bind fun draft => readArguments draft none rest
      else none
    | none =>
      match Argument.of text with
      | .separator => none
      | .plain => (readAction? draft text rest).join
      | .long "version" none => some .version
      | .long "help" none => some .help
      | .long "little-endian" none =>
        if draft.littleEndian then none
        else readArguments { draft with littleEndian := true } none rest
      | .long name attached =>
        match ValuedOption.long? name, attached with
        | some option, none => readArguments draft (some option) rest
        | some option, some value =>
          (draft.set? option value).bind fun draft => readArguments draft none rest
        | none, _ => none
      | .short 'V' _ => some .version
      | .short 'h' _ => some .help
      | .short letter attached =>
        match ValuedOption.short? letter, Argument.attachedToLetter attached with
        | some option, none => readArguments draft (some option) rest
        | some option, some value =>
          (draft.set? option value).bind fun draft => readArguments draft none rest
        | none, _ => none

/-- What a command line asks for, or nothing if it is rejected. -/
def Request.of? (arguments : List String) : Option Request :=
  readArguments {} none arguments

end KeyedRows.Command
