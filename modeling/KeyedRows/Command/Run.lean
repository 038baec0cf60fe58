import KeyedRows.Command.Files
import KeyedRows.Command.Invocation
import KeyedRows.Command.Report
import KeyedRows.Row.Decoder
import KeyedRows.Row.Encoder
import KeyedRows.Schema.Spec

namespace KeyedRows.Command

/-- How a stored file is read. -/
abbrev Load := String → Except FileFault Bytes

namespace Options

/-- The schema that options name. -/
def schema (options : Options) (load : Load) : Except Error Schema :=
  match options.source with
  | .spec text => Schema.parse text
  | .file path => Catalog.load (load path)

/-- The tag byte, which must be an ASCII character. -/
def tagByte (options : Options) : Except Error UInt8 :=
  if options.tag.toNat < 128 then .ok (UInt8.ofNat options.tag.toNat)
  else .error (.badText .tag (String.singleton options.tag) .notAscii)

/-- The byte order of values. -/
def order (options : Options) : ByteOrder :=
  .ofLittleEndian options.littleEndian

/-- An encoder for a schema. -/
def encoder (options : Options) (columns : Schema) : Except Error Encoder :=
  Encoder.of? options.schemaVersion columns options.commonId { order := options.order }

/-- A decoder for a schema. -/
def decoder (options : Options) (columns : Schema) : Except Error Decoder :=
  Decoder.of? options.schemaVersion columns options.commonId options.order

/-- Reads the slot of a column from a text. -/
def readSlot (options : Options) (column : Column) (text : String) : Except Error Slot :=
  if text = options.absentText then .ok none else (Value.parse column.type text).map some

/-- Reads the slots of columns into a row, each from the text at its ordinal. -/
def readSlots (options : Options) (texts : List String) :
    Schema → Record → Except Error Record
  | [], record => .ok record
  | column :: columns, record => do
    let slot ← options.readSlot column ((texts[column.ordinal]?).getD "")
    readSlots options texts columns (record.set column.ordinal slot)

/-- Reads a row from texts, one for each ordinal. -/
def readRecord (options : Options) (columns : Schema) (texts : List String) :
    Except Error Record :=
  if texts.length = columns.length then
    readSlots options texts columns (Record.absent columns.length)
  else .error (.textCount texts.length columns.length)

/-- Reads bytes in hexadecimal form. -/
def readHex (hex : HexForm) (text : String) : Except Error Bytes :=
  (hex.decode text).mapError fun reason => .badText .hex text (.hex reason)

/-- The line of a column in a row that was read. -/
def columnLine (options : Options) (record : Record) (column : Column) : ColumnLine :=
  { ordinal := column.ordinal
    type := column.type
    text := ((record.value? column.ordinal).map Value.render).getD options.absentText }

/-- Reads the file that holds the schema, if there is one. A schema that is given as
text needs no file. -/
def fetch {m : Type → Type} [Monad m] (options : Options) (files : Files m) : m Load :=
  match options.source with
  | .spec _ => return fun _ => .error .notFound
  | .file path => do
    let stored ← files.read path
    return fun _ => stored

end Options

namespace Action

/-- Does one thing under a checked schema. -/
def run (hex : HexForm) (options : Options) (columns : Schema) (tag : UInt8) :
    Action → Except Error Report
  | encode texts => do
    let record ← options.readRecord columns texts
    let encoder ← options.encoder columns
    let (key, value) ← encoder.encode tag record
    return .written key value
  | decode key value selected => do
    let key ← Options.readHex hex key
    let value ← Options.readHex hex value
    let decoder ← options.decoder columns
    let record ←
      if selected.isEmpty then decoder.decode key value
      else decoder.decodeSelection key value selected
    return .read (columns.map (options.columnLine record))
  | bounds texts => do
    let encoder ← options.encoder columns
    if texts.isEmpty then
      let stop ← encoder.upperBound tag
      return .bounds (encoder.lowerBound tag) stop
    else
      let start ← encoder.leadingKeyOfTexts tag texts
      match Bytes.successor? start with
      | some stop => return .bounds start stop
      | none => return .bounds start (← encoder.upperBound tag)
  | schema path => return .stored path columns

end Action

/-- Writes the file that an answer asks for. The answer stands only if the file has
been written. -/
def Files.deliver {m : Type → Type} [Monad m] (files : Files m) :
    Except Error Report → m (Except Error Report)
  | .error e => return .error e
  | .ok report =>
    match report.file? with
    | none => return .ok report
    | some (path, bytes) => do
      let written ← files.write path bytes
      return (written.mapError .file).map fun _ => report

namespace Invocation

/-- What an invocation answers. The schema is read first, then the tag byte. -/
def run (hex : HexForm) (invocation : Invocation) (load : Load) : Except Error Report := do
  let columns ← invocation.options.schema load
  let tag ← invocation.options.tagByte
  invocation.action.run hex invocation.options columns tag

/-- Runs an invocation over files: reads the schema, and writes the file that the
answer asks for. -/
def perform {m : Type → Type} [Monad m] (hex : HexForm) (files : Files m) (invocation : Invocation) :
    m (Except Error Report) := do
  let load ← invocation.options.fetch files
  files.deliver (invocation.run hex load)

end Invocation

/-- How a command line ended. -/
structure Outcome where
  /-- Zero for success, one for a failure, two for arguments that were rejected. -/
  status : Nat
  output : String := ""
  /-- The message of a failure. -/
  message : Option String := none
deriving DecidableEq

/-- The version of the command line. -/
def version : String := "0.1.0"

/-- What is printed when the version is asked for. -/
def versionText : String := "rowcodec-cli " ++ version ++ "\n"

/-- What is printed when help is asked for. -/
def helpText : String :=
  "Encode and decode rows with the rowcodec key/value format\n\n" ++
  "Usage: rowcodec-cli [OPTIONS] <COMMAND>\n\n" ++
  "Commands: encode [VALUES]..., decode <KEY> <VALUE>, bounds [KEY_VALUES]..., schema <PATH>\n"

/-- The outcome of an answer. -/
def Outcome.of (hex : HexForm) : Except Error Report → Outcome
  | .ok report => { status := 0, output := report.render hex }
  | .error e => { status := 1, message := some e.message }

section

variable {m : Type → Type} [Monad m]

/-- Runs an invocation to its end. -/
def Invocation.outcome (hex : HexForm) (files : Files m) (invocation : Invocation) : m Outcome := do
  let answer ← invocation.perform hex files
  return .of hex answer

/-- Runs a whole command line. -/
def execute (hex : HexForm) (files : Files m) (arguments : List String) : m Outcome :=
  match Request.of? arguments with
  | none => return { status := 2 }
  | some .version => return { status := 0, output := versionText }
  | some .help => return { status := 0, output := helpText }
  | some (.run invocation) => invocation.outcome hex files

end

end KeyedRows.Command
