import KeyedRows.Number.Integer
import KeyedRows.Number.Literal
import KeyedRows.Schema.ColumnType
import KeyedRows.Text.Quoted
import KeyedRows.Text.Utf8

namespace KeyedRows

/-- What a text was to be read as. -/
inductive TextTarget where
  | column (type : ColumnType)
  | hex
  | tag
deriving DecidableEq, Repr

/-- The name of a target in a message. -/
def TextTarget.name : TextTarget → String
  | .column type => type.name
  | .hex => "hex"
  | .tag => "prefix"

/-- Why a text could not be read. -/
inductive TextFault where
  | integer (fault : Integer.Fault)
  | float (fault : Binary.Fault)
  /-- A fault of hexadecimal text, in words. -/
  | hex (reason : String)
  | notAscii
deriving DecidableEq, Repr

/-- The wording of a fault. -/
def TextFault.message : TextFault → String
  | .integer fault => fault.message
  | .float fault => fault.message
  | .hex reason => reason
  | .notAscii => "prefix must be a single ASCII character"

/-- Why a file could not be read or written. -/
inductive FileFault where
  | notFound
  /-- Another fault of the system, in its own words. -/
  | other (text : String)
deriving DecidableEq, Repr

/-- The wording of a fault, with the number that the system gives it. -/
def FileFault.message : FileFault → String
  | .notFound => "No such file or directory (os error 2)"
  | .other text => text

/-- Why bytes are not a stored schema. -/
inductive CatalogFault where
  | endOfInput
  | badTypeCode (code : Nat)
  | badFlag (byte : UInt8)
deriving DecidableEq, Repr

/-- The wording of a fault. -/
def CatalogFault.message : CatalogFault → String
  | .endOfInput => "io error: unexpected end of file"
  | .badTypeCode code =>
    let found := String.ofList (['\x60'] ++ Nat.toDigits 10 code ++ ['\x60'])
    s!"invalid value: integer {found}, expected variant index 0 <= i < 12"
  | .badFlag byte =>
    s!"invalid u8 while decoding bool, expected 0 or 1, found {byte.toNat}"

/-- Everything that can go wrong, by cause. `Error.kind` sorts the causes and
`Error.message` words them. -/
inductive Error where
  /-- An ordinal lies outside the rows of the schema. -/
  | ordinalOutside (position ordinal count : Nat)
  /-- Two columns share an ordinal. -/
  | ordinalRepeated (ordinal : Nat)
  /-- A list column is marked as a key column. -/
  | listKey (ordinal : Nat) (type : ColumnType)
  /-- A column description is empty. -/
  | emptyEntry (position : Nat)
  /-- A type name is unknown. -/
  | unknownType (text : String)
  /-- A flag of a column description is unknown. -/
  | unknownFlag (flag entry : String)
  /-- A row has the wrong number of slots. -/
  | rowLength (slots columns : Nat)
  /-- A row has no slot for a column. -/
  | noSlot (ordinal : Nat)
  /-- A value is not of its column's type. -/
  | wrongType (ordinal : Nat) (expected given : ColumnType)
  /-- A column that is not nullable has no value. -/
  | valueMissing (ordinal : Nat)
  /-- A list has no place in a key. -/
  | notKeyType (ordinal : Nat) (type : ColumnType)
  /-- A payload is too long for its length field. -/
  | payloadTooLong (length : Nat)
  /-- A list is too long for its count field. -/
  | listTooLong (length : Nat)
  /-- More texts than key columns. -/
  | tooManyKeyTexts (texts keyColumns : Nat)
  /-- As many texts as columns are needed. -/
  | textCount (texts columns : Nat)
  /-- A selected ordinal lies outside the rows of the schema. -/
  | selectionOutside (ordinal count : Nat)
  /-- Fewer bytes remain than a read needs. -/
  | truncated (needed remaining : Nat)
  /-- A length or count field is negative. -/
  | negativeLength (length : Int)
  /-- A null marker is neither of the two that there are. -/
  | badNullMarker (marker : UInt8) (ordinal : Nat)
  /-- The byte behind a string group marks neither more groups nor a last one. -/
  | badGroupMarker (marker : UInt8)
  /-- Bytes remain behind the key columns. -/
  | unreadInKey (count : Nat)
  /-- Bytes remain behind the value columns. -/
  | unreadInValue (count : Nat)
  /-- The last byte of a key names another version of the format. -/
  | formatVersion (found : UInt8)
  /-- A reserved byte of a key's trailer is not zero. -/
  | reservedByte (fromEnd : Nat) (found : UInt8)
  /-- A value was written for another version of the schema. -/
  | schemaVersion (expected found : Int32)
  /-- A key belongs to another common id. -/
  | commonId (expected found : Int64)
  /-- A string column does not hold text. -/
  | notText (fault : Utf8.Fault)
  /-- No key comes after those of the common id. -/
  | noNextCommonId (id : Int64)
  /-- A text could not be read. -/
  | badText (target : TextTarget) (text : String) (fault : TextFault)
  /-- A file could not be read or written. -/
  | file (fault : FileFault)
  /-- Stored bytes are not a schema. -/
  | catalog (fault : CatalogFault)
deriving DecidableEq, Repr

namespace Error

/-- The kinds of failure that callers tell apart. -/
inductive Kind where
  | schemaMismatch
  | invalidSchema
  | truncatedInput
  | unsupportedFormatVersion
  | invalidTrailer
  | schemaVersionMismatch
  | commonIdMismatch
  | invalidUtf8
  | overflow
  | invalidText
  | file
  | catalog
deriving DecidableEq, Repr

/-- The kind of a failure. -/
def kind : Error → Kind
  | ordinalOutside .. | ordinalRepeated _ | listKey .. | emptyEntry _ | unknownType _
  | unknownFlag .. => .invalidSchema
  | rowLength .. | noSlot _ | wrongType .. | valueMissing _ | notKeyType .. | payloadTooLong _
  | listTooLong _ | tooManyKeyTexts .. | textCount .. | selectionOutside .. | negativeLength _
  | badNullMarker .. | badGroupMarker _ | unreadInKey _ | unreadInValue _ => .schemaMismatch
  | truncated .. => .truncatedInput
  | formatVersion _ => .unsupportedFormatVersion
  | reservedByte .. => .invalidTrailer
  | schemaVersion .. => .schemaVersionMismatch
  | commonId .. => .commonIdMismatch
  | notText _ => .invalidUtf8
  | noNextCommonId _ => .overflow
  | badText .. => .invalidText
  | file _ => .file
  | catalog _ => .catalog

/-- The words that open every message of a kind. -/
def Kind.heading : Kind → String
  | .schemaMismatch => "Schema mismatch: "
  | .invalidSchema => "Invalid schema: "
  | .truncatedInput => "Truncated input: "
  | .unsupportedFormatVersion => "Unsupported codec version: "
  | .invalidTrailer => "Invalid key trailer: "
  | .schemaVersionMismatch => "Schema version mismatch: "
  | .commonIdMismatch => "Common id mismatch: "
  | .invalidUtf8 => "Invalid UTF-8 in string column: "
  | .overflow => "Overflow: "
  | .invalidText => "Invalid text value "
  | .file => "IO error: "
  | .catalog => "Serialization error: "

/-- A byte as two hexadecimal digits behind `0x`. -/
def shownByte (byte : UInt8) : String :=
  String.ofList ['0', 'x', Nat.digitChar (byte.toNat / 16), Nat.digitChar (byte.toNat % 16)]

/-- What a message says behind its heading. -/
def detail : Error → String
  | ordinalOutside position ordinal count =>
    s!"column {position} has ordinal {ordinal} but the schema has {count} columns"
  | ordinalRepeated ordinal => s!"ordinal {ordinal} is used by more than one column"
  | listKey ordinal type => s!"list column {ordinal} ({type.name}) cannot be a key column"
  | emptyEntry position => s!"empty column entry at position {position}"
  | unknownType text => "unknown column type " ++ Text.quoted text
  | unknownFlag flag entry =>
    "unknown column flag " ++ Text.quoted flag ++ " in " ++ Text.quoted entry
  | rowLength slots columns =>
    s!"record has {slots} values but the schema has {columns} columns"
  | noSlot ordinal => s!"record has no slot for column {ordinal}"
  | wrongType ordinal expected given =>
    s!"column {ordinal} expects {expected.name}, got {given.name}"
  | valueMissing ordinal => s!"column {ordinal} is not nullable but has no value"
  | notKeyType ordinal type =>
    s!"column {ordinal} of type {type.name} cannot be encoded in a key"
  | payloadTooLong length => s!"payload of {length} bytes exceeds the i32 length prefix"
  | listTooLong length => s!"list of {length} elements exceeds the i32 count"
  | tooManyKeyTexts texts keyColumns =>
    s!"{texts} key values given but the schema has {keyColumns} key columns"
  | textCount texts columns => s!"{texts} values given for {columns} columns"
  | selectionOutside ordinal count =>
    s!"selected column {ordinal} is outside the schema's {count} columns"
  | truncated needed remaining => s!"needed {needed} bytes, {remaining} remaining"
  | negativeLength length => s!"negative length prefix {length}"
  | badNullMarker marker ordinal =>
    s!"invalid null marker {shownByte marker} in column {ordinal}"
  | badGroupMarker marker => "invalid string group marker " ++ shownByte marker
  | unreadInKey count => s!"{count} unread bytes after the key columns"
  | unreadInValue count => s!"{count} unread bytes after the value columns"
  | formatVersion found => shownByte found
  | reservedByte fromEnd found =>
    s!"reserved byte {fromEnd} from the end is {shownByte found}"
  | schemaVersion expected found => s!"expected {expected.toInt}, found {found.toInt}"
  | commonId expected found => s!"expected {expected.toInt}, found {found.toInt}"
  | notText fault => fault.message
  | noNextCommonId id => s!"common id {id.toInt} has no successor"
  | badText target text fault =>
    Text.quoted text ++ " for " ++ target.name ++ " column: " ++ fault.message
  | file fault => fault.message
  | catalog fault => fault.message

/-- The message of a failure. -/
def message (error : Error) : String :=
  error.kind.heading ++ error.detail

end Error

end KeyedRows
