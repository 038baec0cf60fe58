import KeyedRows.Bytes.Successor
import KeyedRows.Row.ValueColumn
import KeyedRows.Schema.Estimate
import KeyedRows.Schema.Plan
import KeyedRows.Value.Text

namespace KeyedRows

/-- What is needed to write the rows of one table. -/
structure Encoder where
  plan : Plan
  /-- The version of the schema, which stands in every value. -/
  schemaVersion : Int32
  /-- The number that all keys of the table share. -/
  commonId : Int64
  /-- The cells set aside for a key. -/
  keyRoom : Nat
  /-- The cells set aside for a value. -/
  valueRoom : Nat

namespace Encoder

/-- An encoder for a schema, if the schema passes its check. -/
def of? (schemaVersion : Int32) (columns : Schema) (commonId : Int64) (settings : Settings) :
    Except Error Encoder := do
  let plan ← Plan.of? columns settings.order
  return { plan, schemaVersion, commonId, keyRoom := columns.keyRoom settings,
           valueRoom := columns.valueRoom settings }

/-- An empty region for a key. -/
def keyRegion (encoder : Encoder) : Region :=
  Region.empty encoder.keyRoom encoder.plan.order

/-- An empty region for a value. -/
def valueRegion (encoder : Encoder) : Region :=
  Region.empty encoder.valueRoom encoder.plan.order

/-- Writes the tag byte and a common id. -/
def writeOpening (tag : UInt8) (commonId : Int64) (region : Region) : Region :=
  (region.push [tag]).pushUInt64 commonId.toUInt64

/-- Writes the trailer, from the last byte of the key towards its front. -/
def writeTrailer (region : Region) : Region :=
  (((region.pushBack Frame.formatVersion).pushBack 0).pushBack 0).pushBack 0

/-- Checks that a row has one slot for each column. -/
def checkLength (encoder : Encoder) (record : Record) : Except Error Unit :=
  if record.size = encoder.plan.rowLength then .ok ()
  else .error (.rowLength record.size encoder.plan.rowLength)

/-- Writes the slots of columns one behind the other. -/
def writeSlots (write : Column → Slot → Region → Except Error Region) (record : Record) :
    Schema → Region → Except Error Region
  | [], region => .ok region
  | column :: columns, region =>
    match record.slot? column.ordinal with
    | none => .error (.noSlot column.ordinal)
    | some slot => do
      let region ← write column slot region
      writeSlots write record columns region

/-- Writes a key into a region: its opening, the key columns, and the trailer from
the back. -/
def writeKey (encoder : Encoder) (tag : UInt8) (record : Record) : Except Error Region := do
  encoder.checkLength record
  let roomy := encoder.keyRegion.reserve (Frame.openingSize + Frame.trailerSize)
  let framed := writeTrailer (writeOpening tag encoder.commonId roomy)
  writeSlots Column.writeKey record encoder.plan.keyColumns framed

/-- Writes a value into a region: the schema version and the columns outside the
key. -/
def writeValue (encoder : Encoder) (record : Record) : Except Error Region := do
  encoder.checkLength record
  let headed := (encoder.valueRegion.reserve Frame.headerSize).pushInt32 encoder.schemaVersion
  writeSlots Column.writeValue record encoder.plan.valueColumns headed

/-- The key of a row. -/
def encodeKey (encoder : Encoder) (tag : UInt8) (record : Record) : Except Error Bytes :=
  (encoder.writeKey tag record).map Region.toBytes

/-- The value of a row. -/
def encodeValue (encoder : Encoder) (record : Record) : Except Error Bytes :=
  (encoder.writeValue record).map Region.toBytes

/-- The key and the value of a row, if it has both. -/
def encode (encoder : Encoder) (tag : UInt8) (record : Record) : Except Error (Bytes × Bytes) := do
  let key ← encoder.encodeKey tag record
  let value ← encoder.encodeValue record
  return (key, value)

/-- What all keys with the same first key columns as a row start with. The row only
needs slots for these columns. -/
def leadingKey (encoder : Encoder) (tag : UInt8) (record : Record) (count : Nat) :
    Except Error Bytes :=
  let opened :=
    writeOpening tag encoder.commonId (encoder.keyRegion.reserve Frame.openingSize)
  (writeSlots Column.writeKey record (encoder.plan.keyColumns.take count) opened).map Region.toBytes

/-- Writes values read from texts, one for each column; columns without a text are
left out. -/
def writeTexts : Schema → List String → Region → Except Error Region
  | column :: columns, text :: texts, region => do
    let value ← Value.parse column.type text
    let region ← column.writeKey (some value) region
    writeTexts columns texts region
  | _, _, region => .ok region

/-- What all keys with the same first key columns start with, whose values are read
from texts. -/
def leadingKeyOfTexts (encoder : Encoder) (tag : UInt8) (texts : List String) :
    Except Error Bytes :=
  if encoder.plan.keyColumns.length < texts.length then
    .error (.tooManyKeyTexts texts.length encoder.plan.keyColumns.length)
  else
    let opened :=
      writeOpening tag encoder.commonId (encoder.keyRegion.reserve Frame.openingSize)
    (writeTexts encoder.plan.keyColumns texts opened).map Region.toBytes

/-- A lower bound of all keys with a tag, the bound itself included. -/
def lowerBound (encoder : Encoder) (tag : UInt8) : Bytes :=
  (writeOpening tag encoder.commonId encoder.keyRegion).toBytes

/-- An upper bound of all keys with a tag, the bound itself excluded: the opening of
the next common id. The greatest id has no next one, and the id of ones only has
none whose bytes come later. -/
def upperBound (encoder : Encoder) (tag : UInt8) : Except Error Bytes :=
  if encoder.commonId = Int64.maxValue ∨ encoder.commonId = -1 then
    .error (.noNextCommonId encoder.commonId)
  else .ok (writeOpening tag (encoder.commonId + 1) encoder.keyRegion).toBytes

end Encoder

end KeyedRows
