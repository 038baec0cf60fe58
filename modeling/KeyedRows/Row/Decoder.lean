import KeyedRows.Row.ValueColumn
import KeyedRows.Schema.Plan

namespace KeyedRows

/-- Which columns of a row are read. The others are moved over. -/
inductive Selection where
  | all
  | only (ordinals : List Nat)
deriving DecidableEq, Repr

/-- Whether the column with an ordinal is read. -/
def Selection.wants : Selection → Nat → Bool
  | all, _ => true
  | only ordinals, ordinal => ordinals.contains ordinal

/-- What is needed to read the rows of one table. -/
structure Decoder where
  plan : Plan
  /-- The version of the schema, which must stand in every value. -/
  schemaVersion : Int32
  /-- The number that must stand in every key. -/
  commonId : Int64

namespace Decoder

/-- A decoder for a schema, if the schema passes its check. -/
def of? (schemaVersion : Int32) (columns : Schema) (commonId : Int64) (order : ByteOrder) :
    Except Error Decoder := do
  let plan ← Plan.of? columns order
  return { plan, schemaVersion, commonId }

/-- A row of absent values. -/
def absentRecord (decoder : Decoder) : Record :=
  Record.absent decoder.plan.rowLength

/-- Reads columns one behind the other into a row, and moves over those not
selected. -/
def readSlots (read : Column → Reader Slot) (skip : Column → Reader Unit) (selection : Selection) :
    Schema → Record → Reader Record
  | [], record => return record
  | column :: columns, record => do
    if selection.wants column.ordinal then
      let slot ← read column
      readSlots read skip selection columns (record.set column.ordinal slot)
    else
      skip column
      readSlots read skip selection columns record

/-- Reads the reserved bytes of a trailer from the end, the first of them at a
distance. -/
def readReserved (fromEnd : Nat) : Nat → Reader Unit
  | 0 => return
  | count + 1 => do
    let byte ← Reader.lastByte
    if byte = 0 then readReserved (fromEnd + 1) count
    else Reader.fail (.reservedByte fromEnd byte)

/-- Reads a trailer from the end. -/
def readTrailer : Reader Unit := do
  let left ← Reader.remaining
  if left < Frame.trailerSize then Reader.fail (.truncated Frame.trailerSize left)
  else
    let version ← Reader.lastByte
    if version = Frame.formatVersion then readReserved 1 (Frame.trailerSize - 1)
    else Reader.fail (.formatVersion version)

/-- Refuses bytes that are left. -/
def expectEnd (error : Nat → Error) : Reader Unit := do
  let left ← Reader.remaining
  if left = 0 then return else Reader.fail (error left)

/-- Reads a key into a row. Any tag byte will do. The trailer is checked before the
columns. -/
def readKey (decoder : Decoder) (selection : Selection) (record : Record) : Reader Record := do
  let _ ← Reader.byte
  let commonId := (← Reader.uint64).toInt64
  if commonId = decoder.commonId then
    readTrailer
    let record ←
      readSlots Column.readKey Column.skipKey selection decoder.plan.keyColumns record
    expectEnd .unreadInKey
    return record
  else Reader.fail (.commonId decoder.commonId commonId)

/-- Reads a value into a row. -/
def readValue (decoder : Decoder) (selection : Selection) (record : Record) : Reader Record := do
  let schemaVersion ← Reader.int32
  if schemaVersion = decoder.schemaVersion then
    let record ←
      readSlots Column.readValue Column.skipValue selection decoder.plan.valueColumns record
    expectEnd .unreadInValue
    return record
  else Reader.fail (.schemaVersion decoder.schemaVersion schemaVersion)

/-- Runs a reader over a byte string. -/
def run {α : Type} (decoder : Decoder) (reader : Reader α) (bytes : Bytes) : Except Error α :=
  (reader (Cursor.of bytes decoder.plan.order)).1

/-- Reads the selected columns of a row. -/
def decodeWith (decoder : Decoder) (selection : Selection) (key value : Bytes) :
    Except Error Record := do
  let record ← decoder.run (decoder.readKey selection decoder.absentRecord) key
  decoder.run (decoder.readValue selection record) value

/-- Reads all columns of a row. -/
def decode (decoder : Decoder) (key value : Bytes) : Except Error Record :=
  decoder.decodeWith .all key value

/-- Reads the columns with given ordinals; all other slots stay empty. The ordinals
may come in any order and repeat, but must lie inside the rows of the schema. -/
def decodeSelection (decoder : Decoder) (key value : Bytes) (ordinals : List Nat) :
    Except Error Record :=
  match ordinals.find? (decoder.plan.rowLength ≤ ·) with
  | some ordinal => .error (.selectionOutside ordinal decoder.plan.rowLength)
  | none => decoder.decodeWith (.only ordinals) key value

/-- Reads the key columns; all other slots stay empty. -/
def decodeKey (decoder : Decoder) (key : Bytes) : Except Error Record :=
  decoder.run (decoder.readKey .all decoder.absentRecord) key

/-- Reads the columns outside the key; all other slots stay empty. -/
def decodeValue (decoder : Decoder) (value : Bytes) : Except Error Record :=
  decoder.run (decoder.readValue .all decoder.absentRecord) value

end Decoder

end KeyedRows
