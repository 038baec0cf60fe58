import KeyedRows.Guarded.Column
import KeyedRows.Row.Decoder

namespace KeyedRows

/-- The places of the columns of a kind. -/
def Schema.positions (columns : Schema) (kind : Column → Bool) : List Nat :=
  (columns.zipIdx.filter fun entry => kind entry.1).map Prod.snd

namespace Guarded

/-- Which columns of a row are read: all, or those at whose ordinals a flag is set. -/
inductive Projection where
  | all
  | only (wanted : List Bool)

/-- Whether the column with an ordinal is read. -/
def Projection.wants : Projection → Nat → Except Fault Bool
  | all, _ => .ok true
  | only wanted, ordinal => Guard.element wanted ordinal

/-- Sets the flags at ordinals. The first ordinal without a flag is refused. -/
def mark (rowLength : Nat) : List Nat → List Bool → Except Error (List Bool)
  | [], wanted => .ok wanted
  | ordinal :: ordinals, wanted =>
    if ordinal < wanted.length then mark rowLength ordinals (wanted.set ordinal true)
    else .error (.selectionOutside ordinal rowLength)

/-- Sets a slot of a row, which is not to grow. -/
def put (record : Record) (ordinal : Nat) (slot : Slot) : Except Fault Record :=
  if ordinal < record.size then .ok (record.set ordinal slot) else .error .impossible

/-- Reads the columns at some places into a row, and moves over those not wanted.
Columns are found by their places in the schema, and a slot is only set where the
row has one. -/
def slots (read : Column → Guarded Slot) (skip : Column → Guarded Unit) (projection : Projection)
    (columns : Schema) : List Nat → Record → Guarded Record
  | [], record => return record
  | position :: positions, record => do
    let column ← check (Guard.element columns position)
    let wanted ← check (projection.wants column.ordinal)
    if wanted then
      let slot ← read column
      let record ← check (put record column.ordinal slot)
      slots read skip projection columns positions record
    else
      skip column
      slots read skip projection columns positions record

/-- Reads the reserved bytes of a trailer from the end, the first of them at a
distance. -/
def reserved (fromEnd : Nat) : Nat → Guarded Unit
  | 0 => return
  | count + 1 => do
    let b ← lastByte
    if b = 0 then reserved (fromEnd + 1) count else fail (.reservedByte fromEnd b)

/-- Reads a trailer from the end. -/
def trailer : Guarded Unit := do
  let left ← remaining
  if left < Frame.trailerSize then fail (.truncated Frame.trailerSize left)
  else
    let version ← lastByte
    if version = Frame.formatVersion then reserved 1 (Frame.trailerSize - 1)
    else fail (.formatVersion version)

/-- Refuses bytes that are left. -/
def expectEnd (error : Nat → Error) : Guarded Unit := do
  let left ← remaining
  if left = 0 then return else fail (error left)

variable (decoder : Decoder)

/-- Reads a key into a row. -/
def key (projection : Projection) (record : Record) : Guarded Record := do
  let _ ← byte
  let commonId := (← uint64).toInt64
  if commonId = decoder.commonId then
    trailer
    let columns := decoder.plan.columns
    let record ← slots keySlot skipKeySlot projection columns (columns.positions (·.isKey)) record
    expectEnd .unreadInKey
    return record
  else fail (.commonId decoder.commonId commonId)

/-- Reads a value into a row. -/
def value (projection : Projection) (record : Record) : Guarded Record := do
  let schemaVersion ← int32
  if schemaVersion = decoder.schemaVersion then
    let columns := decoder.plan.columns
    let record ← slots valueSlot skipValueSlot projection columns (columns.positions (!·.isKey)) record
    expectEnd .unreadInValue
    return record
  else fail (.schemaVersion decoder.schemaVersion schemaVersion)

/-- Runs a guarded reader over a byte string. -/
def run {α : Type} (guarded : Guarded α) (bytes : Bytes) : Except Fault (Except Error α) :=
  (guarded ⟨bytes, 0, bytes.length, decoder.plan.order⟩).map Prod.fst

/-- Reads the columns of a row that a projection wants. -/
def decodeWith (projection : Projection) (keyBytes valueBytes : Bytes) :
    Except Fault (Except Error Record) := do
  match ← run decoder (key decoder projection decoder.absentRecord) keyBytes with
  | .ok record => run decoder (value decoder projection record) valueBytes
  | .error e => return .error e

/-- Reads all columns of a row. -/
def decode (keyBytes valueBytes : Bytes) : Except Fault (Except Error Record) :=
  decodeWith decoder .all keyBytes valueBytes

/-- Reads the columns with given ordinals. -/
def decodeSelection (keyBytes valueBytes : Bytes) (ordinals : List Nat) :
    Except Fault (Except Error Record) :=
  match mark decoder.plan.rowLength ordinals (List.replicate decoder.plan.rowLength false) with
  | .ok wanted => decodeWith decoder (.only wanted) keyBytes valueBytes
  | .error e => .ok (.error e)

/-- Reads the key columns. -/
def decodeKey (keyBytes : Bytes) : Except Fault (Except Error Record) :=
  run decoder (key decoder .all decoder.absentRecord) keyBytes

/-- Reads the columns outside the key. -/
def decodeValue (valueBytes : Bytes) : Except Fault (Except Error Record) :=
  run decoder (value decoder .all decoder.absentRecord) valueBytes

end Guarded

end KeyedRows
