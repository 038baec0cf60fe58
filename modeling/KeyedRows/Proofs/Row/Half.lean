import KeyedRows.Proofs.Column.Skipping
import KeyedRows.Proofs.Reader.Consuming
import KeyedRows.Proofs.Record.Slots
import KeyedRows.Proofs.Schema.Checked
import KeyedRows.Row.Decoder
import KeyedRows.Row.Layout

namespace KeyedRows.Decoder

open Reader

/-- Reads the tag byte and the common id in front of the columns of a key, and the
trailer behind them. -/
def readFrame (decoder : Decoder) : Reader Unit := do
  let _ ← byte
  let commonId := (← uint64).toInt64
  if commonId = decoder.commonId then readTrailer
  else fail (.commonId decoder.commonId commonId)

/-- Reads the schema version in front of the columns of a value. -/
def readHeader (decoder : Decoder) : Reader Unit := do
  let schemaVersion ← int32
  if schemaVersion = decoder.schemaVersion then return
  else fail (.schemaVersion decoder.schemaVersion schemaVersion)

private theorem ignoresText_readReserved (fromEnd count : Nat) :
    IgnoresText (readReserved fromEnd count) := by
  induction count generalizing fromEnd with
  | zero => exact ignoresText_pure ()
  | succ count ih =>
    apply ignoresText_lastByte.bind
    intro byte
    split
    · exact ih (fromEnd + 1)
    · exact ignoresText_fail (by simp [Error.kind])

private theorem ignoresText_readTrailer : IgnoresText readTrailer := by
  apply ignoresText_remaining.bind
  intro left
  split
  · exact ignoresText_fail (by simp [Error.kind])
  · apply ignoresText_lastByte.bind
    intro version
    split
    · exact ignoresText_readReserved 1 _
    · exact ignoresText_fail (by simp [Error.kind])

/-- Looking for the end of the bytes finds no fault with text, unless that is what
it calls bytes that are left. -/
theorem ignoresText_expectEnd {error : Nat → Error}
    (hkind : ∀ left, (error left).kind ≠ .invalidUtf8) : IgnoresText (expectEnd error) := by
  apply ignoresText_remaining.bind
  intro left
  split
  · exact ignoresText_pure ()
  · exact ignoresText_fail (hkind left)

variable (decoder : Decoder)

private theorem ignoresText_readFrame : IgnoresText decoder.readFrame := by
  apply ignoresText_byte.bind
  intro tag
  apply ignoresText_uint64.bind
  intro commonId
  by_cases hsame : commonId.toInt64 = decoder.commonId
  · rw [if_pos hsame]
    exact ignoresText_readTrailer
  · rw [if_neg hsame]
    exact ignoresText_fail (by simp [Error.kind])

private theorem ignoresText_readHeader : IgnoresText decoder.readHeader := by
  apply ignoresText_int32.bind
  intro schemaVersion
  split
  · exact ignoresText_pure ()
  · exact ignoresText_fail (by simp [Error.kind])

/-- What the readings of keys and of values under a schema have apart. Text is found
fault with only in columns, and only when it is read. -/
structure Half (plan : Plan) where
  /-- What frames the columns. -/
  frame : Reader Unit
  columns : Schema
  read : Column → Reader Slot
  skip : Column → Reader Unit
  /-- What is wrong if bytes are left behind the columns. -/
  unread : Nat → Error
  subset : columns ⊆ plan.columns
  shadows : ∀ column cursor, Shadows (skip column) (read column) cursor
  frame_ignoresText : IgnoresText frame
  kind_unread : ∀ left, (unread left).kind ≠ .invalidUtf8

/-- Reads one half of a row into a row. -/
def Half.reader {plan : Plan} (half : Half plan) (selection : Selection) (record : Record) :
    Reader Record := do
  half.frame
  let record ← readSlots half.read half.skip selection half.columns record
  expectEnd half.unread
  return record

/-- The key of a row, between its opening and its trailer. -/
def keyHalf : Half decoder.plan where
  frame := decoder.readFrame
  columns := decoder.plan.keyColumns
  read := Column.readKey
  skip := Column.skipKey
  unread := .unreadInKey
  subset := decoder.plan.keyColumns_subset
  shadows := Column.shadows_skipKey
  frame_ignoresText := decoder.ignoresText_readFrame
  kind_unread _ := by simp [Error.kind]

/-- The value of a row, behind the schema version. -/
def valueHalf : Half decoder.plan where
  frame := decoder.readHeader
  columns := decoder.plan.valueColumns
  read := Column.readValue
  skip := Column.skipValue
  unread := .unreadInValue
  subset := decoder.plan.valueColumns_subset
  shadows := Column.shadows_skipValue
  frame_ignoresText := decoder.ignoresText_readHeader
  kind_unread _ := by simp [Error.kind]

/-- Reading a key is reading the half of the key columns. -/
theorem readKey_eq (selection : Selection) (record : Record) :
    decoder.readKey selection record = decoder.keyHalf.reader selection record := by
  simp only [readKey, Half.reader, keyHalf, readFrame, bind_assoc]
  congr 1
  funext tag
  congr 1
  funext commonId
  split
  · rfl
  · rw [fail_bind]

/-- Reading a value is reading the half of the other columns. -/
theorem readValue_eq (selection : Selection) (record : Record) :
    decoder.readValue selection record = decoder.valueHalf.reader selection record := by
  simp only [readValue, Half.reader, valueHalf, readHeader, bind_assoc]
  congr 1
  funext schemaVersion
  split
  · rfl
  · rw [fail_bind]

variable {order : ByteOrder} {record source : Record}

/-- All columns are read from the bytes of their slots, and each slot goes to its
place. The row may have any slots, and columns may share them, as each is filled
from the same source. -/
theorem consumes_readSlots {read : Column → Reader Slot} {skip : Column → Reader Unit}
    {slotBytes : Column → Slot → Bytes} {columns : Schema}
    (hread : ∀ column ∈ columns, Consumes order (read column)
      (slotBytes column (source.value? column.ordinal)) (source.value? column.ordinal)) :
    Consumes order (readSlots read skip .all columns record) (source.bytesBy slotBytes columns)
      (record.fill source (columns.map Column.ordinal)) := by
  induction columns generalizing record with
  | nil => exact consumes_pure order record
  | cons column columns ih =>
    apply (hread column List.mem_cons_self).bind
    exact ih fun other hmem => hread other (List.mem_cons_of_mem _ hmem)

/-- Where nothing is left the end is found. -/
theorem expectEnd_eq_ok {error : Nat → Error} {cursor : Cursor} (hunread : cursor.unread = []) :
    expectEnd error cursor = (.ok (), cursor) := by
  have hlength : cursor.remaining = 0 := by
    rw [← cursor.length_unread, hunread, List.length_nil]
  rw [expectEnd, bind_of_ok (rfl : remaining cursor = (.ok _, cursor)), if_pos hlength]
  rfl

/-- A half is read if its frame leaves the bytes of the columns and nothing else.
Each column must read back its own slot, whatever stands behind it. -/
theorem Half.reader_eq_ok {plan : Plan} {half : Half plan} {slotBytes : Column → Slot → Bytes}
    {cursor middle : Cursor}
    (hframe : half.frame cursor = (.ok (), middle)) (horder : middle.order = order)
    (hmiddle : middle.unread = source.bytesBy slotBytes half.columns)
    (hread : ∀ column ∈ half.columns, Consumes order (half.read column)
      (slotBytes column (source.value? column.ordinal)) (source.value? column.ordinal)) :
    (half.reader .all record cursor).1 =
      .ok (record.fill source (half.columns.map Column.ordinal)) := by
  rw [← List.append_nil (source.bytesBy slotBytes half.columns)] at hmiddle
  obtain ⟨after, hslots, hafter, -⟩ := consumes_readSlots hread middle [] horder hmiddle
  rw [reader, bind_of_ok hframe, bind_of_ok hslots, bind_of_ok (expectEnd_eq_ok hafter)]
  rfl

end KeyedRows.Decoder
