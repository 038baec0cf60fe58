import KeyedRows.Schema.Plan

namespace KeyedRows

/-- The code of a scalar type. -/
def Scalar.code : Scalar → Nat
  | .bool => 0
  | .int32 => 1
  | .int64 => 2
  | .float32 => 3
  | .float64 => 4
  | .string => 5

/-- The code of a column type: the lists follow the scalars. -/
def ColumnType.code : ColumnType → Nat
  | .scalar kind => kind.code
  | .list item => 6 + item.code

/-- The column type with a code. -/
def ColumnType.ofCode? (code : Nat) : Option ColumnType :=
  ColumnType.all[code]?

namespace Catalog

/-- A reader of stored bytes: a value and the bytes behind it. -/
abbrev Read (α : Type) := Bytes → Except CatalogFault (α × Bytes)

/-- The byte of a flag. -/
def flagByte (flag : Bool) : UInt8 :=
  if flag then 1 else 0

/-- The bytes of a column. -/
def columnBytes (column : Column) : Bytes :=
  ByteOrder.little.word 4 column.type.code ++ ByteOrder.little.word 8 column.ordinal ++
    [flagByte column.isKey, flagByte column.nullable]

/-- The bytes of a stored schema: the number of columns in eight bytes, then for
each column the code of its type in four, its ordinal in eight, and one byte each
for key and nullable. Numbers are little-endian. -/
def toBytes (columns : Schema) : Bytes :=
  ByteOrder.little.word 8 columns.length ++ columns.flatMap columnBytes

/-- Reads a number of a width. -/
def readWord (width : Nat) : Read Nat := fun bytes =>
  if bytes.length < width then .error .endOfInput
  else .ok (ByteOrder.little.number (bytes.take width), bytes.drop width)

/-- Reads a type code. -/
def readType : Read ColumnType := fun bytes => do
  let (code, rest) ← readWord 4 bytes
  match ColumnType.ofCode? code with
  | some type => return (type, rest)
  | none => throw (.badTypeCode code)

/-- Reads a flag. -/
def readFlag : Read Bool
  | [] => .error .endOfInput
  | b :: rest =>
    if b = 0 then .ok (false, rest) else if b = 1 then .ok (true, rest) else .error (.badFlag b)

/-- Reads a column. -/
def readColumn : Read Column := fun bytes => do
  let (type, bytes) ← readType bytes
  let (ordinal, bytes) ← readWord 8 bytes
  let (isKey, bytes) ← readFlag bytes
  let (nullable, bytes) ← readFlag bytes
  return ({ type, ordinal, isKey, nullable }, bytes)

/-- Reads a number of columns. -/
def readColumns : Nat → Read Schema
  | 0, bytes => .ok ([], bytes)
  | count + 1, bytes => do
    let (column, bytes) ← readColumn bytes
    let (columns, bytes) ← readColumns count bytes
    return (column :: columns, bytes)

/-- Reads columns behind their number. -/
def read : Read Schema := fun bytes => do
  let (count, bytes) ← readWord 8 bytes
  readColumns count bytes

/-- Reads and checks a schema. -/
def ofBytes (bytes : Bytes) : Except Error Schema :=
  match read bytes with
  | .error fault => .error (.catalog fault)
  | .ok (columns, _) => columns.check.map fun _ => columns

/-- Reads and checks a schema from what a file held. -/
def load (stored : Except FileFault Bytes) : Except Error Schema :=
  match stored with
  | .ok bytes => ofBytes bytes
  | .error fault => .error (.file fault)

end Catalog

end KeyedRows
