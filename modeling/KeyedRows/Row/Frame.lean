import KeyedRows.Bytes.Basic
import KeyedRows.Number.SignBit

namespace KeyedRows.Frame

/-- The version of the format, which is the last byte of every key. -/
def formatVersion : UInt8 := 1

/-- The width of the tag byte and the common id. -/
def openingSize : Nat := 9

/-- The width of the trailer: three reserved zero bytes and the version of the
format. -/
def trailerSize : Nat := 4

/-- The width of the schema version. -/
def headerSize : Nat := 4

/-- The width of the marker in front of a nullable column. -/
def markerSize : Nat := 1

/-- The marker of an absent value. It is below the other one, so absent values come
first. -/
def absentMarker : UInt8 := 0

/-- The marker of a present value. -/
def presentMarker : UInt8 := 1

/-- The number of data bytes in a group of a string in a key. -/
def groupSize : Nat := 8

/-- The marker behind a group that is full and not the last. -/
def fullGroup : UInt8 := 0xFF

/-- The width of the length of a string and of the count of a list. -/
def lengthSize : Nat := 4

/-- The lengths and counts that a signed field of `lengthSize` bytes can hold lie
below this. -/
def lengthLimit : Nat := signBit32

/-- The trailer, in the order of the key's bytes. -/
def trailer : Bytes := [0, 0, 0, formatVersion]

end KeyedRows.Frame
