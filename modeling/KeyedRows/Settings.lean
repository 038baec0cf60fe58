import KeyedRows.Bytes.Basic

namespace KeyedRows

/-- How values are laid out, and the lengths assumed when room is set aside for
them. -/
structure Settings where
  /-- The order of the numbers outside the key. Keys are big-endian always. -/
  order : ByteOrder := .big
  /-- The assumed number of bytes of a string. -/
  stringLength : Nat := 32
  /-- The assumed number of elements of a list. -/
  listLength : Nat := 8
deriving DecidableEq, Repr

/-- The byte order of the machines that the library is run on. -/
def ByteOrder.native : ByteOrder := .little

/-- The usual settings with the byte order of the machine. -/
def Settings.native : Settings :=
  { order := .native }

end KeyedRows
