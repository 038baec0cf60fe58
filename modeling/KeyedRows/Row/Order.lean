import KeyedRows.Record
import KeyedRows.Schema.Column
import KeyedRows.Text.Utf8

namespace KeyedRows

namespace Binary.Format

/-- The order of bit patterns: those with the sign bit come first, from the greatest
magnitude down, and then those without it, upwards. -/
def compareTotal (fmt : Format) (a b : Nat) : Ordering :=
  if a < fmt.signWeight then if b < fmt.signWeight then compare a b else .gt
  else if b < fmt.signWeight then .lt
  else compare b a

end Binary.Format

/-- The order of the items of a type: `false` before `true`, integers by size,
strings by their UTF-8 bytes, and floating-point numbers by sign and size, so that
the negative zero comes before the other one and what is not a number lies at the
two ends. -/
def Scalar.compareItems : (kind : Scalar) → kind.Item → kind.Item → Ordering
  | .bool, a, b => compare a b
  | .int32, a, b => compare a.toInt b.toInt
  | .int64, a, b => compare a.toInt b.toInt
  | .float32, a, b => Binary.single.compareTotal a.bits.toNat b.bits.toNat
  | .float64, a, b => Binary.double.compareTotal a.bits.toNat b.bits.toNat
  | .string, a, b => compare (Utf8.encode a) (Utf8.encode b)

/-- The order of slots: an absent value comes before every present one. Only values
of one scalar type are told apart, since no others stand in one key column. -/
def Slot.compare : Slot → Slot → Ordering
  | none, none => .eq
  | none, some _ => .lt
  | some _, none => .gt
  | some (.scalar kind a), some (.scalar other b) =>
    if h : other = kind then kind.compareItems a (h ▸ b) else .eq
  | some _, some _ => .eq

/-- The order of rows by columns: the first column whose slots differ decides. -/
def Record.compareBy : Schema → Record → Record → Ordering
  | [], _, _ => .eq
  | column :: columns, a, b =>
    (Slot.compare (a.slot? column.ordinal).join (b.slot? column.ordinal).join).then
      (Record.compareBy columns a b)

end KeyedRows
