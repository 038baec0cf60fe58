import KeyedRows.Number.Binary
import KeyedRows.Schema.ColumnType

namespace KeyedRows

/-- A floating-point number of 32 bits. -/
structure Float32Bits where
  bits : UInt32
deriving DecidableEq, Repr

/-- A floating-point number of 64 bits. -/
structure Float64Bits where
  bits : UInt64
deriving DecidableEq, Repr

/-- The items of a scalar type. -/
abbrev Scalar.Item : Scalar → Type
  | .bool => Bool
  | .int32 => Int32
  | .int64 => Int64
  | .float32 => Float32Bits
  | .float64 => Float64Bits
  | .string => String

instance (kind : Scalar) : DecidableEq kind.Item :=
  match kind with
  | .bool => inferInstanceAs (DecidableEq Bool)
  | .int32 => inferInstanceAs (DecidableEq Int32)
  | .int64 => inferInstanceAs (DecidableEq Int64)
  | .float32 => inferInstanceAs (DecidableEq Float32Bits)
  | .float64 => inferInstanceAs (DecidableEq Float64Bits)
  | .string => inferInstanceAs (DecidableEq String)

/-- A present value of a column. Floating-point numbers are bit patterns, so that
two values are the same only if all their bits are. -/
inductive Value where
  | scalar (kind : Scalar) (item : kind.Item)
  | list (kind : Scalar) (items : List kind.Item)
deriving DecidableEq

namespace Value

/-- The column type that a value belongs to. -/
def type : Value → ColumnType
  | scalar kind _ => .scalar kind
  | list kind _ => .list kind

end Value

/-- Whether two items are equal as numbers: floating-point numbers compare by what
they stand for, all others are equal only to themselves. -/
def Scalar.numericEq : (kind : Scalar) → kind.Item → kind.Item → Bool
  | .float32, a, b => Binary.single.numericEq a.bits.toNat b.bits.toNat
  | .float64, a, b => Binary.double.numericEq a.bits.toNat b.bits.toNat
  | _, a, b => a == b

namespace Value

/-- Whether two values are equal as numbers, item by item. Values of different types
are not. -/
def numericEq : Value → Value → Bool
  | scalar kind a, scalar other b =>
    if h : other = kind then kind.numericEq a (h ▸ b) else false
  | list kind as, list other bs =>
    if h : other = kind then
      let bs : List kind.Item := h ▸ bs
      as.length == bs.length && (as.zip bs).all fun (a, b) => kind.numericEq a b
    else false
  | _, _ => false

end Value

end KeyedRows
