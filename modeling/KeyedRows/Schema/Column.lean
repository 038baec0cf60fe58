import KeyedRows.Schema.ColumnType

namespace KeyedRows

/-- One column of a schema. -/
structure Column where
  type : ColumnType
  /-- The place of the column's value in a row. -/
  ordinal : Nat
  /-- Whether the value goes into the key. -/
  isKey : Bool := false
  /-- Whether the value may be absent. -/
  nullable : Bool := true
deriving DecidableEq, Repr

/-- The columns of a table, in an order of their own. Where a column's value stands
in a row is not its place here but its ordinal. -/
abbrev Schema := List Column

namespace Schema

/-- The key columns, in schema order. -/
def keyColumns (columns : Schema) : Schema :=
  columns.filter (·.isKey)

/-- The columns outside the key, in schema order. -/
def valueColumns (columns : Schema) : Schema :=
  columns.filter (!·.isKey)

end Schema

end KeyedRows
