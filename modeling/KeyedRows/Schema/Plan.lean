import KeyedRows.Error
import KeyedRows.Schema.Column

namespace KeyedRows

namespace Schema

/-- Checks columns from a position on, for a schema of `count` columns whose columns
before that position have the ordinals `seen`. The first column at fault decides,
and in it the range of its ordinal, then a repetition, then its type. -/
def checkFrom (count : Nat) : Nat → List Nat → Schema → Except Error Unit
  | _, _, [] => .ok ()
  | position, seen, c :: rest =>
    if count ≤ c.ordinal then .error (.ordinalOutside position c.ordinal count)
    else if seen.contains c.ordinal then .error (.ordinalRepeated c.ordinal)
    else if c.isKey && c.type.isList then .error (.listKey c.ordinal c.type)
    else checkFrom count (position + 1) (c.ordinal :: seen) rest

/-- Checks a whole schema. -/
def check (columns : Schema) : Except Error Unit :=
  checkFrom columns.length 0 [] columns

end Schema

/-- A schema that rows can be stored under, together with the byte order of values.
Every ordinal below the number of columns belongs to exactly one column, and no list
is part of the key. -/
structure Plan where
  columns : Schema
  order : ByteOrder
  /-- The schema has passed its check. -/
  checked : columns.check = .ok ()

namespace Plan

/-- Checks a schema and binds it to a byte order. -/
def of? (columns : Schema) (order : ByteOrder) : Except Error Plan :=
  match h : columns.check with
  | .ok () => .ok ⟨columns, order, h⟩
  | .error e => .error e

/-- The key columns, in schema order. -/
def keyColumns (plan : Plan) : Schema :=
  plan.columns.keyColumns

/-- The columns outside the key, in schema order. -/
def valueColumns (plan : Plan) : Schema :=
  plan.columns.valueColumns

/-- The number of slots of a row. -/
def rowLength (plan : Plan) : Nat :=
  plan.columns.length

end Plan

end KeyedRows
