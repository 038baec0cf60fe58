import KeyedRows.Row.Frame
import KeyedRows.Schema.Column
import KeyedRows.Settings

namespace KeyedRows

namespace Settings

/-- The room for a value in a key. A string takes one group more than it fills. -/
def keyRoom (settings : Settings) (type : ColumnType) : Nat :=
  match type.width? with
  | some width => width
  | none => (settings.stringLength / Frame.groupSize + 1) * (Frame.groupSize + 1)

/-- The room for an item outside the key. -/
def itemRoom (settings : Settings) (kind : Scalar) : Nat :=
  match kind.width? with
  | some width => width
  | none => Frame.lengthSize + settings.stringLength

/-- The room for a value outside the key. -/
def valueRoom (settings : Settings) : ColumnType → Nat
  | .scalar kind => settings.itemRoom kind
  | .list item => Frame.lengthSize + settings.listLength * settings.itemRoom item

end Settings

namespace Schema

/-- The room for the marker of a column. -/
def markerRoom (column : Column) : Nat :=
  if column.nullable then Frame.markerSize else 0

/-- The room for the markers and values of columns, given the room for a value of
each type. It is exact for columns of fixed width, and enough for all others whose
strings and lists are no longer than assumed. -/
def slotRoom (valueRoom : ColumnType → Nat) : Schema → Nat
  | [] => 0
  | column :: columns =>
    markerRoom column + valueRoom column.type + slotRoom valueRoom columns

/-- The room for a key. -/
def keyRoom (columns : Schema) (settings : Settings) : Nat :=
  Frame.openingSize + Frame.trailerSize + slotRoom settings.keyRoom columns.keyColumns

/-- The room for a value. -/
def valueRoom (columns : Schema) (settings : Settings) : Nat :=
  Frame.headerSize + slotRoom settings.valueRoom columns.valueColumns

end Schema

end KeyedRows
