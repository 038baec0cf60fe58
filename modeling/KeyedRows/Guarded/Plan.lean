import KeyedRows.Guarded.Decoder

namespace KeyedRows.Guarded

/-- Sets the flag at an index. -/
def setFlag (flags : List Bool) (index : Nat) : Except Fault (List Bool) :=
  if index < flags.length then .ok (flags.set index true) else .error .outOfRange

/-- The places of the key columns and of the other columns. -/
structure Places where
  keys : List Nat
  values : List Nat
deriving DecidableEq

/-- Checks columns from a place on and puts their places behind those found before.
Of a schema of `count` columns, those before that place have the slots with a flag. -/
def splitFrom (count : Nat) :
    Nat → List Bool → Places → Schema → Except Fault (Except Error Places)
  | _, _, places, [] => .ok (.ok places)
  | place, taken, places, column :: columns =>
    if count ≤ column.ordinal then .ok (.error (.ordinalOutside place column.ordinal count))
    else do
      if ← Guard.element taken column.ordinal then return .error (.ordinalRepeated column.ordinal)
      else
        let taken ← setFlag taken column.ordinal
        if column.isKey then
          if column.type.isList then return .error (.listKey column.ordinal column.type)
          else splitFrom count (place + 1) taken { places with keys := places.keys ++ [place] } columns
        else splitFrom count (place + 1) taken { places with values := places.values ++ [place] } columns

/-- Checks a whole schema and finds the places of its columns, in one pass. A flag
for every slot of a row says whether a column has it already. -/
def split (columns : Schema) : Except Fault (Except Error Places) :=
  splitFrom columns.length 0 (List.replicate columns.length false) ⟨[], []⟩ columns

/-- The columns at some places of a schema. -/
def columnsAt (columns : Schema) : List Nat → Except Fault Schema
  | [] => .ok []
  | place :: places => do
    let column ← Guard.element columns place
    let rest ← columnsAt columns places
    return column :: rest

end KeyedRows.Guarded
