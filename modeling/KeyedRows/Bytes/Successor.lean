import KeyedRows.Bytes.Basic

namespace KeyedRows.Bytes

/-- Adds one to the last byte that is not `0xFF` and drops what follows it. The
result is the least byte string above every string that starts with the given one;
there is none if the given string is empty or holds `0xFF` only. -/
def successor? : Bytes → Option Bytes
  | [] => none
  | b :: rest =>
    match successor? rest with
    | some tail => some (b :: tail)
    | none => if b = 0xFF then none else some [b + 1]

end KeyedRows.Bytes
