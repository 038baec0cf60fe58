import KeyedRows.Command.Run

namespace KeyedRows.Command

/-- The cause of a fault of the system. -/
def FileFault.ofSystem : IO.Error → FileFault
  | .noFileOrDirectory .. => .notFound
  | e => .other (toString e)

/-- The files of the machine. -/
def Files.machine : Files IO where
  read path := do
    try
      let bytes ← IO.FS.readBinFile path
      return .ok bytes.toList
    catch e => return .error (FileFault.ofSystem e)
  write path bytes := do
    try
      IO.FS.writeBinFile path bytes.toByteArray
      return .ok ()
    catch e => return .error (FileFault.ofSystem e)

/-- Prints an outcome and gives its status. Rejected arguments are answered with the
help text. -/
def Outcome.show (outcome : Outcome) : IO UInt32 := do
  IO.print outcome.output
  match outcome.message with
  | some text => IO.eprintln text
  | none => if outcome.status = 2 then IO.eprint helpText
  return UInt32.ofNat outcome.status

end KeyedRows.Command

open KeyedRows KeyedRows.Command in
/-- Runs the command line. -/
def main (arguments : List String) : IO UInt32 := do
  (← execute .digitPairs .machine arguments).show
