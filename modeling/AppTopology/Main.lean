import AppTopology.CommandLine

namespace AppTopology

def readFile (path : String) : IO (Option String) :=
  try
    return some (← IO.FS.readFile path)
  catch _ => return none

end AppTopology

open AppTopology

def main (arguments : List String) : IO UInt32 := do
  let seed := (← IO.getRandomBytes 16).foldl (fun n byte => n * 256 + byte.toNat) 0
  let report ← CommandLine.run readFile (CommandLine.randomSupply seed) arguments
  IO.print report.output
  match report.failure with
  | none => return 0
  | some failure =>
    IO.eprintln failure.message
    return failure.code.toUInt32
