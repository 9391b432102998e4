import Pseudolang.CommandLine
import Pseudolang.Duration

/-!
# The program

Reads the file named by the arguments, measures the two steps of a check, and prints the report.
-/

namespace Pseudolang

/-- The number of a system error, which may come with its sign changed. -/
def systemNumber (code : UInt32) : Nat :=
  min code.toNat (0 - code).toNat

/-- Why the system refused to read a file. -/
def ReadFailure.ofError : IO.Error → ReadFailure
  | .noFileOrDirectory .. => .missing
  | .inappropriateType _ code details =>
    if systemNumber code = 21 then .isDirectory
    else if systemNumber code = 20 then .notDirectory
    else .refused details.capitalize (systemNumber code)
  | .permissionDenied _ code details => .refused details.capitalize (systemNumber code)
  | .invalidArgument _ code details => .refused details.capitalize (systemNumber code)
  | error => .refused (toString error) 0

/-- The bytes of the file at a path. -/
def readFile (path : String) : IO (Except ReadFailure ByteArray) := do
  try
    let bytes ← IO.FS.readBinFile path
    return .ok bytes
  catch error =>
    return .error (.ofError error)

/-- The time from one reading of the clock to another. -/
def elapsed (start stop : Nat) : String :=
  Duration.text ⟨stop - start⟩

/-- Takes the two steps of a check and measures them. -/
def timedSteps (source : String) : IO (List Token × Program × Timing) := do
  let start ← IO.monoNanosNow
  let tokens ← IO.lazyPure fun _ => tokenize source
  let tokenized ← IO.monoNanosNow
  let program ← IO.lazyPure fun _ => parse source
  let parsed ← IO.monoNanosNow
  let timing : Timing :=
    { tokenizing := elapsed start tokenized
      parsing := elapsed tokenized parsed
      total := elapsed start parsed }
  return (tokens, program, timing)

/-- The report on a run. -/
def runRequest (request : Request) : IO (Option Report) :=
  request.reportBy readFile timedSteps

end Pseudolang

def main (arguments : List String) : IO UInt32 := do
  match ← Pseudolang.runRequest (.ofArguments arguments) with
  | some report =>
    IO.print report.output
    IO.eprint report.errors
    return report.code.toUInt32
  | none =>
    IO.eprintln "a diagnostic is too wide to be shown"
    return 101
