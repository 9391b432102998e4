import Pseudolang.Diagnostic.Excerpt
import Pseudolang.Grammar.Program

/-!
# The command line

A run of the command checks one file or lists its tokens.  What it prints and how it ends is a
`Report`, which depends on the arguments, on what reading the file gave, and on how long the two
steps of a check took; the outer program only reads, measures and prints.
-/

namespace Pseudolang

/-- What the arguments ask for. -/
inductive Request
  /-- The arguments make no sense. -/
  | usage
  /-- Read the program in the file and report on it. -/
  | check (path : String)
  /-- List the tokens of the file. -/
  | listTokens (path : String)
  deriving DecidableEq

/-- Reads the arguments, without the name of the command. -/
def Request.ofArguments : List String → Request
  | [path] => .check path
  | [path, flag] => if flag = "--tokens" then .listTokens path else .usage
  | _ => .usage

/-- Why a file cannot be read as text. -/
inductive ReadFailure
  | missing
  | isDirectory
  | notDirectory
  /-- The bytes are no text. -/
  | notText
  /-- Any other refusal of the system, with its number. -/
  | refused (reason : String) (number : Nat)
  deriving DecidableEq

/-- The reason as it is printed. -/
def ReadFailure.text : ReadFailure → String
  | missing => "No such file or directory (os error 2)"
  | isDirectory => "Is a directory (os error 21)"
  | notDirectory => "Not a directory (os error 20)"
  | notText => "stream did not contain valid UTF-8"
  | refused reason number => reason ++ " (os error " ++ Nat.repr number ++ ")"

/-- The text that the bytes of a file encode. -/
def decodeText (bytes : ByteArray) : Except ReadFailure String :=
  match String.fromUTF8? bytes with
  | some text => .ok text
  | none => .error .notText

/-- The components of a path that lead somewhere. -/
def pathComponents (path : String) : List String :=
  (path.splitOn "/").filter fun part => part ≠ "" ∧ part ≠ "."

/-- The last component of a path, by which diagnostics name the file. -/
def fileName (path : String) : String :=
  match (pathComponents path).getLast? with
  | none => path
  | some part => if part = ".." then path else part

/-- How long the steps of a check took, as text. -/
structure Timing where
  tokenizing : String
  parsing : String
  total : String

/-- What a run prints and the code it ends with. -/
structure Report where
  output : String := ""
  errors : String := ""
  code : Nat := 0
  deriving DecidableEq

namespace Report

def usage : Report where
  errors := "Usage: pseudocode <file> [--tokens]\n"
  code := 2

/-- The report on a file that cannot be read. -/
def unreadable (path : String) (failure : ReadFailure) : Report where
  errors := "Failed to read " ++ path ++ ": " ++ failure.text ++ "\n"
  code := 1

/-- The tokens one a line, the end of file left out. -/
def ofTokens (tokens : List Token) : Report where
  output := String.join ((tokens.filter (·.kind ≠ .endOfFile)).map fun t => t.display ++ "\n")

/-- The report on a program, unless one of its diagnostics cannot be shown. -/
def ofProgram? (tokens : List Token) (program : Program) (source path : String)
    (timing : Timing) : Option Report := do
  let rendered ← program.diagnostics.mapM (·.render? source (fileName path))
  pure
    { output :=
        "Tokenized " ++ Nat.repr tokens.length ++ " tokens in " ++ timing.tokenizing ++ "\n" ++
        "Parsed in " ++ timing.parsing ++ "\n" ++
        String.join (program.statements.map fun s => s.listing ++ "\n") ++
        String.join rendered ++
        "Total time: " ++ timing.total ++ "\n"
      code := if program.hasErrors then 1 else 0 }

end Report

/-- A whole run, given how a file is read and how the two steps of a check are taken. -/
def Request.reportBy {m : Type → Type} [Monad m]
    (read : String → m (Except ReadFailure ByteArray))
    (steps : String → m (List Token × Program × Timing)) : Request → m (Option Report)
  | .usage => pure (some .usage)
  | .check path => do
    match (← read path) >>= decodeText with
    | .error failure => pure (some (.unreadable path failure))
    | .ok source => do
      let (tokens, program, timing) ← steps source
      pure (Report.ofProgram? tokens program source path timing)
  | .listTokens path => do
    match (← read path) >>= decodeText with
    | .error failure => pure (some (.unreadable path failure))
    | .ok source => pure (some (.ofTokens (tokenize source)))

/-- The same when it is known what every file holds and how long the steps take. -/
def Request.report? (request : Request) (read : String → Except ReadFailure ByteArray)
    (timing : Timing) : Option Report :=
  Id.run <| request.reportBy (fun path => pure (read path))
    fun source => pure (tokenize source, parse source, timing)

end Pseudolang
