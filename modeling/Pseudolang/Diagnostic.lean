import Pseudolang.Expr
import Pseudolang.Fault
import Pseudolang.Position
import Pseudolang.Text.Quoted

/-!
# Diagnostics

A diagnostic says what is wrong and where.  The cause is kept as data; everything that is printed of
a diagnostic is a function of the cause and the position.
-/

namespace Pseudolang

/-- What is wrong with a line. -/
inductive Cause
  /-- Some token stands where another was needed. -/
  | unexpectedToken (expected found : String)
  /-- No statement starts with the token. -/
  | invalidStatement (found : String)
  /-- The token is no token of the language. -/
  | illegalToken (fault : Fault) (found : String)
  /-- A bracket follows something other than a plain identifier. -/
  | invalidCallee (operator found : String)
  /-- A dimension of an array does not start at one. -/
  | invalidLowerBound (found : String)
  /-- Too many expressions are open inside each other. -/
  | nestingTooDeep (found : String)
  deriving DecidableEq

/-- What a diagnostic suggests, if anything. -/
inductive Advice
  | none
  | suggestion (text : String)
  deriving DecidableEq

/-- The text of the advice. -/
def Advice.text : Advice → String
  | none => ""
  | suggestion text => text

namespace Cause

/-- The name of the cause. -/
def name : Cause → String
  | unexpectedToken .. => "UnexpectedToken"
  | invalidStatement .. => "InvalidStatement"
  | illegalToken .. => "IllegalToken"
  | invalidCallee .. => "InvalidCallee"
  | invalidLowerBound .. => "InvalidLowerBound"
  | nestingTooDeep .. => "NestingTooDeep"

/-- What was needed. -/
def expected : Cause → String
  | unexpectedToken expected _ => expected
  | invalidStatement _ => "a statement"
  | illegalToken fault _ => fault.expected
  | invalidCallee operator _ => "an identifier before `" ++ operator ++ "`"
  | invalidLowerBound _ => "lower bound 1"
  | nestingTooDeep _ => "at most " ++ Nat.repr Expr.maxNesting ++ " nested expressions"

/-- What was found instead. -/
def found : Cause → String
  | unexpectedToken _ found => found
  | invalidStatement found => found
  | illegalToken _ found => found
  | invalidCallee _ found => found
  | invalidLowerBound found => found
  | nestingTooDeep found => found

/-- The fault of an illegal token. -/
def fault? : Cause → Option Fault
  | illegalToken fault _ => some fault
  | _ => none

/-- What to do about it. -/
def advice : Cause → Advice
  | unexpectedToken expected found =>
    .suggestion ("Expected " ++ expected ++ ", found `" ++ found ++ "`")
  | invalidStatement found =>
    .suggestion ("`" ++ found ++ "` cannot start a statement, " ++
      "expected DECLARE, CONSTANT, INPUT, OUTPUT or an assignment")
  | illegalToken fault _ => .suggestion fault.message
  | invalidCallee operator found =>
    .suggestion ("Only a plain identifier can be followed by `" ++ operator ++ "`, found `" ++
      found ++ "`")
  | invalidLowerBound found =>
    .suggestion ("Array dimensions always start at 1, found `" ++ found ++ "`")
  | nestingTooDeep _ =>
    .suggestion ("Expressions can nest at most " ++ Nat.repr Expr.maxNesting ++
      " levels deep, split this one up")

/-- The cause in one line, with the texts of the source in quotes. -/
def message : Cause → String
  | unexpectedToken expected found =>
    "unexpected token: expected " ++ expected ++ ", got " ++ Text.quoted found
  | invalidStatement found => "invalid statement: " ++ Text.quoted found
  | illegalToken fault found => "illegal token " ++ Text.quoted found ++ ": " ++ fault.message
  | invalidCallee operator found =>
    Text.quoted found ++ " cannot be followed by " ++ Text.quoted operator
  | invalidLowerBound found => "array lower bound must be 1, got " ++ Text.quoted found
  | nestingTooDeep found => "expression nested too deeply at " ++ Text.quoted found

end Cause

/-- A cause and where it arose. -/
structure Diagnostic where
  cause : Cause
  position : Position
  deriving DecidableEq

namespace Diagnostic

/-- The diagnostic in one line. -/
def text (d : Diagnostic) : String :=
  d.position.kept.text ++ "; expected " ++ d.cause.expected ++ ", got " ++ d.cause.found

/-- The name of the cause with the advice, if there is any. -/
def headline (d : Diagnostic) : String :=
  match d.cause.advice with
  | .none => "Error: " ++ d.cause.name
  | .suggestion text => "Error: " ++ d.cause.name ++ " (" ++ text ++ ")"

end Diagnostic

end Pseudolang
