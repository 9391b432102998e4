import Pseudolang.Diagnostic
import Pseudolang.Statement

/-!
# Programs

Every line of a source that holds a token has one outcome, a statement or a diagnostic.  A program
keeps the two apart, each in the order of the lines.
-/

namespace Pseudolang

/-- What one line came to. -/
abbrev Outcome := Except Diagnostic Statement

/-- The diagnostic that the outcome is, if it is one. -/
def Outcome.diagnostic? : Outcome → Option Diagnostic
  | .ok _ => none
  | .error d => some d

/-- The statements of a source and what is wrong with its other lines. -/
structure Program where
  statements : List Statement
  diagnostics : List Diagnostic

namespace Program

/-- The program of the outcomes of its lines. -/
def ofOutcomes : List Outcome → Program
  | [] => ⟨[], []⟩
  | .ok statement :: outcomes =>
    let rest := ofOutcomes outcomes
    { rest with statements := statement :: rest.statements }
  | .error diagnostic :: outcomes =>
    let rest := ofOutcomes outcomes
    { rest with diagnostics := diagnostic :: rest.diagnostics }

theorem statements_ofOutcomes (outcomes : List Outcome) :
    (ofOutcomes outcomes).statements = outcomes.filterMap Except.toOption := by
  induction outcomes with
  | nil => rfl
  | cons outcome outcomes ih =>
    cases outcome with
    | ok s => exact congrArg (s :: ·) ih
    | error d => exact ih

theorem diagnostics_ofOutcomes (outcomes : List Outcome) :
    (ofOutcomes outcomes).diagnostics = outcomes.filterMap Outcome.diagnostic? := by
  induction outcomes with
  | nil => rfl
  | cons outcome outcomes ih =>
    cases outcome with
    | ok s => exact ih
    | error d => exact congrArg (d :: ·) ih

theorem length_ofOutcomes (outcomes : List Outcome) :
    (ofOutcomes outcomes).statements.length + (ofOutcomes outcomes).diagnostics.length =
      outcomes.length := by
  induction outcomes with
  | nil => rfl
  | cons outcome outcomes ih =>
    cases outcome with
    | ok s => simp only [ofOutcomes, List.length_cons]; omega
    | error d => simp only [ofOutcomes, List.length_cons]; omega

/-- Whether some line is wrong. -/
def hasErrors (p : Program) : Bool :=
  !p.diagnostics.isEmpty

/-- The statements, one a line, and after them the diagnostics. -/
def listing (p : Program) : String :=
  String.join (p.statements.map fun s => s.listing ++ "\n") ++
    String.join (p.diagnostics.map fun d => "[ParseError] " ++ d.text ++ "\n")

end Program

end Pseudolang
