import Pseudolang.Grammar.Parser
import Pseudolang.Power

/-!
# Reading expressions

An expression is an operand and whatever operators extend it.  How far it reaches is decided by one
number, the power asked for by what stands before it: operators extend the operand for as long as
their left power is above it.

The pieces below are given the parser `sub` for the expressions inside an expression, as a function
of the power that is asked of them.  `exprAt` ties the knot with a number of levels that may still
be opened, and `expr` takes that number from the window, so that no more than `Expr.maxNesting`
expressions are ever open.
-/

namespace Pseudolang.Grammar

open Pseudolang.Parser

variable {σ : Type} [TokenStream σ]

/-! ## Operands and lists -/

section Pieces

variable (sub : Nat → Parser σ Expr)

/-- An expression in parentheses, the current token being the opening one. -/
def groupWith : Parser σ Expr := do
  let _ ← take
  let e ← sub minPower
  let _ ← expect (.symbol .closeParen)
  pure e

/-- The current token as an operator before its operand. -/
def unaryWith (power : Nat) : Parser σ Expr := do
  let operator ← take
  let operand ← sub power
  pure (.unary operator operand)

/-- An operand: an atom, an expression in parentheses, or an operator before its own operand. -/
def operandWith : Parser σ Expr := do
  let w ← window
  if w.current.isAtom then do
    let token ← take
    pure (.atom token)
  else if w.current.kind = .symbol .openParen then groupWith sub
  else
    match w.current.kind.unaryPower? with
    | some power => unaryWith sub power
    | none => unexpected "an expression"

/-- Expressions with commas between them, up to and including the closing token. -/
def listWith (closing : Kind) (allowEmpty : Bool) : Parser σ (List Expr) := do
  let w ← window
  if allowEmpty ∧ w.current.kind = closing then do
    let _ ← take
    pure []
  else do
    let items ← commaSeparated (sub minPower)
    let w ← window
    let _ ← expectOr closing (w.unexpected ("`,` or " ++ closing.describe))
    pure items

/-! ## Operators -/

/-- What may be called or indexed: an identifier that stands outside parentheses. -/
def callee? (left : Expr) (grouped : Bool) : Option Token :=
  if grouped then none else left.identifier?

/-- How a diagnostic names what cannot be called or indexed.  An atom in parentheses is shown with
them, since it would be right without. -/
def calleeText (left : Expr) (grouped : Bool) : String :=
  if left.isAtom ∧ grouped then "(" ++ left.text ++ ")" else left.text

/-- What an operator after its operand makes of it, the operator being taken: a call, an indexing or
a dereference. -/
def suffixAfter (left : Expr) (grouped : Bool) (operator : Token) : Parser σ Expr :=
  if operator.kind = .symbol .openParen ∨ operator.kind = .symbol .openBracket then
    match callee? left grouped with
    | none => fail ⟨.invalidCallee operator.text (calleeText left grouped), operator.position⟩
    | some callee =>
      if operator.kind = .symbol .openParen then do
        let arguments ← listWith sub (.symbol .closeParen) true
        pure (.call callee arguments)
      else do
        let indexes ← listWith sub (.symbol .closeBracket) false
        pure (.index callee indexes)
  else pure (.suffix operator left)

/-- What an operator between two operands makes of the left one, the operator being taken. -/
def binaryAfter (left : Expr) (power : Nat) (operator : Token) : Parser σ Expr := do
  let right ← sub power
  pure (.binary operator left right)

/-- The current token as an operator after `left`. -/
def suffixWith (left : Expr) (grouped : Bool) : Parser σ Expr := do
  let operator ← take
  suffixAfter sub left grouped operator

/-- The current token as an operator between `left` and an operand of the given power. -/
def binaryWith (left : Expr) (power : Nat) : Parser σ Expr := do
  let operator ← take
  binaryAfter sub left power operator

end Pieces

/-- How a token extends the operand on its left. -/
inductive Extension
  /-- As an operator after it. -/
  | suffix
  /-- As an operator that asks for the given power of the operand on its right. -/
  | binary (power : Nat)
  deriving DecidableEq

/-- The power of the current token as an operator after its operand.  A caret is one only where no
operand can follow it. -/
def suffixPower? (w : Window σ) : Option Nat :=
  if w.current.kind = .symbol .caret ∧ w.peek.startsExpression then none
  else w.current.kind.suffixPower?

/-- How the current token extends the operand before it, if it binds tighter than `power`. -/
def extension? (power : Nat) (w : Window σ) : Option Extension :=
  match suffixPower? w with
  | some left => if power < left then some .suffix else none
  | none =>
    match w.current.kind.binaryPower? with
    | some p => if power < p.left then some (.binary p.right) else none
    | none => none

section Operators

variable (sub : Nat → Parser σ Expr)

/-- One extension of the operand on the left, the operator being taken. -/
def extendBy (grouped : Bool) : Extension → Token → Expr → Parser σ Expr
  | .suffix, operator, left => suffixAfter sub left grouped operator
  | .binary power, operator, left => binaryAfter sub left power operator

/-- An operand with every operator that binds tighter than `power`. -/
def operatorsWith (power : Nat) : Parser σ Expr := do
  let w ← window
  let first ← operandWith sub
  iterate (extension? power) (extendBy sub (w.current.kind = .symbol .openParen)) first

end Operators

/-! ## Expressions -/

/-- An expression whose operators all bind tighter than `power`, with the given number of levels
left to open. -/
def exprAt : Nat → Nat → Parser σ Expr
  | 0, _ => do
    let w ← window
    fail w.tooDeep
  | levels + 1, power => nested (operatorsWith (exprAt levels) power)

/-- An expression whose operators all bind tighter than `power`. -/
def expr (power : Nat) : Parser σ Expr where
  exec w := (exprAt (Expr.maxNesting - w.depth) power).exec w
  follows w := (exprAt (Expr.maxNesting - w.depth) power).follows w

/-- An operand. -/
def operand : Parser σ Expr :=
  operandWith expr

/-- The current token as an operator before an operand of the given power. -/
def unary (power : Nat) : Parser σ Expr :=
  unaryWith expr power

/-- An expression in parentheses. -/
def group : Parser σ Expr :=
  groupWith expr

/-- The current token as an operator between `left` and an operand of the given power. -/
def binary (left : Expr) (power : Nat) : Parser σ Expr :=
  binaryWith expr left power

/-- The current token as an operator after `left`, which stands in parentheses if `grouped`. -/
def suffix (left : Expr) (grouped : Bool) : Parser σ Expr :=
  suffixWith expr left grouped

/-- Expressions with commas between them, up to and including the closing token. -/
def exprList (closing : Kind) (allowEmpty : Bool) : Parser σ (List Expr) :=
  listWith expr closing allowEmpty

/-- One expression that takes the rest of its line. -/
def standalone : Parser σ Expr := do
  let e ← expr minPower
  endOfStatement
  pure e

end Pseudolang.Grammar
