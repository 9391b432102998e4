import Pseudolang.Grammar.Expression

/-!
# Reading datatypes

A datatype is the name of a built-in or user-defined type.  An array type lists its dimensions, each
from the literal `1` to a bound that may be any expression.
-/

namespace Pseudolang.Grammar

open Pseudolang.Parser

variable {σ : Type} [TokenStream σ]

/-- Whether the token names a datatype. -/
def namesDatatype (t : Token) : Bool :=
  (t.kind.isNative && !t.isLiteral) || t.kind = .identifier

/-- The name of a datatype. -/
def datatype : Parser σ Token := do
  let w ← window
  if namesDatatype w.current then take else unexpected "a datatype"

/-- The literal `1`. -/
def lowerBound : Parser σ Token := do
  let w ← window
  if w.current.kind = .native .integer ∧ w.current.isLiteral then
    if w.current.text = "1" then take
    else fail ⟨.invalidLowerBound w.current.text, w.current.position⟩
  else unexpected "lower bound 1"

/-- One dimension of an array, as its bound. -/
def dimension : Parser σ Expr := do
  let _ ← lowerBound
  let _ ← expect (.symbol .colon)
  expr minPower

/-- An array type, as the bounds of its dimensions and the datatype of its elements. -/
def arrayType : Parser σ (List Expr × Token) := do
  let _ ← expect (.keyword .array)
  let _ ← expect (.symbol .openBracket)
  let bounds ← commaSeparated dimension
  let w ← window
  let _ ← expectOr (.symbol .closeBracket) (w.unexpected "`,` or `]`")
  let _ ← expect (.keyword .ofType)
  let element ← datatype
  pure (bounds, element)

end Pseudolang.Grammar
