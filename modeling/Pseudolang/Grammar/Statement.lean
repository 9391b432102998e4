import Pseudolang.Grammar.Datatype
import Pseudolang.Statement

/-!
# Reading statements

The first token decides which statement a line is.  A statement ends where its line does; the token
that ends the line is left in place.
-/

namespace Pseudolang.Grammar

open Pseudolang.Parser

variable {σ : Type} [TokenStream σ]

/-- `DECLARE`, an identifier, a colon and a type. -/
def declareStatement : Parser σ Statement := do
  let _ ← take
  let identifier ← expect .identifier
  let _ ← expect (.symbol .colon)
  let w ← window
  if w.current.kind = .keyword .array then do
    let (bounds, element) ← arrayType
    endOfStatement
    pure (.declareArray identifier bounds element)
  else do
    let type ← datatype
    endOfStatement
    pure (.declare identifier type)

/-- `CONSTANT`, an identifier, an equals sign and a literal. -/
def constantStatement : Parser σ Statement := do
  let _ ← take
  let identifier ← expect .identifier
  let _ ← expect (.symbol .equals)
  let w ← window
  if w.current.isLiteral then do
    let value ← take
    endOfStatement
    pure (.constant identifier value)
  else unexpected "a literal value"

/-- An identifier, indexes in brackets, an arrow and the value for that element. -/
def assignElementStatement : Parser σ Statement := do
  let identifier ← take
  let _ ← expect (.symbol .openBracket)
  let indexes ← exprList (.symbol .closeBracket) false
  let _ ← expect (.symbol .assign)
  let value ← expr minPower
  endOfStatement
  pure (.assignElement identifier indexes value)

/-- An identifier, an arrow and a value. -/
def assignPlainStatement : Parser σ Statement := do
  let identifier ← take
  let _ ← expect (.symbol .assign)
  let value ← expr minPower
  endOfStatement
  pure (.assign identifier value)

/-- An assignment, to an element when a bracket follows the identifier. -/
def assignStatement : Parser σ Statement := do
  let w ← window
  if w.peek.kind = .symbol .openBracket then assignElementStatement else assignPlainStatement

/-- `INPUT` and an identifier. -/
def inputStatement : Parser σ Statement := do
  let _ ← take
  let identifier ← expect .identifier
  endOfStatement
  pure (.input identifier)

/-- `OUTPUT` and values with commas between them. -/
def outputStatement : Parser σ Statement := do
  let _ ← take
  let values ← commaSeparated (expr minPower)
  endOfStatement
  pure (.output values)

/-- The parser for the statements that start with a token of the kind. -/
def statementOf? : Kind → Option (Parser σ Statement)
  | .keyword .declare => some declareStatement
  | .keyword .constant => some constantStatement
  | .identifier => some assignStatement
  | .keyword .input => some inputStatement
  | .keyword .output => some outputStatement
  | _ => none

/-- A statement. -/
def statement : Parser σ Statement := do
  let w ← window
  match statementOf? w.current.kind with
  | some parser => parser
  | none => fail w.notStatement

end Pseudolang.Grammar
