import Pseudolang.Fault
import Pseudolang.Kind
import Pseudolang.Position
import Pseudolang.Text.Quoted

/-!
# Tokens

A token is a piece of the source text with its kind and the position of its first character.  The
kind of a literal is its datatype; `isLiteral` tells the literal from the datatype's name.  An
illegal token carries its fault.
-/

namespace Pseudolang

/-- A token, with where it stands. -/
structure Token where
  kind : Kind
  /-- The text of the token as it stands in the source. -/
  text : String
  position : Position
  /-- Whether the token is a value literal. -/
  isLiteral : Bool := false
  /-- What is wrong with the text, for an illegal token. -/
  fault : Option Fault := none
  deriving DecidableEq

namespace Token

/-- What is kept of the token, which is all but a part of large positions. -/
def kept (t : Token) : Token :=
  { t with position := t.position.kept }

/-- The line of the token in a token dump. -/
def display (t : Token) : String :=
  "Token(" ++ t.kind.name ++ ", " ++ Text.quoted t.text ++ ", line=" ++
    Nat.repr t.position.kept.line ++ ", column=" ++ Nat.repr t.position.kept.column ++ ")"

/-- How a diagnostic names the token it found. -/
def describe (t : Token) : String :=
  if t.kind.endsStatement then t.kind.describe else t.text

/-- Whether the token is an operand by itself. -/
def isAtom (t : Token) : Bool :=
  t.kind = .identifier ∨ t.isLiteral

/-- Whether the token ends a statement. -/
def endsStatement (t : Token) : Bool :=
  t.kind.endsStatement

/-- The text of a string or character literal without its quotes, and the text of any other token.
There is none when the quotes cannot be cut off. -/
def unquoted? (t : Token) : Option String :=
  if t.isLiteral ∧ (t.kind = .native .string ∨ t.kind = .native .char) then
    Text.unquoted? t.text
  else
    some t.text

end Token

end Pseudolang
