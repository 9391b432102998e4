import Pseudolang.Token

/-!
# Binding powers

An operator goes on extending the operand on its left for as long as its left power is above the
power asked for by what stands before that operand, and then asks for its own right power of the
operand on its right.  Equal powers group to the left, a left power above the right one groups to
the right.

The caret is written both between two operands and after one.  Which it is depends on whether the
next token can start an operand (`Token.startsExpression`).
-/

namespace Pseudolang

/-- The powers of an operator between two operands. -/
structure BindingPower where
  left : Nat
  right : Nat
  deriving DecidableEq

/-- The power that a whole expression asks for: every operator binds tighter. -/
def minPower : Nat := 0

namespace Kind

/-- The right power of an operator before its operand.  `NOT` takes a whole comparison; the sign
binds tighter than a product and looser than a power. -/
def unaryPower? : Kind → Option Nat
  | keyword .not => some 4
  | symbol .minus => some 15
  | _ => none

/-- The powers of an operator between two operands. -/
def binaryPower? : Kind → Option BindingPower
  | keyword .or => some ⟨1, 1⟩
  | keyword .and => some ⟨3, 3⟩
  | symbol .equals | symbol .notEquals => some ⟨5, 5⟩
  | symbol .less | symbol .lessEquals | symbol .greater | symbol .greaterEquals => some ⟨7, 7⟩
  | symbol .ampersand => some ⟨9, 9⟩
  | symbol .plus | symbol .minus => some ⟨11, 11⟩
  | symbol .star | symbol .slash | keyword .div | keyword .mod => some ⟨13, 13⟩
  | symbol .caret => some ⟨18, 17⟩
  | symbol .dot => some ⟨22, 21⟩
  | _ => none

/-- The left power of an operator after its operand: the dereferencing caret, and the brackets that
open a call or an indexing. -/
def suffixPower? : Kind → Option Nat
  | symbol .caret => some 19
  | symbol .openParen | symbol .openBracket => some 23
  | _ => none

end Kind

/-- Whether an expression can start with the token.  An illegal token counts, so that it is reported
where it stands. -/
def Token.startsExpression (t : Token) : Bool :=
  t.isAtom || t.kind = .symbol .openParen || t.kind = .illegal || t.kind.unaryPower?.isSome

end Pseudolang
