import Pseudolang.Token

/-!
# Expressions

An expression is a tree over tokens.  Parentheses of the source leave no node: the printed form puts
one pair around every operator instead.
-/

namespace Pseudolang

/-- An expression. -/
inductive Expr
  /-- An identifier or a literal. -/
  | atom (token : Token)
  /-- An operator before its operand. -/
  | unary (operator : Token) (operand : Expr)
  /-- An operator between its operands. -/
  | binary (operator : Token) (left right : Expr)
  /-- An operator after its operand. -/
  | suffix (operator : Token) (operand : Expr)
  | call (callee : Token) (arguments : List Expr)
  | index (callee : Token) (indexes : List Expr)

namespace Expr

/-- How many expressions may be open inside each other while one is read. -/
def maxNesting : Nat := 256

/-- The token of the expression, if it is an identifier and nothing else. -/
def identifier? : Expr → Option Token
  | atom token => if token.kind = .identifier then some token else none
  | _ => none

/-- Whether the expression is an identifier or a literal. -/
def isAtom : Expr → Bool
  | atom _ => true
  | _ => false

mutual

/-- The printed form, with one pair of parentheses around every operator. -/
def text : Expr → String
  | atom token => token.text
  | unary operator operand =>
    if operator.kind = .keyword .not then "(" ++ operator.text ++ " " ++ operand.text ++ ")"
    else "(" ++ operator.text ++ operand.text ++ ")"
  | binary operator left right =>
    "(" ++ left.text ++ " " ++ operator.text ++ " " ++ right.text ++ ")"
  | suffix operator operand => "(" ++ operand.text ++ operator.text ++ ")"
  | call callee arguments => callee.text ++ "(" ++ listText arguments ++ ")"
  | index callee indexes => callee.text ++ "[" ++ listText indexes ++ "]"

/-- The printed forms with a comma and a blank between them. -/
def listText : List Expr → String
  | [] => ""
  | e :: es => e.text ++ tailText es

/-- The printed forms with a comma and a blank before each of them. -/
def tailText : List Expr → String
  | [] => ""
  | e :: es => ", " ++ e.text ++ tailText es

end

end Expr

end Pseudolang
