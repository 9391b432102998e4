import Mathlib.Data.Nat.Notation
import Pseudolang.Expr
import Pseudolang.Power

/-!
# Grouped trees

An expression keeps no parentheses, brackets or commas.  A `Grouped` tree is an expression as it is
written: the same tree with all its tokens, where any subtree may stand in one or more pairs of
parentheses.  `Grouped.tokens` lists the tokens in the order of the text and `Grouped.toExpr`
forgets what an expression does not keep.

Which grouped trees the binding powers allow is said without the parser.  Along the right spine of
a tree (from an operator between operands to its right operand, from one before its operand to that
operand) stand the right powers that a following operator has to undercut, and along its left spine
the left powers that have to be above what a preceding operator asks for.  A pair of parentheses
ends both spines.

* `Grouped.WellFormed` — every token is of the kind that its place asks for;
* `Grouped.Binds` — the spines of the operands agree with the powers of their operators;
* `Grouped.DerefsClear` — no dereferencing caret stands before a token that could start an operand;
* `Grouped.levels` — how many expressions are open at once while the tree is read.
-/

namespace Pseudolang

mutual

/-- An expression as it is written. -/
inductive Grouped
  /-- An identifier or a literal. -/
  | atom (token : Token)
  /-- A tree in a pair of parentheses. -/
  | group (opening : Token) (inner : Grouped) (closing : Token)
  /-- An operator before its operand. -/
  | unary (operator : Token) (operand : Grouped)
  /-- An operator between its operands. -/
  | binary (operator : Token) (left right : Grouped)
  /-- An operator after its operand. -/
  | suffix (operator : Token) (operand : Grouped)
  /-- A call without arguments. -/
  | callNone (callee opening closing : Token)
  | call (callee opening : Token) (arguments : Items)
  | index (callee opening : Token) (indexes : Items)

/-- One or more trees with commas between them, and the token that closes the list. -/
inductive Items
  | last (item : Grouped) (closing : Token)
  | more (item : Grouped) (comma : Token) (rest : Items)

end

/-! ## The two readings of a grouped tree -/

/-- The token that closes a list. -/
def Items.closing : Items → Token
  | .last _ closing => closing
  | .more _ _ rest => rest.closing

mutual

/-- The tokens of the tree in the order of the text. -/
def Grouped.tokens : Grouped → List Token
  | .atom token => [token]
  | .group opening inner closing => opening :: (inner.tokens ++ [closing])
  | .unary operator operand => operator :: operand.tokens
  | .binary operator left right => left.tokens ++ operator :: right.tokens
  | .suffix operator operand => operand.tokens ++ [operator]
  | .callNone callee opening closing => [callee, opening, closing]
  | .call callee opening arguments => callee :: opening :: (arguments.body ++ [arguments.closing])
  | .index callee opening indexes => callee :: opening :: (indexes.body ++ [indexes.closing])

/-- The tokens of a list but for the closing one. -/
def Items.body : Items → List Token
  | .last item _ => item.tokens
  | .more item comma rest => item.tokens ++ comma :: rest.body

end

mutual

/-- The expression that the tree is a written form of. -/
def Grouped.toExpr : Grouped → Expr
  | .atom token => .atom token
  | .group _ inner _ => inner.toExpr
  | .unary operator operand => .unary operator operand.toExpr
  | .binary operator left right => .binary operator left.toExpr right.toExpr
  | .suffix operator operand => .suffix operator operand.toExpr
  | .callNone callee _ _ => .call callee []
  | .call callee _ arguments => .call callee arguments.toExprs
  | .index callee _ indexes => .index callee indexes.toExprs

/-- The expressions that the trees of a list are written forms of. -/
def Items.toExprs : Items → List Expr
  | .last item _ => [item.toExpr]
  | .more item _ rest => item.toExpr :: rest.toExprs

end

/-! ## Which trees are allowed -/

mutual

/-- Every token of the tree is of a kind that may stand where it does. -/
def Grouped.WellFormed : Grouped → Prop
  | .atom token => token.isAtom
  | .group opening inner closing =>
    opening.kind = .symbol .openParen ∧ inner.WellFormed ∧ closing.kind = .symbol .closeParen
  | .unary operator operand => operator.kind.unaryPower?.isSome ∧ operand.WellFormed
  | .binary operator left right =>
    operator.kind.binaryPower?.isSome ∧ left.WellFormed ∧ right.WellFormed
  | .suffix operator operand => operator.kind = .symbol .caret ∧ operand.WellFormed
  | .callNone callee opening closing =>
    callee.kind = .identifier ∧ opening.kind = .symbol .openParen ∧
      closing.kind = .symbol .closeParen
  | .call callee opening arguments =>
    callee.kind = .identifier ∧ opening.kind = .symbol .openParen ∧
      arguments.WellFormed (.symbol .closeParen)
  | .index callee opening indexes =>
    callee.kind = .identifier ∧ opening.kind = .symbol .openBracket ∧
      indexes.WellFormed (.symbol .closeBracket)

/-- The trees of a list are well-formed, with commas between them and a token of kind `closing` at
the end. -/
def Items.WellFormed (closing : Kind) : Items → Prop
  | .last item token => item.WellFormed ∧ token.kind = closing
  | .more item comma rest =>
    item.WellFormed ∧ comma.kind = .symbol .comma ∧ rest.WellFormed closing

end

/-- The right powers of the operators on the right spine, outside parentheses. -/
def Grouped.rightPowers : Grouped → List ℕ
  | .unary operator operand => operator.kind.unaryPower?.toList ++ operand.rightPowers
  | .binary operator _ right =>
    (operator.kind.binaryPower?.map BindingPower.right).toList ++ right.rightPowers
  | _ => []

/-- The left powers of the operators on the left spine, outside parentheses.  The bracket of a call
or an indexing is an operator after the identifier. -/
def Grouped.leftPowers : Grouped → List ℕ
  | .binary operator left _ =>
    (operator.kind.binaryPower?.map BindingPower.left).toList ++ left.leftPowers
  | .suffix operator operand => operator.kind.suffixPower?.toList ++ operand.leftPowers
  | .callNone _ opening _ => opening.kind.suffixPower?.toList
  | .call _ opening _ => opening.kind.suffixPower?.toList
  | .index _ opening _ => opening.kind.suffixPower?.toList
  | _ => []

mutual

/-- Every operator of the tree binds its operands as its powers say: no operator on the right spine
of its left operand has a right power below its left power, and every operator on the left spine of
its right operand has a left power above its right power. -/
def Grouped.Binds : Grouped → Prop
  | .atom _ => True
  | .group _ inner _ => inner.Binds
  | .unary operator operand =>
    operand.Binds ∧ ∀ p ∈ operator.kind.unaryPower?, ∀ q ∈ operand.leftPowers, p < q
  | .binary operator left right =>
    left.Binds ∧ right.Binds ∧ ∀ p ∈ operator.kind.binaryPower?,
      (∀ q ∈ left.rightPowers, p.left ≤ q) ∧ ∀ q ∈ right.leftPowers, p.right < q
  | .suffix operator operand =>
    operand.Binds ∧ ∀ p ∈ operator.kind.suffixPower?, ∀ q ∈ operand.rightPowers, p ≤ q
  | .callNone .. => True
  | .call _ _ arguments => arguments.Binds
  | .index _ _ indexes => indexes.Binds

def Items.Binds : Items → Prop
  | .last item _ => item.Binds
  | .more item _ rest => item.Binds ∧ rest.Binds

end

mutual

/-- No dereferencing caret of the tree stands directly before a token that could start an operand,
`next` being the token after the tree if there is one. -/
def Grouped.DerefsClear : Grouped → Option Token → Prop
  | .atom _, _ => True
  | .group _ inner closing, _ => inner.DerefsClear (some closing)
  | .unary _ operand, next => operand.DerefsClear next
  | .binary operator left right, next =>
    left.DerefsClear (some operator) ∧ right.DerefsClear next
  | .suffix operator operand, next =>
    operand.DerefsClear (some operator) ∧ ∀ t ∈ next, ¬t.startsExpression
  | .callNone .., _ => True
  | .call _ _ arguments, _ => arguments.DerefsClear
  | .index _ _ indexes, _ => indexes.DerefsClear

def Items.DerefsClear : Items → Prop
  | .last item closing => item.DerefsClear (some closing)
  | .more item comma rest => item.DerefsClear (some comma) ∧ rest.DerefsClear

end

/-! ## Nesting -/

mutual

/-- The most steps on a way from the root to a leaf that go into a pair of parentheses, the operand
of an operator before it, the right operand of an operator between two, an argument or an index. -/
def Grouped.nesting : Grouped → ℕ
  | .atom _ => 0
  | .group _ inner _ => inner.nesting + 1
  | .unary _ operand => operand.nesting + 1
  | .binary _ left right => max left.nesting (right.nesting + 1)
  | .suffix _ operand => operand.nesting
  | .callNone .. => 0
  | .call _ _ arguments => arguments.nesting
  | .index _ _ indexes => indexes.nesting

/-- The same over the trees of a list, the step into one of them included. -/
def Items.nesting : Items → ℕ
  | .last item _ => item.nesting + 1
  | .more item _ rest => max (item.nesting + 1) rest.nesting

end

/-- How many expressions are open at once, at most, while the tree is read. -/
def Grouped.levels (g : Grouped) : ℕ :=
  1 + g.nesting

end Pseudolang
