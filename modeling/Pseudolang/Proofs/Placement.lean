import Mathlib.Tactic.Lemma
import Pseudolang.Expr

/-!
# Forgetting positions

Two texts with the same tokens in other places give the same expressions in other places.  To say
so, `unplaced` sets every position of a token or an expression to one fixed value: two tokens agree
in kind, text, literal flag and fault exactly when their unplaced forms are equal
(`Token.unplaced_eq_iff`), and two expressions agree up to positions exactly when theirs are.
-/

namespace Pseudolang

namespace Token

/-- The token without its position. -/
def unplaced (t : Token) : Token :=
  { t with position := ⟨0, 0⟩ }

@[simp] lemma unplaced_kind (t : Token) : t.unplaced.kind = t.kind := rfl

@[simp] lemma unplaced_isAtom (t : Token) : t.unplaced.isAtom = t.isAtom := rfl

lemma unplaced_eq_iff {t u : Token} :
    t.unplaced = u.unplaced ↔
      t.kind = u.kind ∧ t.text = u.text ∧ t.isLiteral = u.isLiteral ∧ t.fault = u.fault := by
  simp [unplaced]

lemma kind_eq_of_unplaced {t u : Token} (h : t.unplaced = u.unplaced) : t.kind = u.kind :=
  (unplaced_eq_iff.1 h).1

end Token

namespace Expr

mutual

/-- The expression without the positions of its tokens. -/
def unplaced : Expr → Expr
  | atom token => atom token.unplaced
  | unary operator operand => unary operator.unplaced operand.unplaced
  | binary operator left right => binary operator.unplaced left.unplaced right.unplaced
  | suffix operator operand => suffix operator.unplaced operand.unplaced
  | call callee arguments => call callee.unplaced (unplacedAll arguments)
  | index callee indexes => index callee.unplaced (unplacedAll indexes)

/-- The expressions without the positions of their tokens. -/
def unplacedAll : List Expr → List Expr
  | [] => []
  | e :: es => e.unplaced :: unplacedAll es

end

end Expr

end Pseudolang
