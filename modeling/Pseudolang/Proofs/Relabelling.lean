import Mathlib.Data.Nat.Notation
import Mathlib.Tactic.Choose
import Pseudolang.Program
import Pseudolang.Proofs.Placement

/-!
# Changing the tokens of a tree

Reading the same tokens in other places gives the same trees over other tokens.  `mapTokens f`
replaces every token of an expression or a statement by its image under `f`; forgetting positions is
the case of `Token.unplaced` (`Expr.mapTokens_unplaced`), and a block of lines that moves down a
text is the case of `Token.shift`.

Two token sequences are compared through a pair of such changes, one for each side
(`Token.Relabels`).  Neither of them touches anything but positions, so that nothing printed depends
on them (`Expr.text_mapTokens`).
-/

namespace Pseudolang

/-! ## Moving down by lines -/

/-- The position a number of lines further down. -/
def Position.shift (k : ℕ) (p : Position) : Position :=
  { p with line := p.line + k }

/-- The token a number of lines further down. -/
def Token.shift (k : ℕ) (t : Token) : Token :=
  { t with position := t.position.shift k }

lemma Token.unplaced_shift (k : ℕ) (t : Token) : (t.shift k).unplaced = t.unplaced := rfl

/-- The diagnostic a number of lines further down. -/
def Diagnostic.shift (k : ℕ) (d : Diagnostic) : Diagnostic :=
  { d with position := d.position.shift k }

/-! ## Trees over other tokens -/

namespace Expr

mutual

/-- The expression with every token replaced by its image. -/
def mapTokens (f : Token → Token) : Expr → Expr
  | atom token => atom (f token)
  | unary operator operand => unary (f operator) (mapTokens f operand)
  | binary operator left right => binary (f operator) (mapTokens f left) (mapTokens f right)
  | suffix operator operand => suffix (f operator) (mapTokens f operand)
  | call callee arguments => call (f callee) (mapAllTokens f arguments)
  | index callee indexes => index (f callee) (mapAllTokens f indexes)

/-- The expressions with every token replaced by its image. -/
def mapAllTokens (f : Token → Token) : List Expr → List Expr
  | [] => []
  | e :: es => mapTokens f e :: mapAllTokens f es

end

@[simp] lemma mapAllTokens_eq_map (f : Token → Token) (es : List Expr) :
    mapAllTokens f es = es.map (mapTokens f) := by
  induction es with
  | nil => rfl
  | cons e es ih => rw [mapAllTokens, ih, List.map_cons]

mutual

lemma mapTokens_mapTokens (f g : Token → Token) : ∀ e : Expr,
    mapTokens g (mapTokens f e) = mapTokens (g ∘ f) e
  | atom _ => rfl
  | unary _ operand => by simp [mapTokens, mapTokens_mapTokens f g operand]
  | binary _ left right => by
      simp [mapTokens, mapTokens_mapTokens f g left, mapTokens_mapTokens f g right]
  | suffix _ operand => by simp [mapTokens, mapTokens_mapTokens f g operand]
  | call _ arguments => by simpa [mapTokens] using mapAllTokens_mapAllTokens f g arguments
  | index _ indexes => by simpa [mapTokens] using mapAllTokens_mapAllTokens f g indexes

lemma mapAllTokens_mapAllTokens (f g : Token → Token) : ∀ es : List Expr,
    mapAllTokens g (mapAllTokens f es) = mapAllTokens (g ∘ f) es
  | [] => rfl
  | e :: es => by
      rw [mapAllTokens, mapAllTokens, mapAllTokens, mapTokens_mapTokens f g e,
        mapAllTokens_mapAllTokens f g es]

end

mutual

@[simp] lemma mapTokens_id : ∀ e : Expr, mapTokens id e = e
  | atom _ => rfl
  | unary _ operand => by simp [mapTokens, mapTokens_id operand]
  | binary _ left right => by simp [mapTokens, mapTokens_id left, mapTokens_id right]
  | suffix _ operand => by simp [mapTokens, mapTokens_id operand]
  | call _ arguments => by rw [mapTokens, mapAllTokens_id arguments]; rfl
  | index _ indexes => by rw [mapTokens, mapAllTokens_id indexes]; rfl

lemma mapAllTokens_id : ∀ es : List Expr, mapAllTokens id es = es
  | [] => rfl
  | e :: es => by rw [mapAllTokens, mapTokens_id e, mapAllTokens_id es]

end

mutual

/-- Forgetting positions is one such change. -/
lemma mapTokens_unplaced : ∀ e : Expr, mapTokens Token.unplaced e = e.unplaced
  | atom _ => rfl
  | unary _ operand => by rw [mapTokens, unplaced, mapTokens_unplaced operand]
  | binary _ left right => by
      rw [mapTokens, unplaced, mapTokens_unplaced left, mapTokens_unplaced right]
  | suffix _ operand => by rw [mapTokens, unplaced, mapTokens_unplaced operand]
  | call _ arguments => by rw [mapTokens, unplaced, mapAllTokens_unplaced arguments]
  | index _ indexes => by rw [mapTokens, unplaced, mapAllTokens_unplaced indexes]

lemma mapAllTokens_unplaced : ∀ es : List Expr, mapAllTokens Token.unplaced es = unplacedAll es
  | [] => rfl
  | e :: es => by rw [mapAllTokens, unplacedAll, mapTokens_unplaced e, mapAllTokens_unplaced es]

end

mutual

/-- The tokens of the expression in the order in which they are written. -/
def tokens : Expr → List Token
  | atom token => [token]
  | unary operator operand => operator :: tokens operand
  | binary operator left right => tokens left ++ operator :: tokens right
  | suffix operator operand => tokens operand ++ [operator]
  | call callee arguments => callee :: allTokens arguments
  | index callee indexes => callee :: allTokens indexes

/-- The tokens of the expressions, one expression after the other. -/
def allTokens : List Expr → List Token
  | [] => []
  | e :: es => tokens e ++ allTokens es

end

@[simp] lemma allTokens_eq_flatMap (es : List Expr) : allTokens es = es.flatMap tokens := by
  induction es with
  | nil => rfl
  | cons e es ih => rw [allTokens, ih, List.flatMap_cons]

mutual

/-- A change that leaves the tokens of an expression alone leaves the expression alone. -/
lemma mapTokens_eq_self {f : Token → Token} : ∀ e : Expr, (∀ t ∈ e.tokens, f t = t) →
    mapTokens f e = e
  | atom token, h => by rw [mapTokens, h token (by simp [tokens])]
  | unary operator operand, h => by
      rw [mapTokens, h operator (by simp [tokens]),
        mapTokens_eq_self operand fun t ht => h t (by simp [tokens, ht])]
  | binary operator left right, h => by
      rw [mapTokens, h operator (by simp [tokens]),
        mapTokens_eq_self left fun t ht => h t (by simp [tokens, ht]),
        mapTokens_eq_self right fun t ht => h t (by simp [tokens, ht])]
  | suffix operator operand, h => by
      rw [mapTokens, h operator (by simp [tokens]),
        mapTokens_eq_self operand fun t ht => h t (by simp [tokens, ht])]
  | call callee arguments, h => by
      rw [mapTokens, h callee (by simp [tokens]),
        mapAllTokens_eq_self arguments fun t ht => h t (List.mem_cons_of_mem _ ht)]
  | index callee indexes, h => by
      rw [mapTokens, h callee (by simp [tokens]),
        mapAllTokens_eq_self indexes fun t ht => h t (List.mem_cons_of_mem _ ht)]

lemma mapAllTokens_eq_self {f : Token → Token} : ∀ es : List Expr,
    (∀ t ∈ allTokens es, f t = t) → mapAllTokens f es = es
  | [], _ => rfl
  | e :: es, h => by
      rw [mapAllTokens, mapTokens_eq_self e fun t ht => h t (List.mem_append_left _ ht),
        mapAllTokens_eq_self es fun t ht => h t (List.mem_append_right _ ht)]

end

end Expr

namespace Statement

/-- The statement with every token replaced by its image. -/
def mapTokens (f : Token → Token) : Statement → Statement
  | declare identifier datatype => declare (f identifier) (f datatype)
  | declareArray identifier bounds datatype =>
    declareArray (f identifier) (bounds.map (Expr.mapTokens f)) (f datatype)
  | constant identifier value => constant (f identifier) (f value)
  | assign identifier value => assign (f identifier) (value.mapTokens f)
  | assignElement identifier indexes value =>
    assignElement (f identifier) (indexes.map (Expr.mapTokens f)) (value.mapTokens f)
  | input identifier => input (f identifier)
  | output values => output (values.map (Expr.mapTokens f))

/-- The statement a number of lines further down. -/
def shift (k : ℕ) : Statement → Statement :=
  mapTokens (Token.shift k)

/-- The statement without the positions of its tokens. -/
def unplaced : Statement → Statement :=
  mapTokens Token.unplaced

@[simp] lemma mapTokens_id (s : Statement) : s.mapTokens id = s := by
  have hid : Expr.mapTokens id = id := funext Expr.mapTokens_id
  cases s <;> simp [mapTokens, hid]

lemma mapTokens_mapTokens (f g : Token → Token) (s : Statement) :
    (s.mapTokens f).mapTokens g = s.mapTokens (g ∘ f) := by
  have hcomp : Expr.mapTokens g ∘ Expr.mapTokens f = Expr.mapTokens (g ∘ f) :=
    funext (Expr.mapTokens_mapTokens f g)
  cases s <;> simp [mapTokens, Expr.mapTokens_mapTokens, hcomp]

/-- The tokens of the statement in the order in which they are written, without its keywords and
symbols. -/
def tokens : Statement → List Token
  | declare identifier datatype => [identifier, datatype]
  | declareArray identifier bounds datatype =>
    identifier :: (bounds.flatMap Expr.tokens ++ [datatype])
  | constant identifier value => [identifier, value]
  | assign identifier value => identifier :: value.tokens
  | assignElement identifier indexes value =>
    identifier :: (indexes.flatMap Expr.tokens ++ value.tokens)
  | input identifier => [identifier]
  | output values => values.flatMap Expr.tokens

/-- A change that leaves the tokens of a statement alone leaves the statement alone. -/
lemma mapTokens_eq_self {f : Token → Token} {s : Statement} (h : ∀ t ∈ s.tokens, f t = t) :
    s.mapTokens f = s := by
  have hlist {es : List Expr} (hes : ∀ t ∈ es.flatMap Expr.tokens, f t = t) :
      es.map (Expr.mapTokens f) = es := by
    rw [← Expr.mapAllTokens_eq_map]
    exact Expr.mapAllTokens_eq_self es (by rwa [Expr.allTokens_eq_flatMap])
  cases s with
  | declare identifier datatype => simp_all [tokens, mapTokens]
  | declareArray identifier bounds datatype =>
    simp only [tokens, List.forall_mem_cons, List.forall_mem_append] at h
    rw [mapTokens, h.1, hlist h.2.1, h.2.2.1]
  | constant identifier value => simp_all [tokens, mapTokens]
  | assign identifier value =>
    rw [tokens, List.forall_mem_cons] at h
    rw [mapTokens, h.1, value.mapTokens_eq_self h.2]
  | assignElement identifier indexes value =>
    simp only [tokens, List.forall_mem_cons, List.forall_mem_append] at h
    rw [mapTokens, h.1, hlist h.2.1, value.mapTokens_eq_self h.2.2]
  | input identifier => simp_all [tokens, mapTokens]
  | output values => rw [mapTokens, hlist h]

end Statement

/-! ## Relabellings -/

namespace Token

variable {l r : Token → Token} {t u : Token}

/-- Two changes of positions, for the tokens on the left and for those on the right, such that every
token on the left has a counterpart. -/
structure Relabels (l r : Token → Token) : Prop where
  left (t : Token) : (l t).unplaced = t.unplaced
  right (t : Token) : (r t).unplaced = t.unplaced
  total (t : Token) : ∃ u, l t = r u

lemma Relabels.same : Relabels id id where
  left _ := rfl
  right _ := rfl
  total t := ⟨t, rfl⟩

lemma Relabels.anywhere : Relabels unplaced unplaced where
  left _ := rfl
  right _ := rfl
  total t := ⟨t, rfl⟩

/-- A change of positions on one side only. -/
lemma Relabels.move {f : Token → Token} (hf : ∀ t, (f t).unplaced = t.unplaced) :
    Relabels f id where
  left := hf
  right _ := rfl
  total t := ⟨f t, rfl⟩

/-- Tokens that correspond to each other differ in their positions only. -/
lemma Relabels.unplaced_eq (h : Relabels l r) (htu : l t = r u) : t.unplaced = u.unplaced := by
  rw [← h.left t, htu, h.right u]

end Token

namespace Expr

variable {l r f : Token → Token} {e e' : Expr}

mutual

/-- The printed form does not depend on positions. -/
lemma text_mapTokens (hf : ∀ t, (f t).unplaced = t.unplaced) : ∀ e : Expr,
    (e.mapTokens f).text = e.text
  | atom token => (Token.unplaced_eq_iff.1 (hf token)).2.1
  | unary operator operand => by
      obtain ⟨hkind, htext, -, -⟩ := Token.unplaced_eq_iff.1 (hf operator)
      rw [mapTokens, text, text, text_mapTokens hf operand, hkind, htext]
  | binary operator left right => by
      obtain ⟨-, htext, -, -⟩ := Token.unplaced_eq_iff.1 (hf operator)
      rw [mapTokens, text, text, text_mapTokens hf left, text_mapTokens hf right, htext]
  | suffix operator operand => by
      obtain ⟨-, htext, -, -⟩ := Token.unplaced_eq_iff.1 (hf operator)
      rw [mapTokens, text, text, text_mapTokens hf operand, htext]
  | call callee arguments => by
      obtain ⟨-, htext, -, -⟩ := Token.unplaced_eq_iff.1 (hf callee)
      rw [mapTokens, text, text, listText_mapAllTokens hf arguments, htext]
  | index callee indexes => by
      obtain ⟨-, htext, -, -⟩ := Token.unplaced_eq_iff.1 (hf callee)
      rw [mapTokens, text, text, listText_mapAllTokens hf indexes, htext]

lemma listText_mapAllTokens (hf : ∀ t, (f t).unplaced = t.unplaced) : ∀ es : List Expr,
    listText (mapAllTokens f es) = listText es
  | [] => rfl
  | e :: es => by
      rw [mapAllTokens, listText, listText, text_mapTokens hf e, tailText_mapAllTokens hf es]

lemma tailText_mapAllTokens (hf : ∀ t, (f t).unplaced = t.unplaced) : ∀ es : List Expr,
    tailText (mapAllTokens f es) = tailText es
  | [] => rfl
  | e :: es => by
      rw [mapAllTokens, tailText, tailText, text_mapTokens hf e, tailText_mapAllTokens hf es]

end

lemma identifier?_mapTokens (hf : ∀ t, (f t).unplaced = t.unplaced) (e : Expr) :
    (e.mapTokens f).identifier? = e.identifier?.map f := by
  cases e with
  | atom token =>
    rw [mapTokens, identifier?, identifier?, Token.kind_eq_of_unplaced (hf token)]
    split <;> rfl
  | _ => rfl

lemma isAtom_mapTokens (f : Token → Token) (e : Expr) : (e.mapTokens f).isAtom = e.isAtom := by
  cases e <;> rfl

/-- Every expression has a counterpart. -/
lemma exists_mapTokens_eq (h : Token.Relabels l r) (e : Expr) :
    ∃ e' : Expr, e.mapTokens l = e'.mapTokens r := by
  choose f hf using h.total
  refine ⟨e.mapTokens f, ?_⟩
  rw [mapTokens_mapTokens]
  exact congrArg (e.mapTokens ·) (funext hf)

end Expr

end Pseudolang
