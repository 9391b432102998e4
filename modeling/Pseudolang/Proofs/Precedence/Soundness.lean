import Pseudolang.Proofs.Precedence

/-!
# What is read is grouped by the binding powers

Whatever `Grammar.expr` reads is the written form of the expression that it returns: between the
window where it starts and the one where it stops stand the tokens of a grouped tree over that
expression, and the tree is one that the binding powers allow.

The proof follows the parser.  A tree *spans* two windows (`Grouped.Spans`) when the tokens between
them are its tokens, it is allowed, and no operator on its right spine could have gone on at the
second window.  That last part is the invariant behind the precedence conditions: when the loop of
`Grammar.operatorsWith` takes an operator at that window, every operator on the right spine of what
was read so far has turned it down, so its right power is not below the left power of the operator
taken.  The conditions on left spines come from the other side, since the loop takes an operator
only above the power that was asked for.

A parser is *sound* (`Grammar.SoundAt`) when all it reads is spanned by such a tree.  Each piece of
the grammar is sound if the parser for the expressions inside it is, and `Grammar.soundAt_exprAt`
ties the knot along the levels that may still be opened.
-/

namespace Pseudolang

open Pseudolang.Grammar Pseudolang.Parser

variable {σ : Type} [TokenStream σ]

/-! ## Trees between windows -/

/-- The tokens between two windows are those of the tree, which the binding powers allow, and no
operator on its right spine can go on at the second window. -/
structure Grouped.Spans (g : Grouped) (w w' : Window σ) : Prop where
  shows : w.Shows g.tokens
  stops : w.advanceBy g.tokens.length = w'
  wellFormed : g.WellFormed
  binds : g.Binds
  derefsClear : g.DerefsClear (some w'.current)
  ends : ∀ q ∈ g.rightPowers, extension? q w' = none

/-- The tokens from a window on are those of a list of allowed trees, up to the closing token, at
which the second window stands. -/
structure Items.Spans (is : Items) (closing : Kind) (w w' : Window σ) : Prop where
  shows : w.Shows is.body
  stops : w.advanceBy is.body.length = w'
  closing_eq : is.closing = w'.current
  wellFormed : is.WellFormed closing
  binds : is.Binds
  derefsClear : is.DerefsClear

/-- All that the parser reads is spanned by a tree that opens at most `levels` levels, whose left
spine binds tighter than `power`, and after which no operator does. -/
def Grammar.SoundAt (levels power : ℕ) (p : Parser σ Expr) : Prop :=
  ∀ ⦃w e w'⦄, p.run w = (.ok e, w') →
    ∃ g : Grouped, g.toExpr = e ∧ g.Spans w w' ∧ g.levels ≤ levels ∧
      (∀ q ∈ g.leftPowers, power < q) ∧ extension? power w' = none

namespace Grammar

variable {levels : ℕ} {sub : ℕ → Parser σ Expr}

/-! ## Operands -/

lemma spans_atom {w : Window σ} (h : w.current.isAtom) :
    (Grouped.atom w.current).Spans w w.advance where
  shows := by simp [Grouped.tokens]
  stops := rfl
  wellFormed := h
  binds := trivial
  derefsClear := trivial
  ends := by simp [Grouped.rightPowers]

/-- An expression in parentheses and its parentheses. -/
lemma sound_groupWith (hsub : ∀ q, SoundAt levels q (sub q)) {w w' : Window σ} {e : Expr}
    (ho : w.current.kind = .symbol .openParen) (h : (groupWith sub).run w = (.ok e, w')) :
    ∃ g : Grouped, g.toExpr = e ∧ g.Spans w w' ∧ g.nesting ≤ levels ∧ g.leftPowers = [] := by
  rw [groupWith, run_take_bind, run_bind_eq_ok] at h
  obtain ⟨e₁, w₁, hinner, h⟩ := h
  rw [run_bind_eq_ok] at h
  obtain ⟨t, w₂, hclose, h⟩ := h
  obtain ⟨rfl, rfl⟩ := run_pure_eq_ok.1 h
  obtain ⟨hk, rfl, rfl⟩ := run_expect_eq_ok.1 hclose
  obtain ⟨g, rfl, hg, hlevels, -, -⟩ := hsub _ hinner
  have hstops := hg.stops
  refine ⟨.group w.current g w₁.current, rfl, ⟨?_, ?_, ⟨ho, hg.wellFormed, hk⟩, hg.binds,
    hg.derefsClear, by simp [Grouped.rightPowers]⟩, ?_, rfl⟩
  · simp [Grouped.tokens, Window.shows_append, hg.shows, hstops]
  · simp [Grouped.tokens, Window.advanceBy, Window.advanceBy_succ, hstops]
  · simpa [Grouped.nesting, Grouped.levels, Nat.add_comm] using hlevels

/-- An operator and its operand, which asks for the operator's power. -/
lemma sound_unaryWith (hsub : ∀ q, SoundAt levels q (sub q)) {w w' : Window σ} {e : Expr}
    {power : ℕ} (hp : w.current.kind.unaryPower? = some power)
    (h : (unaryWith sub power).run w = (.ok e, w')) :
    ∃ g : Grouped, g.toExpr = e ∧ g.Spans w w' ∧ g.nesting ≤ levels ∧ g.leftPowers = [] := by
  rw [unaryWith, run_take_bind, run_bind_eq_ok] at h
  obtain ⟨e₁, w₁, hoperand, h⟩ := h
  obtain ⟨rfl, rfl⟩ := run_pure_eq_ok.1 h
  obtain ⟨g, rfl, hg, hlevels, habove, hnone⟩ := hsub _ hoperand
  refine ⟨.unary w.current g, rfl, ⟨?_, hg.stops, ⟨by simp [hp], hg.wellFormed⟩,
    ⟨hg.binds, ?_⟩, hg.derefsClear, ?_⟩, ?_, rfl⟩
  · exact ⟨rfl, hg.shows⟩
  · intro p hpp
    obtain rfl : power = p := by simpa [hp] using hpp
    exact habove
  · intro q hq
    rcases (by simpa [Grouped.rightPowers, hp] using hq : q = power ∨ q ∈ g.rightPowers) with
      rfl | hq
    · exact hnone
    · exact hg.ends q hq
  · simpa [Grouped.nesting, Grouped.levels, Nat.add_comm] using hlevels

lemma sound_operandWith (hsub : ∀ q, SoundAt levels q (sub q)) {w w' : Window σ} {e : Expr}
    (h : (operandWith sub).run w = (.ok e, w')) :
    ∃ g : Grouped, g.toExpr = e ∧ g.Spans w w' ∧ g.nesting ≤ levels ∧ g.leftPowers = [] := by
  rw [operandWith, run_window_bind] at h
  split at h
  · next ha =>
    rw [run_take_bind] at h
    obtain ⟨rfl, rfl⟩ := run_pure_eq_ok.1 h
    exact ⟨.atom w.current, rfl, spans_atom ha, Nat.zero_le _, rfl⟩
  · split at h
    · next ho => exact sound_groupWith hsub ho h
    · split at h
      · next hp => exact sound_unaryWith hsub hp h
      · simp [Parser.unexpected] at h

/-! ## Lists -/

/-- The items of a list that ends with a token of kind `closing`, the first one being read. -/
lemma sound_commaTail (hsub : ∀ q, SoundAt levels q (sub q)) {closing : Kind} {w₁ w' : Window σ}
    {es : List Expr} (h : (commaTail (sub minPower)).run w₁ = (.ok es, w'))
    (hk : w'.current.kind = closing) :
    ∀ {g : Grouped} {w : Window σ}, g.Spans w w₁ → g.levels ≤ levels →
      ∃ is : Items, is.toExprs = g.toExpr :: es ∧ is.Spans closing w w' ∧ is.nesting ≤ levels := by
  -- The induction is on the commas; the tree `g` is the item that stands before the next of them.
  revert hk
  refine commaTail_induct (motive := fun w₁ es w' => w'.current.kind = closing →
    ∀ {g : Grouped} {w : Window σ}, g.Spans w w₁ → g.levels ≤ levels →
      ∃ is : Items, is.toExprs = g.toExpr :: es ∧ is.Spans closing w w' ∧ is.nesting ≤ levels)
    ?done ?more h
  case done =>
    intro w₁ _ hk g w hg hlevels
    refine ⟨.last g w₁.current, rfl, ⟨hg.shows, hg.stops, rfl, ⟨hg.wellFormed, hk⟩, hg.binds,
      hg.derefsClear⟩, ?_⟩
    simpa [Items.nesting, Grouped.levels, Nat.add_comm] using hlevels
  case more =>
    intro w₁ e w₂ es w' hcomma hitem ih hk g w hg hlevels
    obtain ⟨g₂, rfl, hg₂, hlevels₂, -, -⟩ := hsub _ hitem
    obtain ⟨is, his, hspans, hnesting⟩ := ih hk hg₂ hlevels₂
    have hstops := hg.stops
    have hrest := hspans.stops
    refine ⟨.more g w₁.current is, by rw [Items.toExprs, his], ⟨?_, ?_, hspans.closing_eq,
      ⟨hg.wellFormed, hcomma, hspans.wellFormed⟩, ⟨hg.binds, hspans.binds⟩,
      ⟨hg.derefsClear, hspans.derefsClear⟩⟩, ?_⟩
    · simp [Items.body, Window.shows_append, hg.shows, hstops, hspans.shows]
    · simp [Items.body, Window.advanceBy_add, Window.advanceBy, hstops, hrest]
    · rw [Grouped.levels, Nat.add_comm] at hlevels
      exact max_le hlevels hnesting

/-- A list is empty, where that is allowed, or has items. -/
lemma sound_listWith (hsub : ∀ q, SoundAt levels q (sub q)) {closing : Kind} {allowEmpty : Bool}
    {w w' : Window σ} {es : List Expr}
    (h : (listWith sub closing allowEmpty).run w = (.ok es, w')) :
    (allowEmpty ∧ es = [] ∧ w.current.kind = closing ∧ w.advance = w') ∨
      ∃ (is : Items) (w₁ : Window σ), is.toExprs = es ∧ is.Spans closing w w₁ ∧
        is.nesting ≤ levels ∧ w₁.advance = w' := by
  rw [listWith, run_window_bind] at h
  split at h
  · next hempty =>
    rw [run_take_bind] at h
    obtain ⟨rfl, rfl⟩ := run_pure_eq_ok.1 h
    exact .inl ⟨hempty.1, rfl, hempty.2, rfl⟩
  · rw [run_bind_eq_ok] at h
    obtain ⟨es₁, w₁, hitems, h⟩ := h
    rw [run_window_bind, run_bind_eq_ok] at h
    obtain ⟨t, w₂, hclose, h⟩ := h
    obtain ⟨rfl, rfl⟩ := run_pure_eq_ok.1 h
    obtain ⟨hk, -, rfl⟩ := run_expectOr_eq_ok.1 hclose
    rw [commaSeparated, run_bind_eq_ok] at hitems
    obtain ⟨e, w₂, hfirst, hitems⟩ := hitems
    rw [run_bind_eq_ok] at hitems
    obtain ⟨es₂, w₃, hrest, hitems⟩ := hitems
    obtain ⟨rfl, rfl⟩ := run_pure_eq_ok.1 hitems
    obtain ⟨g, rfl, hg, hlevels, -, -⟩ := hsub _ hfirst
    obtain ⟨is, his, hspans, hnesting⟩ := sound_commaTail hsub hrest hk hg hlevels
    exact .inr ⟨is, w₃, his, hspans, hnesting, rfl⟩

/-! ## Operators -/

/-- What the loop over operators keeps: the expression so far is spanned, from the window where the
operand starts, by a tree whose left spine binds tighter than the power asked for. -/
def Extended (levels power : ℕ) (w : Window σ) (e : Expr) (w' : Window σ) : Prop :=
  ∃ g : Grouped, g.toExpr = e ∧ g.Spans w w' ∧ g.nesting ≤ levels ∧ ∀ q ∈ g.leftPowers, power < q

lemma callee?_eq_some {left : Expr} {grouped : Bool} {callee : Token}
    (h : callee? left grouped = some callee) :
    grouped = false ∧ left = .atom callee ∧ callee.kind = .identifier := by
  cases grouped with
  | true => simp [callee?] at h
  | false =>
    cases left with
    | atom token =>
      simp only [callee?, Expr.identifier?, Bool.false_eq_true, if_false] at h
      split at h
      · next hk =>
        obtain rfl : token = callee := by simpa using h
        exact ⟨rfl, rfl, hk⟩
      · cases h
    | _ => simp [callee?, Expr.identifier?] at h

/-- A tree over an atom that does not start with a parenthesis is that atom. -/
lemma eq_atom_of_toExpr {g : Grouped} {w w' : Window σ} {t : Token} (hg : g.Spans w w')
    (ho : w.current.kind ≠ .symbol .openParen) (h : g.toExpr = .atom t) : g = .atom t := by
  cases g with
  | atom token => simpa [Grouped.toExpr] using h
  | group opening inner closing =>
    have hopening : w.current = opening := hg.shows.1
    exact absurd (hopening ▸ hg.wellFormed.1) ho
  | _ => simp [Grouped.toExpr] at h

/-- Every operator on the right spine has turned the current token down, so none of them has a
right power below its left power. -/
lemma extended_binaryAfter (hsub : ∀ q, SoundAt levels q (sub q)) {power : ℕ} {p : BindingPower}
    {w w₁ w' : Window σ} {left e : Expr} (hleft : Extended levels power w left w₁)
    (hb : w₁.current.kind.binaryPower? = some p) (hs : suffixPower? w₁ = none)
    (hpower : power < p.left)
    (h : (binaryAfter sub left p.right w₁.current).run w₁.advance = (.ok e, w')) :
    Extended levels power w e w' := by
  rw [binaryAfter, run_bind_eq_ok] at h
  obtain ⟨e₁, w₂, hright, h⟩ := h
  obtain ⟨rfl, rfl⟩ := run_pure_eq_ok.1 h
  obtain ⟨l, rfl, hl, hnesting, habove⟩ := hleft
  obtain ⟨r, rfl, hr, hlevels, hrabove, hnone⟩ := hsub _ hright
  have hstops := hl.stops
  have hstops' := hr.stops
  refine ⟨.binary w₁.current l r, rfl, ⟨?_, ?_, ⟨by simp [hb], hl.wellFormed, hr.wellFormed⟩,
    ⟨hl.binds, hr.binds, ?_⟩, ⟨hl.derefsClear, hr.derefsClear⟩, ?_⟩, ?_, ?_⟩
  · simp [Grouped.tokens, Window.shows_append, hl.shows, hstops, hr.shows]
  · simp [Grouped.tokens, Window.advanceBy_add, Window.advanceBy, hstops, hstops']
  · intro p' hp'
    obtain rfl : p = p' := by simpa [hb] using hp'
    refine ⟨fun q hq => ?_, hrabove⟩
    have hend := hl.ends q hq
    rw [extension?_of_binary hb hs] at hend
    split at hend
    · cases hend
    · omega
  · intro q hq
    rcases (by simpa [Grouped.rightPowers, hb] using hq : q = p.right ∨ q ∈ r.rightPowers) with
      rfl | hq
    · exact hnone
    · exact hr.ends q hq
  · rw [Grouped.levels, Nat.add_comm] at hlevels
    exact max_le hnesting hlevels
  · intro q hq
    rcases (by simpa [Grouped.leftPowers, hb] using hq : q = p.left ∨ q ∈ l.leftPowers) with
      rfl | hq
    · exact hpower
    · exact habove q hq

/-- The same for a dereference, which stands where no operand can follow. -/
lemma extended_deref {power p : ℕ} {w w₁ : Window σ} {left : Expr}
    (hleft : Extended levels power w left w₁) (hc : w₁.current.kind = .symbol .caret)
    (hs : suffixPower? w₁ = some p) (hpower : power < p) :
    Extended levels power w (.suffix w₁.current left) w₁.advance := by
  obtain ⟨g, rfl, hg, hnesting, habove⟩ := hleft
  have hp := kind_suffixPower?_of_eq_some hs
  have hstops := hg.stops
  refine ⟨.suffix w₁.current g, rfl, ⟨?_, ?_, ⟨hc, hg.wellFormed⟩, ⟨hg.binds, ?_⟩,
    ⟨hg.derefsClear, ?_⟩, by simp [Grouped.rightPowers]⟩, hnesting, ?_⟩
  · simp [Grouped.tokens, Window.shows_append, hg.shows, hstops]
  · simp [Grouped.tokens, Window.advanceBy_succ, hstops]
  · intro p' hp' q hq
    obtain rfl : p = p' := by simpa [hp] using hp'
    have hend := hg.ends q hq
    rw [extension?_of_suffix hs] at hend
    split at hend
    · cases hend
    · omega
  · intro t ht
    obtain rfl : w₁.advance.current = t := by simpa using ht
    exact not_startsExpression_of_caret hc hs
  · intro q hq
    rcases (by simpa [Grouped.leftPowers, hp] using hq : q = p ∨ q ∈ g.leftPowers) with rfl | hq
    · exact hpower
    · exact habove q hq

/-- What may be called or indexed is the identifier at the start. -/
lemma current_of_callee? {power : ℕ} {w w₁ : Window σ} {left : Expr} {callee : Token}
    (hleft : Extended levels power w left w₁)
    (h : callee? left (w.current.kind = .symbol .openParen) = some callee) :
    w.current = callee ∧ w.advance = w₁ ∧ callee.kind = .identifier := by
  obtain ⟨hopen, rfl, hk⟩ := callee?_eq_some h
  obtain ⟨g, htoExpr, hg, -, -⟩ := hleft
  obtain rfl := eq_atom_of_toExpr hg (by simpa using hopen) htoExpr
  exact ⟨hg.shows.1, hg.stops, hk⟩

/-- An identifier, a bracket and the list in it are shown one after another. -/
lemma shows_bracketed {is : Items} {closing : Kind} {w w₂ : Window σ}
    (his : is.Spans closing w.advance.advance w₂) :
    w.Shows (w.current :: w.advance.current :: (is.body ++ [is.closing])) ∧
      w.advanceBy (is.body.length + 1 + 1 + 1) = w₂.advance := by
  have hstops := his.stops
  refine ⟨⟨rfl, rfl, ?_⟩, ?_⟩
  · simp [Window.shows_append, his.shows, hstops, his.closing_eq]
  · rw [Window.advanceBy, Window.advanceBy, Window.advanceBy_succ, hstops]

lemma extended_call (hsub : ∀ q, SoundAt levels q (sub q)) {power p : ℕ} {w w' : Window σ}
    {es : List Expr} (hk : w.current.kind = .identifier)
    (ho : w.advance.current.kind = .symbol .openParen)
    (hp : w.advance.current.kind.suffixPower? = some p) (hpower : power < p)
    (h : (listWith sub (.symbol .closeParen) true).run w.advance.advance = (.ok es, w')) :
    Extended levels power w (.call w.current es) w' := by
  rcases sound_listWith hsub h with ⟨-, rfl, hclose, rfl⟩ | ⟨is, w₂, rfl, his, hnesting, rfl⟩
  · refine ⟨.callNone w.current w.advance.current w.advance.advance.current, rfl,
      ⟨?_, rfl, ⟨hk, ho, hclose⟩, trivial, trivial, by simp [Grouped.rightPowers]⟩,
      Nat.zero_le _, by simpa [Grouped.leftPowers, hp] using hpower⟩
    simp [Grouped.tokens]
  · obtain ⟨hshows, hstops⟩ := shows_bracketed his
    refine ⟨.call w.current w.advance.current is, rfl, ⟨hshows, ?_, ⟨hk, ho, his.wellFormed⟩,
      his.binds, his.derefsClear, by simp [Grouped.rightPowers]⟩, hnesting,
      by simpa [Grouped.leftPowers, hp] using hpower⟩
    simpa [Grouped.tokens] using hstops

lemma extended_index (hsub : ∀ q, SoundAt levels q (sub q)) {power p : ℕ} {w w' : Window σ}
    {es : List Expr} (hk : w.current.kind = .identifier)
    (ho : w.advance.current.kind = .symbol .openBracket)
    (hp : w.advance.current.kind.suffixPower? = some p) (hpower : power < p)
    (h : (listWith sub (.symbol .closeBracket) false).run w.advance.advance = (.ok es, w')) :
    Extended levels power w (.index w.current es) w' := by
  rcases sound_listWith hsub h with ⟨hempty, -⟩ | ⟨is, w₂, rfl, his, hnesting, rfl⟩
  · cases hempty
  · obtain ⟨hshows, hstops⟩ := shows_bracketed his
    refine ⟨.index w.current w.advance.current is, rfl, ⟨hshows, ?_, ⟨hk, ho, his.wellFormed⟩,
      his.binds, his.derefsClear, by simp [Grouped.rightPowers]⟩, hnesting,
      by simpa [Grouped.leftPowers, hp] using hpower⟩
    simpa [Grouped.tokens] using hstops

/-- An operator after the expression so far: a call, an indexing or a dereference. -/
lemma extended_suffixAfter (hsub : ∀ q, SoundAt levels q (sub q)) {power p : ℕ}
    {w w₁ w' : Window σ} {left e : Expr} (hleft : Extended levels power w left w₁)
    (hs : suffixPower? w₁ = some p) (hpower : power < p)
    (h : (suffixAfter sub left (w.current.kind = .symbol .openParen) w₁.current).run w₁.advance =
      (.ok e, w')) :
    Extended levels power w e w' := by
  have hp := kind_suffixPower?_of_eq_some hs
  unfold suffixAfter at h
  split at h
  · next hbracket =>
    split at h
    · simp at h
    · next callee hcallee =>
      obtain ⟨rfl, rfl, hk⟩ := current_of_callee? hleft hcallee
      split at h
      · next ho =>
        rw [run_bind_eq_ok] at h
        obtain ⟨es, w₂, hlist, h⟩ := h
        obtain ⟨rfl, rfl⟩ := run_pure_eq_ok.1 h
        exact extended_call hsub hk ho hp hpower hlist
      · next ho =>
        rw [run_bind_eq_ok] at h
        obtain ⟨es, w₂, hlist, h⟩ := h
        obtain ⟨rfl, rfl⟩ := run_pure_eq_ok.1 h
        exact extended_index hsub hk (hbracket.resolve_left ho) hp hpower hlist
  · next hbracket =>
    obtain ⟨rfl, rfl⟩ := run_pure_eq_ok.1 h
    have hcaret : w₁.current.kind = .symbol .caret := by
      cases hk : w₁.current.kind with
      | symbol s => cases s <;> simp_all [Kind.suffixPower?]
      | _ => simp [hk, Kind.suffixPower?] at hp
    exact extended_deref hleft hcaret hs hpower

/-! ## Expressions -/

/-- The operand is what the loop starts from. -/
lemma extended_operand (hsub : ∀ q, SoundAt levels q (sub q)) {power : ℕ} {w w' : Window σ}
    {e : Expr} (h : (operandWith sub).run w = (.ok e, w')) : Extended levels power w e w' := by
  obtain ⟨g, htoExpr, hg, hnesting, hnil⟩ := sound_operandWith hsub h
  exact ⟨g, htoExpr, hg, hnesting, by simp [hnil]⟩

/-- Every round of the loop keeps it. -/
lemma extended_round (hsub : ∀ q, SoundAt levels q (sub q)) {power : ℕ} {w : Window σ}
    (left : Expr) (w₁ : Window σ) (extension : Extension) (e : Expr) (w' : Window σ)
    (hleft : Extended levels power w left w₁) (hoffer : extension? power w₁ = some extension)
    (h : (extendBy sub (w.current.kind = .symbol .openParen) extension w₁.current left).run
      w₁.advance = (.ok e, w')) : Extended levels power w e w' := by
  cases extension with
  | suffix =>
    obtain ⟨p, hs, hpower⟩ := extension?_eq_suffix hoffer
    exact extended_suffixAfter hsub hleft hs hpower h
  | binary r =>
    obtain ⟨p, hb, hs, rfl, hpower⟩ := extension?_eq_binary hoffer
    exact extended_binaryAfter hsub hleft hb hs hpower h

/-- The loop ends where no operator binds tighter than the power, so its expression is sound. -/
lemma sound_operatorsWith (hsub : ∀ q, SoundAt levels q (sub q)) {power : ℕ} {w w' : Window σ}
    {e : Expr} (h : (operatorsWith sub power).run w = (.ok e, w')) :
    Extended levels power w e w' ∧ extension? power w' = none := by
  rw [operatorsWith, run_window_bind, run_bind_eq_ok] at h
  obtain ⟨first, w₁, hfirst, h⟩ := h
  have hloop := iterate_preserves (I := Extended levels power w) (extended_round hsub) h
    (extended_operand hsub hfirst)
  refine ⟨hloop.1, ?_⟩
  rcases hloop.2 with hf | hnone
  · exact extension?_of_inert (by rw [hf]; exact ⟨rfl, rfl⟩) power
  · exact hnone

/-- Opening one more expression changes nothing about the tokens. -/
lemma soundAt_nested {power : ℕ} (hsub : ∀ q, SoundAt levels q (sub q)) :
    SoundAt (levels + 1) power (nested (operatorsWith sub power)) := by
  intro w e w' h
  cases he : w.enter with
  | error d =>
    rw [run_nested_of_error he] at h
    cases h
  | ok w₁ =>
    rw [run_nested_of_ok he] at h
    obtain ⟨hresult, rfl⟩ := Prod.mk.inj h
    obtain ⟨⟨g, htoExpr, hg, hnesting, habove⟩, hnone⟩ :=
      sound_operatorsWith hsub (Prod.ext hresult rfl)
    have hw : w₁ = { w with depth := w.depth + 1 } := Window.eq_of_enter he
    refine ⟨g, htoExpr, ⟨?_, ?_, hg.wellFormed, hg.binds, hg.derefsClear, hg.ends⟩, ?_, habove,
      hnone⟩
    · simpa [hw] using hg.shows
    · have hstops := congrArg Window.leave hg.stops
      rwa [Window.leave_advanceBy_of_enter he] at hstops
    · rw [Grouped.levels]
      omega

/-- Whatever is read as an expression is allowed by the binding powers, and opens no more levels
than there are left. -/
lemma soundAt_exprAt (levels power : ℕ) :
    SoundAt levels power (exprAt levels power : Parser σ Expr) := by
  induction levels generalizing power with
  | zero =>
    intro w e w' h
    simp [exprAt] at h
  | succ levels ih => exact soundAt_nested ih

lemma exists_spans_of_expr {power : ℕ} {w w' : Window σ} {e : Expr}
    (h : (expr power).run w = (.ok e, w')) :
    ∃ g : Grouped, g.toExpr = e ∧ g.Spans w w' ∧ g.levels ≤ Expr.maxNesting - w.depth ∧
      (∀ q ∈ g.leftPowers, power < q) ∧ extension? power w' = none :=
  soundAt_exprAt _ power h

end Grammar

/-! ## Carets

A tree with no dereference before the start of an operand has every caret read by the token after
it: the right operand of an operator between two starts with a token that can start one. -/

mutual

/-- Every caret of the tree stands between two operands if the token after it can start an operand,
and after its operand otherwise; `next` is the token after the tree if there is one. -/
def Grouped.CaretsRead : Grouped → Option Token → Prop
  | .atom _, _ => True
  | .group _ inner closing, _ => inner.CaretsRead (some closing)
  | .unary _ operand, next => operand.CaretsRead next
  | .binary operator left right, next =>
    left.CaretsRead (some operator) ∧ right.CaretsRead next ∧
      (operator.kind = .symbol .caret → ∃ t ∈ right.tokens.head?, t.startsExpression)
  | .suffix operator operand, next =>
    operand.CaretsRead (some operator) ∧
      (operator.kind = .symbol .caret → ∀ t ∈ next, ¬t.startsExpression)
  | .callNone .., _ => True
  | .call _ _ arguments, _ => arguments.CaretsRead
  | .index _ _ indexes, _ => indexes.CaretsRead

def Items.CaretsRead : Items → Prop
  | .last item closing => item.CaretsRead (some closing)
  | .more item comma rest => item.CaretsRead (some comma) ∧ rest.CaretsRead

end

mutual

lemma Grouped.DerefsClear.caretsRead : ∀ {g : Grouped} {next : Option Token},
    g.WellFormed → g.DerefsClear next → g.CaretsRead next
  | .atom _, _, _, _ => trivial
  | .group _ inner _, _, hwf, h => Grouped.DerefsClear.caretsRead (g := inner) hwf.2.1 h
  | .unary _ operand, _, hwf, h => Grouped.DerefsClear.caretsRead (g := operand) hwf.2 h
  | .binary .., _, hwf, h => by
      obtain ⟨t, ts, hts, ht⟩ := Grouped.exists_tokens_eq_cons hwf.2.2
      exact ⟨Grouped.DerefsClear.caretsRead hwf.2.1 h.1,
        Grouped.DerefsClear.caretsRead hwf.2.2 h.2, fun _ => ⟨t, by simp [hts], ht⟩⟩
  | .suffix .., _, hwf, h => ⟨Grouped.DerefsClear.caretsRead hwf.2 h.1, fun _ => h.2⟩
  | .callNone .., _, _, _ => trivial
  | .call .., _, hwf, h => Items.DerefsClear.caretsRead hwf.2.2 h
  | .index .., _, hwf, h => Items.DerefsClear.caretsRead hwf.2.2 h

lemma Items.DerefsClear.caretsRead {closing : Kind} : ∀ {is : Items},
    is.WellFormed closing → is.DerefsClear → is.CaretsRead
  | .last .., hwf, h => Grouped.DerefsClear.caretsRead hwf.1 h
  | .more .., hwf, h =>
      ⟨Grouped.DerefsClear.caretsRead hwf.1 h.1, Items.DerefsClear.caretsRead hwf.2.2 h.2⟩

end

/-- What follows the tree matters only to a dereference at its end. -/
lemma Grouped.DerefsClear.change : ∀ {g : Grouped} {next next' : Option Token},
    g.DerefsClear next → (∀ t ∈ next', ¬t.startsExpression) → g.DerefsClear next'
  | .unary _ operand, _, _, h, hn => change (g := operand) h hn
  | .binary .., _, _, h, hn => ⟨h.1, change h.2 hn⟩
  | .suffix .., _, _, h, hn => ⟨h.1, hn⟩
  | .atom _, _, _, h, _ => h
  | .group .., _, _, h, _ => h
  | .callNone .., _, _, h, _ => h
  | .call .., _, _, h, _ => h
  | .index .., _, _, h, _ => h

/-! ## The expression of a source text -/

lemma Parser.run_endOfStatement_eq_ok {w w' : Window σ} {u : Unit} :
    (endOfStatement : Parser σ Unit).run w = (.ok u, w') ↔
      w.current.endsStatement ∧ w = w' := by
  rw [endOfStatement, run_window_bind]
  split <;> simp [*]

/-- What a source text is read as spans its first line. -/
lemma exists_spans_of_parseExpression {source : String} {e : Expr}
    (h : parseExpression source = .ok e) :
    ∃ (g : Grouped) (w : Window Cursor), g.toExpr = e ∧
      g.Spans (Window.ofStream (Cursor.ofSource source)) w ∧ w.current.endsStatement ∧
      g.levels ≤ Expr.maxNesting := by
  have hrun : (standalone : Parser Cursor Expr).run (Window.ofStream (Cursor.ofSource source)) =
      (.ok e, (standalone.run (Window.ofStream (Cursor.ofSource source))).2) :=
    Prod.ext h rfl
  rw [standalone, run_bind_eq_ok] at hrun
  obtain ⟨e₁, w₁, hexpr, hrun⟩ := hrun
  rw [run_bind_eq_ok] at hrun
  obtain ⟨_, w₂, hend, hrun⟩ := hrun
  obtain ⟨rfl, -⟩ := run_pure_eq_ok.1 hrun
  obtain ⟨hends, rfl⟩ := run_endOfStatement_eq_ok.1 hend
  obtain ⟨g, rfl, hg, hlevels, -, -⟩ := exists_spans_of_expr hexpr
  exact ⟨g, w₁, rfl, hg, hends, hlevels⟩

/-- **Operators group as their binding powers say.**  When a source text is read as an expression,
the tokens of its first line are the tokens of a grouped tree over that expression: those of the
expression in their order, the brackets and commas of its calls and indexings, and pairs of
parentheses around some subtrees.  Every operator of the tree binds its operands as its powers say,
every caret is read by the token after it, and no more expressions are open than are allowed. -/
theorem exists_grouped_of_parseExpression {source : String} {e : Expr}
    (h : parseExpression source = .ok e) :
    ∃ g : Grouped, g.toExpr = e ∧ g.tokens = lineTokens source ∧ g.WellFormed ∧ g.Binds ∧
      g.CaretsRead none ∧ g.levels ≤ Expr.maxNesting := by
  obtain ⟨g, w, rfl, hg, hends, hlevels⟩ := exists_spans_of_parseExpression h
  have hclear : g.DerefsClear none := hg.derefsClear.change (by simp)
  refine ⟨g, rfl, ?_, hg.wellFormed, hg.binds, hclear.caretsRead hg.wellFormed, hlevels⟩
  obtain ⟨t, ht, hline⟩ := TokenStream.exists_shows_line (Cursor.ofSource source)
  have hshows : (Window.ofStream (Cursor.ofSource source)).Shows (g.tokens ++ [w.current]) := by
    rw [Window.shows_append, hg.stops]
    exact ⟨hg.shows, rfl, trivial⟩
  have hplain : ∀ t ∈ g.tokens, t.Plain := hg.shows.forall_mem Cursor.plain_next
  exact hshows.eq_of_ends hline hends ht (Grouped.not_endsStatement hg.wellFormed hplain)
    fun t => TokenStream.not_endsStatement_of_mem_line

/-- A sign inside a power, a call and a dereference at the end of the line. -/
theorem exists_grouped_sign_in_power :
    ∃ (e : Expr) (g : Grouped), parseExpression "a ^ -b ^ f(1) = p^" = .ok e ∧
      e.text = "((a ^ (-(b ^ f(1)))) = (p^))" ∧ g.toExpr = e ∧
      g.tokens = lineTokens "a ^ -b ^ f(1) = p^" ∧ g.Binds := by
  have htext : (parseExpression "a ^ -b ^ f(1) = p^").toOption.map Expr.text =
      some "((a ^ (-(b ^ f(1)))) = (p^))" := by decide +kernel
  cases h : parseExpression "a ^ -b ^ f(1) = p^" with
  | error d => simp [h, Except.toOption] at htext
  | ok e =>
    obtain ⟨g, hg, htokens, -, hbinds, -⟩ := exists_grouped_of_parseExpression h
    exact ⟨e, g, rfl, by simpa [h, Except.toOption] using htext, hg, htokens, hbinds⟩

end Pseudolang
