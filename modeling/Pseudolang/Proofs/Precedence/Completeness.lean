import Pseudolang.Grammar.Unrolling
import Pseudolang.Proofs.Precedence.Soundness

/-!
# Every tree that the binding powers allow is read

The converse of soundness: where the tokens ahead are those of a grouped tree that the binding
powers allow, `Grammar.expr` reads that tree and stops right after it, provided that the levels it
needs are left.  Otherwise the nesting is refused.  Nothing else can happen.

Both outcomes are carried by one statement.  `Parser.Needs p w need a w'` says that `p` reads `a`
from `w` to `w'` if `need` more expressions may be opened at `w`, and is refused as nested too
deeply if not.  Such statements compose along the parser: what a sequence needs is the larger of
what its parts need (`Parser.Needs.bind`), and opening an expression adds one
(`Parser.Needs.nested`).

The operators of a tree are taken by one loop along its left spine, so the induction is not on what
`expr` returns but on the loop.  `Grouped.ReadsBack` says that a run of operators which has arrived
behind the tree may be continued in any way; an operator between two operands continues the run of
its left operand by one round.
-/

namespace Pseudolang

open Pseudolang.Grammar Pseudolang.Parser

variable {σ : Type} [TokenStream σ] {α β : Type}

/-! ## The levels that a parser needs -/

/-- With `need` more expressions to open the parser reads `a` and stops at `w'`; with fewer it is
refused at some window as nested too deeply. -/
structure Parser.Needs (p : Parser σ α) (w : Window σ) (need : ℕ) (a : α) (w' : Window σ) :
    Prop where
  ok : w.depth + need ≤ Expr.maxNesting → p.run w = (.ok a, w')
  tooDeep : w.depth ≤ Expr.maxNesting → Expr.maxNesting < w.depth + need →
    ∃ w'', p.run w = (.error w''.tooDeep, w'')

namespace Parser.Needs

variable {p q : Parser σ α} {f : α → Parser σ β} {w w₁ w₂ : Window σ} {a : α} {b : β} {m n : ℕ}

lemma of_run_eq (h : p.run w = (.ok a, w₁)) : Needs p w 0 a w₁ where
  ok _ := h
  tooDeep hw hn := by omega

/-- What a parser needs can be read off any parser with the same run, as long as the same number of
expressions is open. -/
lemma congr (hrun : p.run w = q.run w₁) (hdepth : w₁.depth = w.depth)
    (h : Needs q w₁ n a w₂) : Needs p w n a w₂ where
  ok hn := by rw [hrun, h.ok (by omega)]
  tooDeep hw hn := by
    rw [hrun]
    exact h.tooDeep (by omega) (by omega)

lemma bind (hp : Needs p w m a w₁) (hf : Needs (f a) w₁ n b w₂) :
    Needs (p >>= f) w (max m n) b w₂ := by
  have hdepth : w.depth + m ≤ Expr.maxNesting → w₁.depth = w.depth := by
    intro hm
    have := p.depth_run w
    rwa [hp.ok hm] at this
  constructor
  · intro hn
    have hm : w.depth + m ≤ Expr.maxNesting := by omega
    rw [run_bind_of_ok (hp.ok hm)]
    exact hf.ok (by rw [hdepth hm]; omega)
  · intro hw hn
    by_cases hm : w.depth + m ≤ Expr.maxNesting
    · rw [run_bind_of_ok (hp.ok hm)]
      exact hf.tooDeep (by rw [hdepth hm]; omega) (by rw [hdepth hm]; omega)
    · obtain ⟨w₃, h₃⟩ := hp.tooDeep hw (by omega)
      exact ⟨w₃, run_bind_of_error h₃⟩

lemma bind_pure (hp : Needs p w n a w₁) (g : α → β) :
    Needs (p >>= fun x => pure (g x)) w n (g a) w₁ := by
  have h := hp.bind (f := fun x => pure (g x)) (of_run_eq rfl)
  rwa [Nat.max_zero] at h

lemma take_bind {f : Token → Parser σ β} (h : Needs (f w.current) w.advance n b w₁) :
    Needs (take >>= f) w n b w₁ :=
  h.congr (run_take_bind f w) rfl

lemma window_bind {f : Window σ → Parser σ β} (h : Needs (f w) w n b w₁) :
    Needs (window >>= f) w n b w₁ :=
  h.congr (run_window_bind f w) rfl

lemma commaSeparated {as : List α} (hp : Needs p w m a w₁)
    (htail : Needs (commaTail p) w₁ n as w₂) :
    Needs (commaSeparated p) w (max m n) (a :: as) w₂ :=
  hp.bind (f := fun x => commaTail p >>= fun xs => pure (x :: xs)) (htail.bind_pure (a :: ·))

/-- Opening an expression needs one level more. -/
lemma nested {k : ℕ} (h : Needs p { w with depth := w.depth + 1 } n a
    (({ w with depth := w.depth + 1 } : Window σ).advanceBy k)) :
    Needs (nested p) w (n + 1) a (w.advanceBy k) := by
  by_cases hw : Expr.maxNesting ≤ w.depth
  · have he : w.enter = .error w.tooDeep := if_pos hw
    exact ⟨fun hn => by omega, fun _ _ => ⟨w, run_nested_of_error he⟩⟩
  · have he : w.enter = .ok { w with depth := w.depth + 1 } := if_neg hw
    constructor
    · intro hn
      have hrun := h.ok (show w.depth + 1 + n ≤ Expr.maxNesting by omega)
      rw [run_nested_of_ok he, hrun, Window.leave_advanceBy_of_enter he]
    · intro _ hn
      obtain ⟨w₃, h₃⟩ := h.tooDeep (show w.depth + 1 ≤ Expr.maxNesting by omega)
        (show Expr.maxNesting < w.depth + 1 + n by omega)
      refine ⟨w₃.leave, ?_⟩
      rw [run_nested_of_ok he, h₃]
      rfl

end Parser.Needs

/-! ## The loop over operators -/

/-- The rounds of `operatorsWith` from an expression on. -/
def Grammar.operatorsFrom (power : ℕ) (grouped : Bool) (left : Expr) : Parser σ Expr :=
  iterate (extension? power) (extendBy expr grouped) left

namespace Grammar

variable {power n : ℕ} {grouped : Bool} {left e : Expr} {w w' : Window σ}

lemma needs_operatorsWith
    (h : Needs (operandWith expr >>= operatorsFrom power (w.current.kind = .symbol .openParen))
      w n e w') : Needs (operatorsWith expr power) w n e w' :=
  h.congr (run_window_bind _ w) rfl

lemma needs_operatorsFrom_stop (h : extension? power w = none) :
    Needs (operatorsFrom power grouped left) w 0 left w := by
  apply Needs.of_run_eq
  rw [operatorsFrom, run_iterate, h]
  split <;> rfl

lemma needs_operatorsFrom_step {extension : Extension} (hx : extension? power w = some extension)
    (h : Needs (extendBy expr grouped extension w.current left >>= operatorsFrom power grouped)
      w.advance n e w') : Needs (operatorsFrom power grouped left) w n e w' := by
  have hf : w.current.kind ≠ .endOfFile := by
    intro hf
    rw [extension?_of_inert (by rw [hf]; exact ⟨rfl, rfl⟩)] at hx
    cases hx
  have hrun : (operatorsFrom power grouped left).run w =
      (extendBy expr grouped extension w.current left >>= operatorsFrom power grouped).run
        w.advance := by
    rw [operatorsFrom, run_iterate, if_neg hf, hx]
    rfl
  exact h.congr hrun rfl

end Grammar

/-! ## Reading a tree back -/

/-- The tree is one that is read where `next` follows it. -/
structure Grouped.Allowed (g : Grouped) (next : Token) : Prop where
  wellFormed : g.WellFormed
  binds : g.Binds
  derefsClear : g.DerefsClear (some next)
  plain : ∀ t ∈ g.tokens, t.Plain

/-- The list is one that is read, up to its closing token. -/
structure Items.Allowed (is : Items) (closing : Kind) : Prop where
  wellFormed : is.WellFormed closing
  binds : is.Binds
  derefsClear : is.DerefsClear
  plain : ∀ t ∈ is.body, t.Plain

/-- Where the tokens of the tree are ahead, and no operator on its right spine can go on after
them, reading operators comes to the end of the tree and continues from there. -/
def Grouped.ReadsBack (σ : Type) [TokenStream σ] (g : Grouped) : Prop :=
  ∀ ⦃w w' : Window σ⦄ ⦃next : Token⦄ ⦃power need : ℕ⦄ ⦃e : Expr⦄, g.Allowed next →
    w.Shows (g.tokens ++ [next]) → (∀ q ∈ g.leftPowers, power < q) →
    (∀ q ∈ g.rightPowers, extension? q (w.advanceBy g.tokens.length) = none) →
    Needs (operatorsFrom power (w.current.kind = .symbol .openParen) g.toExpr)
      (w.advanceBy g.tokens.length) need e w' →
    Needs (operatorsWith expr power) w (max g.nesting need) e w'

/-- Where the tokens of the list are ahead, its items are read up to the closing token. -/
def Items.ReadsBack (σ : Type) [TokenStream σ] (is : Items) : Prop :=
  ∀ ⦃w : Window σ⦄ ⦃closing : Kind⦄, is.Allowed closing → closing.Inert →
    closing ≠ .symbol .comma → w.Shows (is.body ++ [is.closing]) →
    Needs (commaSeparated (expr minPower)) w is.nesting is.toExprs (w.advanceBy is.body.length)

/-- A tree that is read back is read as an expression, where no operator can go on after it. -/
lemma Grouped.ReadsBack.needs_expr {g : Grouped} (h : g.ReadsBack σ) {w : Window σ} {next : Token}
    {power : ℕ} (ha : g.Allowed next) (hs : w.Shows (g.tokens ++ [next]))
    (habove : ∀ q ∈ g.leftPowers, power < q)
    (hends : ∀ q ∈ g.rightPowers, extension? q (w.advanceBy g.tokens.length) = none)
    (hend : extension? power (w.advanceBy g.tokens.length) = none) :
    Needs (expr power) w g.levels g.toExpr (w.advanceBy g.tokens.length) := by
  rw [expr_eq, levels, Nat.add_comm]
  apply Needs.nested
  -- One more expression is open inside, which no token and no extension depends on.
  set w₁ : Window σ := { w with depth := w.depth + 1 }
  have hadv : w₁.advanceBy g.tokens.length =
      { w.advanceBy g.tokens.length with depth := w.depth + 1 } := Window.advanceBy_depth ..
  have hstop : Needs (operatorsFrom power (w₁.current.kind = .symbol .openParen) g.toExpr)
      (w₁.advanceBy g.tokens.length) 0 g.toExpr (w₁.advanceBy g.tokens.length) := by
    apply needs_operatorsFrom_stop
    rw [hadv]
    exact hend
  have hends₁ : ∀ q ∈ g.rightPowers, extension? q (w₁.advanceBy g.tokens.length) = none := by
    rw [hadv]
    exact hends
  simpa using h ha ((Window.shows_depth w _ _).2 hs) habove hends₁ hstop

namespace Grouped

/-! ### Operands -/

lemma readsBack_atom (token : Token) : (atom token).ReadsBack σ := by
  intro w w' next power need e ha hs _ _ hrest
  have hw : w.current = token := hs.1
  have hatom : w.current.isAtom := hw ▸ ha.wellFormed
  have hrun : (operandWith expr).run w = (.ok (.atom token), w.advance) := by
    rw [operandWith, run_window_bind, if_pos hatom, ← hw]
    rfl
  exact needs_operatorsWith ((Needs.of_run_eq hrun).bind hrest)

/-- A token that is an operator or a delimiter by its kind is no atom. -/
lemma not_isAtom_of_plain {t : Token} (hp : t.Plain) (hk : t.kind ≠ .identifier)
    (hn : ¬t.kind.isNative) : ¬t.isAtom := by
  intro ha
  rcases hp.kind_of_isAtom ha with h | h
  · exact hk h
  · exact hn h

/-- Every power is above that of a whole expression. -/
lemma pos_of_mem_leftPowers : ∀ {g : Grouped} {q : ℕ}, q ∈ g.leftPowers → minPower < q
  | .binary operator left _, q, hq => by
      rcases List.mem_append.1 hq with hq | hq
      · obtain ⟨p, hp, rfl⟩ : ∃ p, operator.kind.binaryPower? = some p ∧ p.left = q := by
          simpa using hq
        exact Kind.minPower_lt_of_binary hp
      · exact pos_of_mem_leftPowers hq
  | .suffix operator operand, q, hq => by
      rcases List.mem_append.1 hq with hq | hq
      · exact Kind.minPower_lt_of_suffix (by simpa using hq)
      · exact pos_of_mem_leftPowers hq
  | .callNone .., q, hq => Kind.minPower_lt_of_suffix (by simpa [leftPowers] using hq)
  | .call .., q, hq => Kind.minPower_lt_of_suffix (by simpa [leftPowers] using hq)
  | .index .., q, hq => Kind.minPower_lt_of_suffix (by simpa [leftPowers] using hq)
  | .atom _, q, hq => by cases hq
  | .group .., q, hq => by cases hq
  | .unary .., q, hq => by cases hq

/-- A tree before a token that extends nothing is read as a whole expression. -/
lemma ReadsBack.needs_expr_of_inert {g : Grouped} (h : g.ReadsBack σ) {w : Window σ} {next : Token}
    (ha : g.Allowed next) (hs : w.Shows (g.tokens ++ [next])) (hi : next.kind.Inert) :
    Needs (expr minPower) w g.levels g.toExpr (w.advanceBy g.tokens.length) := by
  have hnext : (w.advanceBy g.tokens.length).current = next := ((Window.shows_append ..).1 hs).2.1
  have hnone : ∀ q, extension? q (w.advanceBy g.tokens.length) = none :=
    extension?_of_inert (hnext ▸ hi)
  exact h.needs_expr ha hs (fun q hq => pos_of_mem_leftPowers hq) (fun q _ => hnone q) (hnone _)

lemma readsBack_group {opening closing : Token} {inner : Grouped} (h : inner.ReadsBack σ) :
    (group opening inner closing).ReadsBack σ := by
  intro w w' next power need e ha hs _ _ hrest
  obtain ⟨hopen, hinner, hclose⟩ := ha.wellFormed
  have hw : w.current = opening := hs.1
  obtain ⟨hsinner, -⟩ : w.advance.Shows (inner.tokens ++ [closing]) ∧ _ :=
    (Window.shows_append ..).1 hs.2
  have hnot : ¬w.current.isAtom := by
    rw [hw]
    exact not_isAtom_of_plain (ha.plain opening (by simp [tokens])) (by simp [hopen])
      (by simp [hopen, Kind.isNative])
  have hallowed : inner.Allowed closing :=
    ⟨hinner, ha.binds, ha.derefsClear, fun t ht => ha.plain t (by simp [tokens, ht])⟩
  have hexpr := h.needs_expr_of_inert hallowed hsinner (by rw [hclose]; exact ⟨rfl, rfl⟩)
  have hcurrent : (w.advance.advanceBy inner.tokens.length).current = closing :=
    ((Window.shows_append ..).1 hsinner).2.1
  -- The closing parenthesis needs no level of its own.
  have hexpect : Needs (expect (.symbol .closeParen) >>= fun _ => pure inner.toExpr)
      (w.advance.advanceBy inner.tokens.length) 0 inner.toExpr
      (w.advanceBy (group opening inner closing).tokens.length) := by
    apply Needs.of_run_eq
    rw [run_bind, run_expect, if_pos (by rw [hcurrent, hclose])]
    simp [tokens, Window.advanceBy, Window.advanceBy_succ]
  have hgroup : Needs (groupWith expr) w inner.levels inner.toExpr
      (w.advanceBy (group opening inner closing).tokens.length) := by
    apply Needs.take_bind
    simpa using hexpr.bind (f := fun e => expect (.symbol .closeParen) >>= fun _ => pure e) hexpect
  have hrun : (operandWith expr).run w = (groupWith expr).run w := by
    rw [operandWith, run_window_bind, if_neg hnot, if_pos (by rw [hw, hopen])]
  have hneeds := (hgroup.congr hrun rfl).bind hrest
  rw [levels, Nat.add_comm] at hneeds
  exact needs_operatorsWith hneeds

lemma readsBack_unary {operator : Token} {operand : Grouped} (h : operand.ReadsBack σ) :
    (unary operator operand).ReadsBack σ := by
  intro w w' next power need e ha hs _ hends hrest
  obtain ⟨hsome, hoperand⟩ := ha.wellFormed
  obtain ⟨p, hp⟩ := Option.isSome_iff_exists.1 hsome
  have hw : w.current = operator := hs.1
  have hnot : ¬w.current.isAtom := by
    rw [hw]
    refine not_isAtom_of_plain (ha.plain operator (by simp [tokens])) ?_ ?_
    · intro hk
      simp [hk, Kind.unaryPower?] at hp
    · intro hk
      cases hkind : operator.kind <;> simp [hkind, Kind.isNative, Kind.unaryPower?] at hk hp
  have hparen : w.current.kind ≠ .symbol .openParen := by
    rw [hw]
    intro hk
    simp [hk, Kind.unaryPower?] at hp
  have hallowed : operand.Allowed next :=
    ⟨hoperand, ha.binds.1, ha.derefsClear, fun t ht => ha.plain t (by simp [tokens, ht])⟩
  have hexpr := h.needs_expr hallowed hs.2 (ha.binds.2 p hp)
    (fun q hq => hends q (by simp [rightPowers, hq])) (hends p (by simp [rightPowers, hp]))
  have hunary : Needs (unaryWith expr p) w operand.levels (.unary operator operand.toExpr)
      (w.advanceBy (unary operator operand).tokens.length) := by
    apply Needs.take_bind
    rw [hw]
    exact hexpr.bind_pure _
  have hrun : (operandWith expr).run w = (unaryWith expr p).run w := by
    rw [operandWith, run_window_bind, if_neg hnot, if_neg hparen, hw, hp]
  have hneeds := (hunary.congr hrun rfl).bind hrest
  rw [levels, Nat.add_comm] at hneeds
  exact needs_operatorsWith hneeds

/-! ### Operators between and after operands -/

/-- The operator continues the run of its left operand by one round, in which the right operand is
read as an expression. -/
lemma readsBack_binary {operator : Token} {left right : Grouped} (hl : left.ReadsBack σ)
    (hr : right.ReadsBack σ) : (binary operator left right).ReadsBack σ := by
  intro w w' next power need e ha hs habove hends hrest
  obtain ⟨hsome, hleft, hright⟩ := ha.wellFormed
  obtain ⟨p, hp⟩ := Option.isSome_iff_exists.1 hsome
  obtain ⟨hbl, hbr, hpowers⟩ := ha.binds
  obtain ⟨hspine, hspine'⟩ := hpowers p hp
  -- The window at the operator, and what it shows.
  set w₁ := w.advanceBy left.tokens.length with hw₁
  have hstokens : w.Shows (left.tokens ++ operator :: (right.tokens ++ [next])) := by
    simpa [tokens] using hs
  obtain ⟨hsl, hcurrent, hsr⟩ := (Window.shows_append ..).1 hstokens
  have hend : w.advanceBy (binary operator left right).tokens.length =
      w₁.advance.advanceBy right.tokens.length := by
    simp [tokens, Window.advanceBy_add, Window.advanceBy, hw₁]
  rw [hend] at hends hrest
  have hpeek : w₁.peek.startsExpression := by
    obtain ⟨t, ts, hts, ht⟩ := exists_tokens_eq_cons hright
    rw [hts] at hsr
    have hfirst : w₁.peek = t := hsr.1
    rwa [hfirst]
  have hp₁ : w₁.current.kind.binaryPower? = some p := by rw [hcurrent, hp]
  have hext := extension?_of_binary hp₁ (suffixPower?_of_binary hp₁ hpeek)
  -- One round with the right operand, and then the rest.
  have hexpr : Needs (expr p.right) w₁.advance right.levels right.toExpr
      (w₁.advance.advanceBy right.tokens.length) :=
    hr.needs_expr ⟨hright, hbr, ha.derefsClear.2, fun t ht => ha.plain t (by simp [tokens, ht])⟩ hsr
      hspine' (fun q hq => hends q (by simp [rightPowers, hq]))
      (hends _ (by simp [rightPowers, hp]))
  have hround : Needs (operatorsFrom power (w.current.kind = .symbol .openParen) left.toExpr) w₁
      (max right.levels need) e w' := by
    refine needs_operatorsFrom_step
      ((hext power).trans (if_pos (habove _ (by simp [leftPowers, hp])))) ?_
    rw [hcurrent]
    exact (hexpr.bind_pure _).bind hrest
  have hallowed : left.Allowed operator :=
    ⟨hleft, hbl, ha.derefsClear.1, fun t ht => ha.plain t (by simp [tokens, ht])⟩
  have hneeds := hl hallowed
    ((Window.shows_append ..).2 ⟨hsl, hcurrent, trivial⟩)
    (fun q hq => habove q (by simp [leftPowers, hq]))
    (fun q hq => (hext q).trans (if_neg (Nat.not_lt.2 (hspine q hq)))) hround
  rw [← max_assoc, levels, Nat.add_comm 1] at hneeds
  exact hneeds

lemma readsBack_suffix {operator : Token} {operand : Grouped} (h : operand.ReadsBack σ) :
    (suffix operator operand).ReadsBack σ := by
  intro w w' next power need e ha hs habove _ hrest
  obtain ⟨hcaret, hoperand⟩ := ha.wellFormed
  obtain ⟨hb, hpowers⟩ := ha.binds
  obtain ⟨hclear, hnext⟩ := ha.derefsClear
  set w₁ := w.advanceBy operand.tokens.length with hw₁
  have hstokens : w.Shows (operand.tokens ++ [operator, next]) := by simpa [tokens] using hs
  obtain ⟨hso, hcurrent, hpeek, -⟩ := (Window.shows_append ..).1 hstokens
  have hend : w.advanceBy (suffix operator operand).tokens.length = w₁.advance := by
    simp [tokens, Window.advanceBy_succ, hw₁]
  rw [hend] at hrest
  have hsp : suffixPower? w₁ = operator.kind.suffixPower? := by
    have hfollow : w₁.peek = next := hpeek
    rw [suffixPower?, if_neg fun hc => hnext next rfl (hfollow ▸ hc.2), hcurrent]
  obtain ⟨p, hp⟩ : ∃ p, operator.kind.suffixPower? = some p := ⟨_, by rw [hcaret]; rfl⟩
  have hext := extension?_of_suffix (hsp.trans hp)
  have hround : Needs (operatorsFrom power (w.current.kind = .symbol .openParen) operand.toExpr) w₁
      need e w' := by
    refine needs_operatorsFrom_step
      ((hext power).trans (if_pos (habove _ (by simp [leftPowers, hp])))) ?_
    have hrun : (extendBy expr (w.current.kind = .symbol .openParen) .suffix w₁.current
        operand.toExpr).run w₁.advance = (.ok (.suffix operator operand.toExpr), w₁.advance) := by
      rw [hcurrent, extendBy, suffixAfter, if_neg (by simp [hcaret])]
      rfl
    simpa using (Needs.of_run_eq hrun).bind hrest
  have hallowed : operand.Allowed operator :=
    ⟨hoperand, hb, hclear, fun t ht => ha.plain t (by simp [tokens, ht])⟩
  exact h hallowed
    ((Window.shows_append ..).2 ⟨hso, hcurrent, trivial⟩)
    (fun q hq => habove q (by simp [leftPowers, hq]))
    (fun q hq => (hext q).trans (if_neg (Nat.not_lt.2 (hpowers p hp q hq)))) hround

end Grouped

/-! ### Lists -/

namespace Items

lemma kind_closing {k : Kind} : ∀ is : Items, is.WellFormed k → is.closing.kind = k
  | .last .., h => h.2
  | .more _ _ rest, h => kind_closing rest h.2.2

/-- A list starts with a token that can start an expression, so not with a closing one. -/
lemma current_kind_ne {is : Items} {k : Kind} {s : Symbol} {w : Window σ} (h : is.WellFormed k)
    (hplain : ∀ t ∈ is.body, t.Plain) (hs : w.Shows (is.body ++ [is.closing]))
    (hparen : s ≠ .openParen) (hminus : s ≠ .minus) : w.current.kind ≠ .symbol s := by
  obtain ⟨t, ts, hts, ht⟩ : ∃ t ts, is.body = t :: ts ∧ t.startsExpression := by
    cases is with
    | last item _ => exact Grouped.exists_tokens_eq_cons h.1
    | more item _ rest =>
      obtain ⟨t, ts, hts, ht⟩ := Grouped.exists_tokens_eq_cons h.1
      exact ⟨t, _, by rw [body, hts]; rfl, ht⟩
  rw [hts] at hs hplain
  have hw : w.current = t := hs.1
  rw [hw]
  exact (hplain t (List.mem_cons_self ..)).kind_ne_of_startsExpression ht hparen hminus

lemma readsBack_last {item : Grouped} {token : Token} (h : item.ReadsBack σ) :
    (last item token).ReadsBack σ := by
  intro w closing ha hi hcomma hs
  obtain ⟨hitem, hk⟩ := ha.wellFormed
  have hexpr := h.needs_expr_of_inert ⟨hitem, ha.binds, ha.derefsClear, ha.plain⟩ hs (hk ▸ hi)
  have hcurrent : (w.advanceBy item.tokens.length).current = token :=
    ((Window.shows_append ..).1 hs).2.1
  have htail : (commaTail (expr minPower)).run (w.advanceBy item.tokens.length) =
      (.ok [], w.advanceBy item.tokens.length) := by
    rw [run_commaTail, if_neg (by rw [hcurrent, hk]; exact hcomma)]
  have hneeds := hexpr.commaSeparated (Needs.of_run_eq htail)
  rw [Nat.max_zero, Grouped.levels, Nat.add_comm] at hneeds
  exact hneeds

lemma readsBack_more {item : Grouped} {comma : Token} {rest : Items} (h : item.ReadsBack σ)
    (hrest : rest.ReadsBack σ) : (more item comma rest).ReadsBack σ := by
  intro w closing ha hi hcomma hs
  obtain ⟨hitem, hk, hwf⟩ := ha.wellFormed
  set w₁ := w.advanceBy item.tokens.length with hw₁
  have hstokens : w.Shows (item.tokens ++ comma :: (rest.body ++ [rest.closing])) := by
    simpa [body, Items.closing] using hs
  obtain ⟨hsitem, hcurrent, hsrest⟩ := (Window.shows_append ..).1 hstokens
  have hend : w.advanceBy (more item comma rest).body.length =
      w₁.advance.advanceBy rest.body.length := by
    simp [body, Window.advanceBy_add, Window.advanceBy, hw₁]
  have hallowed : item.Allowed comma :=
    ⟨hitem, ha.binds.1, ha.derefsClear.1, fun t ht => ha.plain t (by simp [body, ht])⟩
  have hexpr := h.needs_expr_of_inert hallowed
    ((Window.shows_append ..).2 ⟨hsitem, hcurrent, trivial⟩) (hk ▸ ⟨rfl, rfl⟩)
  have hitems : Needs (commaSeparated (expr minPower)) w₁.advance rest.nesting rest.toExprs
      (w₁.advance.advanceBy rest.body.length) :=
    hrest ⟨hwf, ha.binds.2, ha.derefsClear.2, fun t ht => ha.plain t (by simp [body, ht])⟩ hi
      hcomma hsrest
  -- After a comma the tail of a list is read as a list of its own.
  have htail : (commaTail (expr minPower)).run w₁ =
      (commaSeparated (expr minPower)).run w₁.advance := by
    rw [run_commaTail, if_pos (by rw [hcurrent, hk])]
    rfl
  have hneeds := hexpr.commaSeparated (hitems.congr htail rfl)
  rw [Grouped.levels, Nat.add_comm 1, ← hend] at hneeds
  exact hneeds

/-- A list is read up to and including its closing token. -/
lemma ReadsBack.needs_listWith {is : Items} (h : is.ReadsBack σ) {closing : Kind} {w : Window σ}
    (allowEmpty : Bool) (ha : is.Allowed closing) (hi : closing.Inert)
    (hcomma : closing ≠ .symbol .comma) (hs : w.Shows (is.body ++ [is.closing]))
    (hne : w.current.kind ≠ closing) :
    Needs (listWith expr closing allowEmpty) w is.nesting is.toExprs
      (w.advanceBy (is.body.length + 1)) := by
  set w₁ := w.advanceBy is.body.length with hw₁
  have hcurrent : w₁.current.kind = closing := by
    have hclosing : w₁.current = is.closing := ((Window.shows_append ..).1 hs).2.1
    rw [hclosing, kind_closing is ha.wellFormed]
  have hclose : Needs
      (window >>= fun v => expectOr closing (v.unexpected ("`,` or " ++ closing.describe)) >>=
        fun _ => pure is.toExprs) w₁ 0 is.toExprs w₁.advance := by
    apply Needs.of_run_eq
    rw [run_window_bind, run_bind, run_expectOr, if_pos hcurrent]
    rfl
  apply Needs.window_bind
  rw [if_neg fun hempty => hne hempty.2, Window.advanceBy_succ, ← hw₁]
  have hneeds := (h ha hi hcomma hs).bind (f := fun es => window >>= fun v =>
    expectOr closing (v.unexpected ("`,` or " ++ closing.describe)) >>= fun _ => pure es) hclose
  rwa [Nat.max_zero] at hneeds

end Items

/-! ### Calls and indexings -/

namespace Grouped

/-- An identifier and the bracket after it are taken, and what the bracket makes of the identifier
continues the run. -/
lemma needs_bracket {callee opening : Token} {arguments : List Expr} {w w₁ w' : Window σ}
    {power p m n : ℕ} {e : Expr} {list : Parser σ (List Expr)} {make : List Expr → Expr}
    (hk : callee.kind = .identifier) (hw : w.current = callee)
    (ho : w.advance.current = opening) (hc : opening.kind ≠ .symbol .caret)
    (hp : opening.kind.suffixPower? = some p) (hpower : power < p)
    (hafter : suffixAfter expr (.atom callee) false opening = list >>= fun es => pure (make es))
    (hlist : Needs list w.advance.advance m arguments w₁)
    (hrest : Needs (operatorsFrom power (w.current.kind = .symbol .openParen) (make arguments)) w₁
      n e w') :
    Needs (operatorsWith expr power) w (max m n) e w' := by
  have hgrouped : decide (w.current.kind = .symbol .openParen) = false := by simp [hw, hk]
  rw [hgrouped] at hrest
  have hoperand : (operandWith expr).run w = (.ok (.atom callee), w.advance) := by
    rw [operandWith, run_window_bind, if_pos (hw ▸ Token.isAtom_of_kind hk), ← hw]
    rfl
  have hsp : suffixPower? w.advance = some p := by
    rw [suffixPower?, if_neg fun h => hc (ho ▸ h.1), ho, hp]
  have hround : Needs (operatorsFrom power false (.atom callee)) w.advance (max m n) e w' := by
    refine needs_operatorsFrom_step ((extension?_of_suffix hsp power).trans (if_pos hpower)) ?_
    rw [ho, extendBy, hafter]
    exact (hlist.bind_pure make).bind hrest
  have hneeds : Needs (operandWith expr >>= operatorsFrom power false) w (max 0 (max m n)) e w' :=
    (Needs.of_run_eq hoperand).bind hround
  rw [Nat.zero_max, ← hgrouped] at hneeds
  exact needs_operatorsWith hneeds

lemma suffixAfter_openParen {callee opening : Token} (hk : callee.kind = .identifier)
    (ho : opening.kind = .symbol .openParen) :
    (suffixAfter expr (.atom callee) false opening : Parser σ Expr) =
      listWith expr (.symbol .closeParen) true >>= fun es => pure (.call callee es) := by
  simp [suffixAfter, ho, callee?, Expr.identifier?, hk]

lemma suffixAfter_openBracket {callee opening : Token} (hk : callee.kind = .identifier)
    (ho : opening.kind = .symbol .openBracket) :
    (suffixAfter expr (.atom callee) false opening : Parser σ Expr) =
      listWith expr (.symbol .closeBracket) false >>= fun es => pure (.index callee es) := by
  simp [suffixAfter, ho, callee?, Expr.identifier?, hk]

lemma readsBack_callNone (callee opening closing : Token) :
    (callNone callee opening closing).ReadsBack σ := by
  intro w w' next power need e ha hs habove _ hrest
  obtain ⟨hk, hopen, hclose⟩ := ha.wellFormed
  obtain ⟨hw, ho, hcurrent, -⟩ := hs
  have hp : opening.kind.suffixPower? = some 23 := by rw [hopen]; rfl
  have hlist : (listWith expr (.symbol .closeParen) true).run w.advance.advance =
      (.ok [], w.advance.advance.advance) := by
    rw [listWith, run_window_bind, if_pos ⟨rfl, by rw [hcurrent, hclose]⟩]
    rfl
  exact needs_bracket hk hw ho (by simp [hopen]) hp (habove _ (by simp [leftPowers, hp]))
    (suffixAfter_openParen hk hopen) (Needs.of_run_eq hlist) hrest

lemma readsBack_call {callee opening : Token} {arguments : Items} (h : arguments.ReadsBack σ) :
    (call callee opening arguments).ReadsBack σ := by
  intro w w' next power need e ha hs habove _ hrest
  obtain ⟨hk, hopen, hwf⟩ := ha.wellFormed
  obtain ⟨hw, ho, hs⟩ := hs
  have hp : opening.kind.suffixPower? = some 23 := by rw [hopen]; rfl
  have hsitems : w.advance.advance.Shows (arguments.body ++ [arguments.closing]) :=
    ((Window.shows_append ..).1 hs).1
  have hplain : ∀ t ∈ arguments.body, t.Plain := fun t ht => ha.plain t (by simp [tokens, ht])
  have hlist := h.needs_listWith true ⟨hwf, ha.binds, ha.derefsClear, hplain⟩
    ⟨rfl, rfl⟩ (by simp) hsitems
    (Items.current_kind_ne hwf hplain hsitems (by simp) (by simp))
  refine needs_bracket hk hw ho (by simp [hopen]) hp (habove _ (by simp [leftPowers, hp]))
    (suffixAfter_openParen hk hopen) hlist ?_
  simpa [tokens, toExpr, Window.advanceBy] using hrest

lemma readsBack_index {callee opening : Token} {indexes : Items} (h : indexes.ReadsBack σ) :
    (index callee opening indexes).ReadsBack σ := by
  intro w w' next power need e ha hs habove _ hrest
  obtain ⟨hk, hopen, hwf⟩ := ha.wellFormed
  obtain ⟨hw, ho, hs⟩ := hs
  have hp : opening.kind.suffixPower? = some 23 := by rw [hopen]; rfl
  have hsitems : w.advance.advance.Shows (indexes.body ++ [indexes.closing]) :=
    ((Window.shows_append ..).1 hs).1
  have hplain : ∀ t ∈ indexes.body, t.Plain := fun t ht => ha.plain t (by simp [tokens, ht])
  have hlist := h.needs_listWith false ⟨hwf, ha.binds, ha.derefsClear, hplain⟩
    ⟨rfl, rfl⟩ (by simp) hsitems
    (Items.current_kind_ne hwf hplain hsitems (by simp) (by simp))
  refine needs_bracket hk hw ho (by simp [hopen]) hp (habove _ (by simp [leftPowers, hp]))
    (suffixAfter_openBracket hk hopen) hlist ?_
  simpa [tokens, toExpr, Window.advanceBy] using hrest

end Grouped

/-! ### All trees -/

mutual

lemma Grouped.readsBack : ∀ g : Grouped, g.ReadsBack σ
  | .atom token => Grouped.readsBack_atom token
  | .group _ inner _ => Grouped.readsBack_group (Grouped.readsBack inner)
  | .unary _ operand => Grouped.readsBack_unary (Grouped.readsBack operand)
  | .binary _ left right =>
      Grouped.readsBack_binary (Grouped.readsBack left) (Grouped.readsBack right)
  | .suffix _ operand => Grouped.readsBack_suffix (Grouped.readsBack operand)
  | .callNone callee opening closing => Grouped.readsBack_callNone callee opening closing
  | .call _ _ arguments => Grouped.readsBack_call (Items.readsBack arguments)
  | .index _ _ indexes => Grouped.readsBack_index (Items.readsBack indexes)

lemma Items.readsBack : ∀ is : Items, is.ReadsBack σ
  | .last item _ => Items.readsBack_last (Grouped.readsBack item)
  | .more item _ rest => Items.readsBack_more (Grouped.readsBack item) (Items.readsBack rest)

end

/-! ## The expression of a source text -/

lemma not_startsExpression_of_endsStatement {t : Token} (hp : t.Plain) (h : t.endsStatement) :
    ¬t.startsExpression := by
  intro hs
  have hatom : ¬t.isAtom := fun ha => hp.not_endsStatement ha h
  rcases Kind.eq_of_endsStatement h with hk | hk
  · simp [Token.startsExpression, hatom, hk, Kind.unaryPower?] at hs
  · simp [Token.startsExpression, hatom, hk, Kind.unaryPower?] at hs

/-- One expression that takes the rest of the line. -/
lemma needs_standalone {g : Grouped} {w : Window σ} {t : Token} (ha : g.Allowed t)
    (hs : w.Shows (g.tokens ++ [t])) (ht : t.endsStatement) :
    Needs standalone w g.levels g.toExpr (w.advanceBy g.tokens.length) := by
  have hexpr := (Grouped.readsBack g).needs_expr_of_inert ha hs (Kind.inert_of_endsStatement ht)
  have hcurrent : (w.advanceBy g.tokens.length).current = t := ((Window.shows_append ..).1 hs).2.1
  have hend : Needs (endOfStatement >>= fun _ => pure g.toExpr) (w.advanceBy g.tokens.length) 0
      g.toExpr (w.advanceBy g.tokens.length) := by
    apply Needs.of_run_eq
    rw [endOfStatement, bind_assoc, run_window_bind, hcurrent, if_pos ht]
    rfl
  have hneeds := hexpr.bind (f := fun e => endOfStatement >>= fun _ => pure e) hend
  rwa [Nat.max_zero] at hneeds

/-- Where the line of a source text is a tree, reading the text as an expression gives that tree or,
beyond the levels that may be open, the refusal. -/
lemma parseExpression_of_shows {g : Grouped} {source : String} {t : Token} (hwf : g.WellFormed)
    (hbinds : g.Binds) (hclear : g.DerefsClear none)
    (hshows : (Window.ofStream (Cursor.ofSource source)).Shows (g.tokens ++ [t]))
    (ht : t.endsStatement) :
    (g.levels ≤ Expr.maxNesting → parseExpression source = .ok g.toExpr) ∧
      (Expr.maxNesting < g.levels →
        ∃ u : Token, parseExpression source = .error ⟨.nestingTooDeep u.describe, u.position⟩) := by
  have hplain := hshows.forall_mem Cursor.plain_next
  have hend : ∀ u ∈ some t, ¬u.startsExpression := by
    rintro u ⟨⟩
    exact not_startsExpression_of_endsStatement (hplain t (by simp)) ht
  have hneeds := needs_standalone
    ⟨hwf, hbinds, hclear.change hend, fun u hu => hplain u (by simp [hu])⟩ hshows ht
  have hdepth : (Window.ofStream (Cursor.ofSource source)).depth = 0 := rfl
  constructor
  · intro hlevels
    rw [parseExpression, hneeds.ok (by omega)]
  · intro hlevels
    obtain ⟨w, hw⟩ := hneeds.tooDeep (by omega) (by omega)
    exact ⟨w.current, by rw [parseExpression, hw]; rfl⟩

/-- **Every tree that the binding powers allow is read back.**  When the tokens of the first line
are those of a grouped tree, well-formed, binding as the powers say and with no dereference before
a token that could start an operand, the line is read as the expression of that tree if the tree
opens no more levels than allowed, and is refused as nested too deeply if it opens more.  The
bracket of a call or an indexing binds tighter than every operator, so that `Grouped.Binds` asks
nothing of calls and indexings as operands. -/
theorem parseExpression_of_grouped {g : Grouped} {source : String} (hwf : g.WellFormed)
    (hbinds : g.Binds) (hclear : g.DerefsClear none) (htokens : g.tokens = lineTokens source) :
    (g.levels ≤ Expr.maxNesting → parseExpression source = .ok g.toExpr) ∧
      (Expr.maxNesting < g.levels →
        ∃ t : Token, parseExpression source = .error ⟨.nestingTooDeep t.describe, t.position⟩) := by
  obtain ⟨t, ht, hline⟩ := TokenStream.exists_shows_line (Cursor.ofSource source)
  have hshows : (Window.ofStream (Cursor.ofSource source)).Shows (g.tokens ++ [t]) := by
    rw [htokens]
    exact hline
  exact parseExpression_of_shows hwf hbinds hclear hshows ht

/-- Parentheses, a dereference before an operator and a loose operator before its operand. -/
theorem parseExpression_parenthesised_deref_not :
    ∃ g : Grouped, (g.WellFormed ∧ g.Binds ∧ g.DerefsClear none ∧
        g.tokens = lineTokens "(a) - p^ = NOT b" ∧ g.levels = 3) ∧
      parseExpression "(a) - p^ = NOT b" = .ok g.toExpr := by
  refine ⟨.binary ⟨.symbol .equals, "=", ⟨1, 10⟩, false, none⟩
    (.binary ⟨.symbol .minus, "-", ⟨1, 5⟩, false, none⟩
      (.group ⟨.symbol .openParen, "(", ⟨1, 1⟩, false, none⟩
        (.atom ⟨.identifier, "a", ⟨1, 2⟩, false, none⟩)
        ⟨.symbol .closeParen, ")", ⟨1, 3⟩, false, none⟩)
      (.suffix ⟨.symbol .caret, "^", ⟨1, 8⟩, false, none⟩
        (.atom ⟨.identifier, "p", ⟨1, 7⟩, false, none⟩)))
    (.unary ⟨.keyword .not, "NOT", ⟨1, 12⟩, false, none⟩
      (.atom ⟨.identifier, "b", ⟨1, 16⟩, false, none⟩)), ?_⟩
  refine (and_iff_left_of_imp ?_).2 ?_
  · rintro ⟨hwf, hbinds, hclear, htokens, hlevels⟩
    exact (parseExpression_of_grouped hwf hbinds hclear htokens).1 (hlevels.trans_le (by decide))
  · refine ⟨?_, ?_, ?_, ?_, ?_⟩
    · simp [Grouped.WellFormed, Token.isAtom, Kind.binaryPower?, Kind.unaryPower?]
    · simp [Grouped.Binds, Grouped.rightPowers, Grouped.leftPowers, Kind.binaryPower?,
        Kind.unaryPower?, Kind.suffixPower?]
    · simp [Grouped.DerefsClear, Token.startsExpression, Token.isAtom, Kind.unaryPower?]
    · decide +kernel
    · simp [Grouped.levels, Grouped.nesting]

end Pseudolang
