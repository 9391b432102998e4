import Pseudolang.Proofs.Precedence.ValidPrefix
import Pseudolang.Proofs.Simulation.Grammar

/-!
# The nesting limit only refuses

How many expressions are open decides on nothing but a refusal.  A run with more of them open ends
in the same result or the same diagnostic, at the same place, as the run with fewer, unless it is
refused for its nesting.

`Parser.Deepens depth p q w` says so of one window: `q` is run there with `depth` expressions open
and `p` with as many as are open at `w`.  A refusal ends all that it is a part of, so the property
goes through sequences and loops (`Parser.Deepens.bind`, `Parser.Deepens.iterate`), and it is kept
by opening one more expression on both sides (`Parser.Deepens.nested`).  Two parsers are compared,
since `Grammar.exprAt` is given the levels that may still be opened: the deeper run has fewer of
them, and with none left it is refused (`Grammar.deepens_exprAt`).
-/

namespace Pseudolang

open Pseudolang.Grammar

variable {σ : Type} [TokenStream σ]

/-! ## Runs at two depths -/

namespace Parser

variable {α β : Type} {depth : ℕ} {w : Window σ}

/-- The second parser, run with `depth` expressions open, is refused for its nesting, or it does
what the first one does from the window as it is. -/
def Deepens (depth : ℕ) (p q : Parser σ α) (w : Window σ) : Prop :=
  (∃ d w', q.run { w with depth := depth } = (.error d, w') ∧ d.TooDeep) ∨
    q.run { w with depth := depth } = ((p.run w).1, { (p.run w).2 with depth := depth })

namespace Deepens

variable {p p' q q' : Parser σ α} {f g : α → Parser σ β}

lemma of_run_eq {v : Window σ} (hp : p.run w = p'.run v)
    (hq : q.run { w with depth := depth } = q'.run { v with depth := depth })
    (h : Deepens depth p' q' v) : Deepens depth p q w := by
  rwa [Deepens, hp, hq]

/-- What is refused ends the sequence, and otherwise the second parts go on from the same place. -/
lemma bind (hw : w.depth ≤ depth) (hp : Deepens depth p q w)
    (hf : ∀ a w', p.run w = (.ok a, w') → w'.depth ≤ depth → Deepens depth (f a) (g a) w') :
    Deepens depth (p >>= f) (q >>= g) w := by
  rcases hp with ⟨d, w', hrun, hdeep⟩ | hrun
  · exact .inl ⟨d, w', run_bind_of_error hrun, hdeep⟩
  · have hdepth := p.depth_run w
    cases hfirst : p.run w with
    | mk r w' =>
      rw [hfirst] at hrun hdepth
      cases r with
      | ok a =>
        exact of_run_eq (run_bind_of_ok hfirst) (run_bind_of_ok hrun)
          (hf a w' hfirst (hdepth.le.trans hw))
      | error d =>
        right
        rw [run_bind_of_error hrun, run_bind_of_error hfirst]

lemma pure (a : α) : Deepens depth (Pure.pure a) (Pure.pure a) w := .inr rfl

/-- What looks at the window sees no difference but in the number of open expressions. -/
lemma window {f g : Window σ → Parser σ α}
    (h : Deepens depth (f w) (g { w with depth := depth }) w) :
    Deepens depth (Parser.window >>= f) (Parser.window >>= g) w := h

lemma take : Deepens depth (take : Parser σ Token) take w := .inr rfl

lemma fail (d : Diagnostic) : Deepens depth (fail d : Parser σ α) (fail d) w := .inr rfl

lemma unexpected (expected : String) :
    Deepens depth (unexpected expected : Parser σ α) (unexpected expected) w :=
  window (fail (w.unexpected expected))

/-- The current token makes the same choice at both depths. -/
lemma ite {c : Prop} [Decidable c] (ht : c → Deepens depth p q w)
    (he : ¬c → Deepens depth p' q' w) :
    Deepens depth (if c then p else p') (if c then q else q') w := by
  split
  · next hc => exact ht hc
  · next hc => exact he hc

lemma expectOr (kind : Kind) (d : Diagnostic) :
    Deepens depth (expectOr kind d : Parser σ Token) (expectOr kind d) w :=
  window (ite (fun _ => take) fun _ => fail d)

lemma expect (kind : Kind) : Deepens depth (expect kind : Parser σ Token) (expect kind) w :=
  window (expectOr kind (w.unexpected kind.describe))

lemma endOfStatement : Deepens depth (endOfStatement : Parser σ Unit) endOfStatement w :=
  window (ite (fun _ => pure ()) fun _ => fail (w.unexpected Kind.endOfLine.describe))

/-- One more expression is opened on both sides, or the deeper run is refused. -/
lemma nested (hw : w.depth ≤ depth)
    (h : Deepens (depth + 1) p q { w with depth := w.depth + 1 }) :
    Deepens depth (nested p) (nested q) w := by
  by_cases hlimit : Expr.maxNesting ≤ depth
  · have henter : ({ w with depth := depth } : Window σ).enter = .error w.tooDeep := if_pos hlimit
    exact .inl ⟨_, _, run_nested_of_error henter, _, rfl⟩
  · have henter : w.enter = .ok { w with depth := w.depth + 1 } := if_neg (by omega)
    have henter' : ({ w with depth := depth } : Window σ).enter =
        .ok { w with depth := depth + 1 } := if_neg hlimit
    rw [Deepens, run_nested_of_ok henter, run_nested_of_ok henter']
    rcases h with ⟨d, w', hrun, hdeep⟩ | hrun
    · exact .inl ⟨d, _, by rw [hrun], hdeep⟩
    · exact .inr (by rw [hrun]; rfl)

/-- Rounds, each offered by the tokens in view: the induction is on what is left to read. -/
lemma iterate {offer : Window σ → Option β} {round round' : β → Token → α → Parser σ α}
    (hoffer : ∀ w : Window σ, offer { w with depth := depth } = offer w)
    (h : ∀ b t a, ∀ w : Window σ, w.depth ≤ depth → Deepens depth (round b t a) (round' b t a) w)
    (a : α) (w : Window σ) (hw : w.depth ≤ depth) :
    Deepens depth (iterate offer round a) (iterate offer round' a) w := by
  by_cases hf : w.current.kind = .endOfFile
  · right
    rw [run_iterate, run_iterate, if_pos hf, if_pos hf]
  · cases hb : offer w with
    | none =>
      right
      rw [run_iterate, run_iterate, if_neg hf, if_neg hf, hoffer, hb]
    | some b =>
      refine of_run_eq (v := w.advance) (by rw [run_iterate, if_neg hf, hb])
        (by rw [run_iterate, if_neg hf, hoffer, hb]; rfl)
        (bind hw (h b w.current a w.advance hw) fun a' w₁ hrun hw₁ => ?_)
      have hlt : w₁.remaining < w.remaining := by
        have := remaining_run_advance_lt (round b w.current a) hf
        rwa [hrun] at this
      exact iterate hoffer h a' w₁ hw₁
termination_by w.remaining

/-- Items with commas before them: the induction is on what is left to read. -/
lemma commaTail (h : ∀ w : Window σ, w.depth ≤ depth → Deepens depth p q w) (w : Window σ)
    (hw : w.depth ≤ depth) : Deepens depth (commaTail p) (commaTail q) w := by
  by_cases hc : w.current.kind = .symbol .comma
  · refine of_run_eq (v := w.advance) (by rw [run_commaTail, if_pos hc])
      (by rw [run_commaTail, if_pos hc]; rfl) (bind hw (h w.advance hw) fun a w₁ hrun hw₁ => ?_)
    have hlt : w₁.remaining < w.remaining := by
      have := remaining_run_advance_lt p (w := w) (by simp [hc])
      rwa [hrun] at this
    exact bind hw₁ (commaTail h w₁ hw₁) fun as _ _ _ => pure (a :: as)
  · right
    rw [run_commaTail, run_commaTail, if_neg hc, if_neg hc]
termination_by w.remaining

lemma commaSeparated (h : ∀ w : Window σ, w.depth ≤ depth → Deepens depth p q w)
    (hw : w.depth ≤ depth) : Deepens depth (commaSeparated p) (commaSeparated q) w :=
  bind hw (h w hw) fun a w₁ _ hw₁ =>
    bind hw₁ (commaTail h w₁ hw₁) fun as _ _ _ => pure (a :: as)

end Deepens

end Parser

/-! ## Expressions -/

namespace Grammar

open Pseudolang.Parser

variable {depth : ℕ} {w : Window σ}

section Pieces

variable {sub sub' : ℕ → Parser σ Expr}
  (hsub : ∀ power, ∀ w : Window σ, w.depth ≤ depth → Deepens depth (sub power) (sub' power) w)
include hsub

lemma deepens_groupWith (hw : w.depth ≤ depth) :
    Deepens depth (groupWith sub) (groupWith sub') w := by
  refine .bind hw .take fun _ w₁ _ hw₁ => ?_
  refine .bind hw₁ (hsub minPower w₁ hw₁) fun e w₂ _ hw₂ => ?_
  exact .bind hw₂ (.expect _) fun _ _ _ _ => .pure e

lemma deepens_unaryWith (hw : w.depth ≤ depth) (power : ℕ) :
    Deepens depth (unaryWith sub power) (unaryWith sub' power) w := by
  refine .bind hw .take fun _ w₁ _ hw₁ => ?_
  exact .bind hw₁ (hsub power w₁ hw₁) fun _ _ _ _ => .pure _

lemma deepens_operandWith (hw : w.depth ≤ depth) :
    Deepens depth (operandWith sub) (operandWith sub') w := by
  refine .window (.ite (fun _ => ?_) fun _ => .ite (fun _ => deepens_groupWith hsub hw) fun _ => ?_)
  · exact .bind hw .take fun _ _ _ _ => .pure _
  · dsimp only
    split
    · exact deepens_unaryWith hsub hw _
    · exact .unexpected _

lemma deepens_listWith (hw : w.depth ≤ depth) (closing : Kind) (allowEmpty : Bool) :
    Deepens depth (listWith sub closing allowEmpty) (listWith sub' closing allowEmpty) w := by
  refine .window (.ite (fun _ => ?_) fun _ => ?_)
  · exact .bind hw .take fun _ _ _ _ => .pure []
  · refine .bind hw (.commaSeparated (hsub minPower) hw) fun es w₁ _ hw₁ => .window ?_
    exact .bind hw₁ (.expectOr _ _) fun _ _ _ _ => .pure es

lemma deepens_suffixAfter (hw : w.depth ≤ depth) (left : Expr) (grouped : Bool)
    (operator : Token) :
    Deepens depth (suffixAfter sub left grouped operator) (suffixAfter sub' left grouped operator)
      w := by
  refine .ite (fun _ => ?_) fun _ => .pure _
  cases callee? left grouped with
  | none => exact .fail _
  | some callee =>
    refine .ite (fun _ => ?_) fun _ => ?_
    · exact .bind hw (deepens_listWith hsub hw _ _) fun _ _ _ _ => .pure _
    · exact .bind hw (deepens_listWith hsub hw _ _) fun _ _ _ _ => .pure _

lemma deepens_extendBy (hw : w.depth ≤ depth) (grouped : Bool) (extension : Extension)
    (operator : Token) (left : Expr) :
    Deepens depth (extendBy sub grouped extension operator left)
      (extendBy sub' grouped extension operator left) w := by
  cases extension with
  | suffix => exact deepens_suffixAfter hsub hw left grouped operator
  | binary power => exact .bind hw (hsub power w hw) fun _ _ _ _ => .pure _

lemma deepens_operatorsWith (hw : w.depth ≤ depth) (power : ℕ) :
    Deepens depth (operatorsWith sub power) (operatorsWith sub' power) w := by
  refine .window (.bind hw (deepens_operandWith hsub hw) fun first w₁ _ hw₁ => ?_)
  exact .iterate (fun _ => rfl)
    (fun extension operator left w hw => deepens_extendBy hsub hw _ extension operator left)
    first w₁ hw₁

end Pieces

/-- The deeper run may open fewer levels, and with none left it is refused. -/
lemma deepens_exprAt {levels levels' : ℕ} (hlevels : levels' ≤ levels) (power : ℕ) (w : Window σ)
    (hw : w.depth ≤ depth) : Deepens depth (exprAt levels power) (exprAt levels' power) w := by
  induction levels' generalizing levels power w depth with
  | zero => exact .inl ⟨_, _, rfl, _, rfl⟩
  | succ levels' ih =>
    obtain ⟨levels, rfl⟩ := Nat.exists_eq_succ_of_ne_zero (Nat.ne_zero_of_lt hlevels)
    refine .nested hw (deepens_operatorsWith (fun p v hv => ?_) (Nat.succ_le_succ hw) power)
    exact ih (Nat.le_of_succ_le_succ hlevels) p v hv

lemma deepens_expr (power : ℕ) (w : Window σ) (hw : w.depth ≤ depth) :
    Deepens depth (expr power) (expr power) w :=
  .of_run_eq (v := w) rfl rfl (deepens_exprAt (Nat.sub_le_sub_left hw _) power w hw)

lemma deepens_exprList (hw : w.depth ≤ depth) (closing : Kind) (allowEmpty : Bool) :
    Deepens depth (exprList closing allowEmpty) (exprList closing allowEmpty) w :=
  deepens_listWith deepens_expr hw closing allowEmpty

/-! ## Datatypes -/

lemma deepens_datatype : Deepens depth (datatype : Parser σ Token) datatype w :=
  .window (.ite (fun _ => .take) fun _ => .unexpected _)

lemma deepens_lowerBound : Deepens depth (lowerBound : Parser σ Token) lowerBound w :=
  .window (.ite (fun _ => .ite (fun _ => .take) fun _ => .fail _) fun _ => .unexpected _)

lemma deepens_dimension (w : Window σ) (hw : w.depth ≤ depth) :
    Deepens depth dimension dimension w := by
  refine .bind hw deepens_lowerBound fun _ w₁ _ hw₁ => ?_
  exact .bind hw₁ (.expect _) fun _ w₂ _ hw₂ => deepens_expr minPower w₂ hw₂

lemma deepens_arrayType (hw : w.depth ≤ depth) : Deepens depth arrayType arrayType w := by
  refine .bind hw (.expect _) fun _ w₁ _ hw₁ => ?_
  refine .bind hw₁ (.expect _) fun _ w₂ _ hw₂ => ?_
  refine .bind hw₂ (.commaSeparated deepens_dimension hw₂) fun bounds w₃ _ hw₃ => .window ?_
  refine .bind hw₃ (.expectOr _ _) fun _ w₄ _ hw₄ => ?_
  refine .bind hw₄ (.expect _) fun _ w₅ _ hw₅ => ?_
  exact .bind hw₅ deepens_datatype fun element _ _ _ => .pure (bounds, element)

/-! ## Statements -/

/-- The end of a statement, and the statement that was read. -/
lemma deepens_finish (hw : w.depth ≤ depth) (s : Statement) :
    Deepens depth (endOfStatement >>= fun _ => pure s) (endOfStatement >>= fun _ => pure s) w :=
  .bind hw .endOfStatement fun _ _ _ _ => .pure s

lemma deepens_declareStatement (hw : w.depth ≤ depth) :
    Deepens depth declareStatement declareStatement w := by
  refine .bind hw .take fun _ w₁ _ hw₁ => ?_
  refine .bind hw₁ (.expect _) fun _ w₂ _ hw₂ => ?_
  refine .bind hw₂ (.expect _) fun _ w₃ _ hw₃ => .window (.ite (fun _ => ?_) fun _ => ?_)
  · exact .bind hw₃ (deepens_arrayType hw₃) fun _ _ _ hw₄ => deepens_finish hw₄ _
  · exact .bind hw₃ deepens_datatype fun _ _ _ hw₄ => deepens_finish hw₄ _

lemma deepens_constantStatement (hw : w.depth ≤ depth) :
    Deepens depth constantStatement constantStatement w := by
  refine .bind hw .take fun _ w₁ _ hw₁ => ?_
  refine .bind hw₁ (.expect _) fun _ w₂ _ hw₂ => ?_
  refine .bind hw₂ (.expect _) fun _ w₃ _ hw₃ => .window (.ite (fun _ => ?_) fun _ => ?_)
  · exact .bind hw₃ .take fun _ _ _ hw₄ => deepens_finish hw₄ _
  · exact .unexpected _

lemma deepens_assignElementStatement (hw : w.depth ≤ depth) :
    Deepens depth assignElementStatement assignElementStatement w := by
  refine .bind hw .take fun _ w₁ _ hw₁ => ?_
  refine .bind hw₁ (.expect _) fun _ w₂ _ hw₂ => ?_
  refine .bind hw₂ (deepens_exprList hw₂ _ _) fun _ w₃ _ hw₃ => ?_
  refine .bind hw₃ (.expect _) fun _ w₄ _ hw₄ => ?_
  exact .bind hw₄ (deepens_expr minPower w₄ hw₄) fun _ _ _ hw₅ => deepens_finish hw₅ _

lemma deepens_assignPlainStatement (hw : w.depth ≤ depth) :
    Deepens depth assignPlainStatement assignPlainStatement w := by
  refine .bind hw .take fun _ w₁ _ hw₁ => ?_
  refine .bind hw₁ (.expect _) fun _ w₂ _ hw₂ => ?_
  exact .bind hw₂ (deepens_expr minPower w₂ hw₂) fun _ _ _ hw₃ => deepens_finish hw₃ _

lemma deepens_assignStatement (hw : w.depth ≤ depth) :
    Deepens depth assignStatement assignStatement w :=
  .window (.ite (fun _ => deepens_assignElementStatement hw) fun _ =>
    deepens_assignPlainStatement hw)

lemma deepens_inputStatement (hw : w.depth ≤ depth) :
    Deepens depth inputStatement inputStatement w := by
  refine .bind hw .take fun _ w₁ _ hw₁ => ?_
  exact .bind hw₁ (.expect _) fun _ _ _ hw₂ => deepens_finish hw₂ _

lemma deepens_outputStatement (hw : w.depth ≤ depth) :
    Deepens depth outputStatement outputStatement w := by
  refine .bind hw .take fun _ w₁ _ hw₁ => ?_
  exact .bind hw₁ (.commaSeparated (deepens_expr minPower) hw₁) fun _ _ _ hw₂ =>
    deepens_finish hw₂ _

lemma deepens_of_statementOf? (hw : w.depth ≤ depth) {kind : Kind} {parser : Parser σ Statement}
    (h : statementOf? kind = some parser) : Deepens depth parser parser w := by
  unfold statementOf? at h
  split at h
  · obtain rfl := Option.some.inj h
    exact deepens_declareStatement hw
  · obtain rfl := Option.some.inj h
    exact deepens_constantStatement hw
  · obtain rfl := Option.some.inj h
    exact deepens_assignStatement hw
  · obtain rfl := Option.some.inj h
    exact deepens_inputStatement hw
  · obtain rfl := Option.some.inj h
    exact deepens_outputStatement hw
  · cases h

/-- The kind of the current token chooses the same statement at both depths. -/
lemma deepens_statement (hw : w.depth ≤ depth) : Deepens depth statement statement w := by
  refine .window ?_
  dsimp only
  split
  · next h => exact deepens_of_statementOf? hw h
  · exact .fail w.notStatement

/-- **The nesting limit only refuses.**  However many further expressions are open at a window, what
is read from there, whether it is an expression of any power, a list, an array type or a statement
of any form, is refused for its nesting or comes to the same result or diagnostic, with the same
tokens in view and the same source behind them. -/
theorem nesting_only_refuses (w : Window σ) (more : ℕ) :
    (∀ power, Deepens (w.depth + more) (expr power) (expr power) w) ∧
      (∀ closing allowEmpty, Deepens (w.depth + more) (exprList closing allowEmpty)
        (exprList closing allowEmpty) w) ∧
      Deepens (w.depth + more) arrayType arrayType w ∧
      (∀ kind parser, statementOf? kind = some parser →
        Deepens (w.depth + more) parser parser w) ∧
      Deepens (w.depth + more) assignElementStatement assignElementStatement w ∧
      Deepens (w.depth + more) statement statement w := by
  have hw : w.depth ≤ w.depth + more := Nat.le_add_right _ _
  exact ⟨fun power => deepens_expr power w hw, deepens_exprList hw, deepens_arrayType hw,
    fun _ _ => deepens_of_statementOf? hw, deepens_assignElementStatement hw, deepens_statement hw⟩

end Grammar

end Pseudolang
