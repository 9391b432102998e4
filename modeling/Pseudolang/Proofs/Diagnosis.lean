import Pseudolang.Proofs.Precedence.ValidPrefix
import Pseudolang.Proofs.Simulation.Grammar

/-!
# What parsers answer

A parser answers with a result or with a diagnostic.  All tokens of a result are tokens that it met
and took, none of them a barrier.  A diagnostic points at one token that it met and is made from
that token: `Cause.Describes` lists, for each cause, what the token is and how the texts of the
cause come from it.

`Parser.Answers P Q p w` says so of one run, for tokens that satisfy `P` from the window on: a
result satisfies `Q`, and a diagnostic reports a token that satisfies `P`.  It goes through
sequences (`Parser.Answers.bind`), so that it is proved along the grammar, piece by piece, up to
statements (`Grammar.answers_statement`).  The predicate is a parameter: it is what the tokens of
one line have in common in one use and that they stand on one line of the text in another.
-/

namespace Pseudolang

open Pseudolang.Grammar

variable {σ : Type} [TokenStream σ] {P : Token → Prop}

/-! ## Tokens that were met -/

/-- The token satisfies the predicate and can be taken. -/
def Token.Passable (P : Token → Prop) (t : Token) : Prop :=
  P t ∧ ¬t.Barrier

/-- Every token from the window on satisfies the predicate. -/
def Window.All (P : Token → Prop) (w : Window σ) : Prop :=
  ∀ j, P (w.ahead j)

namespace Window.All

variable {w : Window σ}

lemma current (h : w.All P) : P w.current := h 0

lemma advanceBy (h : w.All P) (n : ℕ) : (w.advanceBy n).All P := fun j => by
  rw [ahead_advanceBy]
  exact h (n + j)

lemma advance (h : w.All P) : w.advance.All P := h.advanceBy 1

lemma depth (h : w.All P) (d : ℕ) : ({ w with depth := d } : Window σ).All P := fun j => by
  rw [ahead_depth]
  exact h j

end Window.All

/-! ## What a diagnostic says of its token -/

/-- The cause is one that arises at the token, and its texts are made from it.  Only a bracket after
what cannot be called tells of other tokens, those of the expression before it. -/
inductive Cause.Describes (P : Token → Prop) (t : Token) : Cause → Prop
  | unexpectedToken (expected : String) (line : '\n' ∉ expected.toList) (legal : t.fault = none) :
      Describes P t (.unexpectedToken expected t.describe)
  | invalidStatement (legal : t.fault = none) : Describes P t (.invalidStatement t.describe)
  | illegalToken (fault : Fault) (illegal : t.fault = some fault) :
      Describes P t (.illegalToken fault t.text)
  | invalidCallee (left : Expr) (grouped : Bool)
      (bracket : t.kind = .symbol .openParen ∨ t.kind = .symbol .openBracket)
      (tokens : ∀ u ∈ left.tokens, u.Passable P) :
      Describes P t (.invalidCallee t.text (calleeText left grouped))
  | invalidLowerBound (literal : t.isLiteral) : Describes P t (.invalidLowerBound t.text)
  | nestingTooDeep : Describes P t (.nestingTooDeep t.describe)

/-- The diagnostic points at a token that satisfies the predicate and is made from it. -/
def Diagnostic.Reports (P : Token → Prop) (d : Diagnostic) : Prop :=
  ∃ t, P t ∧ d.position = t.position ∧ d.cause.Describes P t

namespace Window

variable {w : Window σ}

/-- Whatever was expected, an illegal token is reported for its fault. -/
lemma reports_unexpected (hw : w.All P) {expected : String} (he : '\n' ∉ expected.toList) :
    (w.unexpected expected).Reports P := by
  refine ⟨w.current, hw.current, rfl, ?_⟩
  rw [unexpected]
  split
  · next fault hfault => exact .illegalToken fault hfault
  · next hfault => exact .unexpectedToken expected he hfault

lemma reports_tooDeep (hw : w.All P) : w.tooDeep.Reports P :=
  ⟨w.current, hw.current, rfl, .nestingTooDeep⟩

lemma reports_notStatement (hw : w.All P) : w.notStatement.Reports P := by
  rw [notStatement]
  split
  · exact reports_unexpected hw (by decide)
  · next hfault =>
    exact ⟨w.current, hw.current, rfl, .invalidStatement (by simpa using hfault)⟩

end Window

/-- No kind is asked for by a line break. -/
lemma Kind.newline_notMem_describe (k : Kind) : '\n' ∉ k.describe.toList := by
  cases k with
  | native n => cases n <;> decide
  | keyword k => cases k <;> decide
  | symbol s => cases s <;> decide
  | _ => decide

/-! ## Answers -/

namespace Parser

variable {α β : Type}

/-- The run ends in a result that satisfies `Q`, or in a diagnostic that reports a token which
satisfies `P`. -/
def Answers (P : Token → Prop) (Q : α → Prop) (p : Parser σ α) (w : Window σ) : Prop :=
  match (p.run w).1 with
  | .ok a => Q a
  | .error d => d.Reports P

namespace Answers

variable {Q : α → Prop} {R : β → Prop} {p q : Parser σ α} {f : α → Parser σ β} {w w' : Window σ}

lemma of_run_eq (h : p.run w = q.run w') (hq : Answers P Q q w') : Answers P Q p w := by
  rwa [Answers, h]

lemma ok (h : Answers P Q p w) {a : α} (ha : (p.run w).1 = .ok a) : Q a := by
  rwa [Answers, ha] at h

lemma error (h : Answers P Q p w) {d : Diagnostic} (hd : (p.run w).1 = .error d) :
    d.Reports P := by
  rwa [Answers, hd] at h

/-- A parser only moves forward, so that the second part of a sequence meets tokens of the same
window. -/
lemma bind (hw : w.All P) (h : Answers P Q p w)
    (hf : ∀ a w', p.run w = (.ok a, w') → w'.All P → Q a → Answers P R (f a) w') :
    Answers P R (p >>= f) w := by
  obtain ⟨n, hn⟩ := p.forward w
  cases hrun : p.run w with
  | mk r w' =>
    rw [hrun] at hn
    cases r with
    | ok a =>
      refine of_run_eq (run_bind_of_ok hrun) (hf a w' hrun ?_ (h.ok (by rw [hrun])))
      rw [show w' = w.advanceBy n from hn]
      exact hw.advanceBy n
    | error d =>
      rw [Answers, run_bind_of_error hrun]
      exact h.error (by rw [hrun])

lemma pure {a : α} (h : Q a) : Answers P Q (Pure.pure a : Parser σ α) w := h

lemma window {f : Window σ → Parser σ α} (h : Answers P Q (f w) w) :
    Answers P Q (Parser.window >>= f) w := h

lemma take (hw : w.All P) (h : ¬w.current.Barrier) :
    Answers P (Token.Passable P) (take : Parser σ Token) w :=
  ⟨hw.current, h⟩

lemma fail {d : Diagnostic} (h : d.Reports P) : Answers P Q (fail d : Parser σ α) w := h

lemma unexpected (hw : w.All P) {expected : String} (he : '\n' ∉ expected.toList) :
    Answers P Q (unexpected expected : Parser σ α) w :=
  window (fail (w.reports_unexpected hw he))

lemma expectOr (hw : w.All P) {kind : Kind} {d : Diagnostic} (hi : kind ≠ .illegal)
    (he : ¬kind.endsStatement) (hd : d.Reports P) :
    Answers P (Token.Passable P) (expectOr kind d : Parser σ Token) w := by
  refine window ?_
  split
  · next hk => exact take hw (Token.not_barrier_of_kind hk hi he)
  · exact fail hd

lemma expect (hw : w.All P) {kind : Kind} (hi : kind ≠ .illegal) (he : ¬kind.endsStatement) :
    Answers P (Token.Passable P) (expect kind : Parser σ Token) w :=
  window (expectOr hw hi he (w.reports_unexpected hw kind.newline_notMem_describe))

lemma endOfStatement (hw : w.All P) :
    Answers P (fun _ => True) (endOfStatement : Parser σ Unit) w := by
  refine window ?_
  split
  · exact pure trivial
  · exact fail (w.reports_unexpected hw (by decide))

lemma nested (hw : w.All P) (h : Answers P Q p { w with depth := w.depth + 1 }) :
    Answers P Q (nested p) w := by
  cases he : w.enter with
  | error d =>
    have hd : w.tooDeep = d := by
      unfold Window.enter at he
      split at he
      · exact Except.error.inj he
      · cases he
    rw [Answers, run_nested_of_error he, ← hd]
    exact w.reports_tooDeep hw
  | ok w' =>
    rw [Answers, run_nested_of_ok he, Window.eq_of_enter he]
    exact h

/-- Items with commas before them: the induction is on what is left to read. -/
lemma commaTail (h : ∀ w : Window σ, w.All P → Answers P Q p w) (w : Window σ) (hw : w.All P) :
    Answers P (fun as => ∀ a ∈ as, Q a) (commaTail p) w := by
  by_cases hc : w.current.kind = .symbol .comma
  · have hitems : Answers P (fun as => ∀ a ∈ as, Q a)
        (p >>= fun a => Parser.commaTail p >>= fun as => Pure.pure (a :: as)) w.advance := by
      refine bind hw.advance (h w.advance hw.advance) fun a w₁ hrun hw₁ ha => ?_
      have hlt : w₁.remaining < w.remaining := by
        have := remaining_run_advance_lt p (w := w) (by simp [hc])
        rwa [hrun] at this
      exact bind hw₁ (commaTail h w₁ hw₁) fun as _ _ _ has =>
        pure (List.forall_mem_cons.2 ⟨ha, has⟩)
    refine of_run_eq ?_ hitems
    rw [run_commaTail, if_pos hc]
  · rw [Answers, run_commaTail, if_neg hc]
    simp
termination_by w.remaining

lemma commaSeparated (h : ∀ w : Window σ, w.All P → Answers P Q p w) (hw : w.All P) :
    Answers P (fun as => ∀ a ∈ as, Q a) (commaSeparated p) w :=
  bind hw (h w hw) fun _ w₁ _ hw₁ ha =>
    bind hw₁ (commaTail h w₁ hw₁) fun _ _ _ _ has => pure (List.forall_mem_cons.2 ⟨ha, has⟩)

end Answers

end Parser

/-! ## Expressions -/

/-- All tokens of the expression satisfy the predicate and can be taken. -/
def Expr.Over (P : Token → Prop) (e : Expr) : Prop :=
  ∀ t ∈ e.tokens, t.Passable P

namespace Expr.Over

variable {t : Token} {e e' : Expr} {es : List Expr}

lemma atom (ht : t.Passable P) : (Expr.atom t).Over P := by
  simpa [Over, tokens] using ht

lemma unary (ht : t.Passable P) (he : e.Over P) : (Expr.unary t e).Over P :=
  List.forall_mem_cons.2 ⟨ht, he⟩

lemma binary (ht : t.Passable P) (he : e.Over P) (he' : e'.Over P) : (Expr.binary t e e').Over P :=
  List.forall_mem_append.2 ⟨he, List.forall_mem_cons.2 ⟨ht, he'⟩⟩

lemma suffix (ht : t.Passable P) (he : e.Over P) : (Expr.suffix t e).Over P :=
  List.forall_mem_append.2 ⟨he, by simpa using ht⟩

lemma flatMap (hes : ∀ e ∈ es, e.Over P) : ∀ t ∈ es.flatMap tokens, t.Passable P :=
  List.forall_mem_flatMap.2 hes

lemma call (ht : t.Passable P) (hes : ∀ e ∈ es, e.Over P) : (Expr.call t es).Over P := by
  rw [Over, tokens, allTokens_eq_flatMap]
  exact List.forall_mem_cons.2 ⟨ht, flatMap hes⟩

lemma index (ht : t.Passable P) (hes : ∀ e ∈ es, e.Over P) : (Expr.index t es).Over P := by
  rw [Over, tokens, allTokens_eq_flatMap]
  exact List.forall_mem_cons.2 ⟨ht, flatMap hes⟩

end Expr.Over

namespace Grammar

open Pseudolang.Parser

variable {w : Window σ}

section Pieces

variable {sub : ℕ → Parser σ Expr}
  (hsub : ∀ power, ∀ w : Window σ, w.All P → Answers P (Expr.Over P) (sub power) w)
include hsub

lemma answers_groupWith (hw : w.All P) (ho : w.current.kind = .symbol .openParen) :
    Answers P (Expr.Over P) (groupWith sub) w := by
  have htake : ¬w.current.Barrier := Token.not_barrier_of_kind ho (by decide) (by decide)
  refine .bind hw (.take hw htake) fun _ w₁ _ hw₁ _ => ?_
  refine .bind hw₁ (hsub minPower w₁ hw₁) fun e w₂ _ hw₂ he => ?_
  exact .bind hw₂ (.expect hw₂ (by decide) (by decide)) fun _ _ _ _ _ => .pure he

lemma answers_unaryWith (hw : w.All P) {power : ℕ}
    (hp : w.current.kind.unaryPower? = some power) :
    Answers P (Expr.Over P) (unaryWith sub power) w := by
  have htake : ¬w.current.Barrier := by
    rcases Kind.eq_of_unaryPower? (by rw [hp]; rfl) with hk | hk
    · exact Token.not_barrier_of_kind hk (by decide) (by decide)
    · exact Token.not_barrier_of_kind hk (by decide) (by decide)
  refine .bind hw (.take hw htake) fun t w₁ _ hw₁ ht => ?_
  exact .bind hw₁ (hsub power w₁ hw₁) fun e _ _ _ he => .pure (.unary ht he)

lemma answers_operandWith (hw : w.All P) : Answers P (Expr.Over P) (operandWith sub) w := by
  refine .window ?_
  split
  · next hatom =>
    exact .bind hw (.take hw (Token.not_barrier_of_isAtom hatom)) fun t _ _ _ ht =>
      .pure (.atom ht)
  · split
    · next ho => exact answers_groupWith hsub hw ho
    · split
      · next hp => exact answers_unaryWith hsub hw hp
      · exact .unexpected hw (by decide)

lemma answers_listWith (hw : w.All P) (closing : Symbol) (allowEmpty : Bool) :
    Answers P (fun es => ∀ e ∈ es, e.Over P) (listWith sub (.symbol closing) allowEmpty) w := by
  have hkind : Kind.symbol closing ≠ .illegal ∧ ¬(Kind.symbol closing).endsStatement := by
    simp [Kind.endsStatement]
  refine .window ?_
  split
  · next hempty =>
    have htake := Token.not_barrier_of_kind hempty.2 hkind.1 hkind.2
    exact .bind hw (.take hw htake) fun _ _ _ _ _ => .pure (by simp)
  · refine .bind hw (.commaSeparated (hsub minPower) hw) fun es w₁ _ hw₁ hes => .window ?_
    have hexpected : '\n' ∉ ("`,` or " ++ (Kind.symbol closing).describe).toList := by
      simpa using Kind.newline_notMem_describe (.symbol closing)
    exact .bind hw₁ (.expectOr hw₁ hkind.1 hkind.2 (w₁.reports_unexpected hw₁ hexpected))
      fun _ _ _ _ _ => .pure hes

/-- A bracket is taken before it is refused, so what is said of it is said of the token given. -/
lemma answers_suffixAfter (hw : w.All P) {left : Expr} (grouped : Bool) {operator : Token}
    (hleft : left.Over P) (ho : operator.Passable P) :
    Answers P (Expr.Over P) (suffixAfter sub left grouped operator) w := by
  unfold suffixAfter
  split
  · next hbracket =>
    split
    · exact .fail ⟨operator, ho.1, rfl, .invalidCallee left grouped hbracket hleft⟩
    · next callee hcallee =>
      obtain ⟨-, rfl, -⟩ := callee?_eq_some hcallee
      have hcallee : callee.Passable P := hleft callee (by simp [Expr.tokens])
      split
      · exact .bind hw (answers_listWith hsub hw _ _) fun es _ _ _ hes => .pure (.call hcallee hes)
      · exact .bind hw (answers_listWith hsub hw _ _) fun es _ _ _ hes => .pure (.index hcallee hes)
  · exact .pure (.suffix ho hleft)

lemma answers_extendBy (hw : w.All P) {left : Expr} (grouped : Bool) (extension : Extension)
    {operator : Token} (hleft : left.Over P) (ho : operator.Passable P) :
    Answers P (Expr.Over P) (extendBy sub grouped extension operator left) w := by
  cases extension with
  | suffix => exact answers_suffixAfter hsub hw grouped hleft ho
  | binary power =>
    exact .bind hw (hsub power w hw) fun e _ _ _ he => .pure (.binary ho hleft he)

/-- The loop over operators: the induction is on what is left to read. -/
lemma answers_operators (power : ℕ) (grouped : Bool) {left : Expr} (hleft : left.Over P)
    (w : Window σ) (hw : w.All P) :
    Answers P (Expr.Over P) (iterate (extension? power) (extendBy sub grouped) left) w := by
  cases hx : extension? power w with
  | none =>
    rw [Answers, run_operators_of_none hx]
    exact hleft
  | some extension =>
    have ho : w.current.Passable P := ⟨hw.current, not_barrier_of_extension? hx⟩
    refine .of_run_eq (run_operators_of_some hx) (.bind hw.advance
      (answers_extendBy hsub hw.advance grouped extension hleft ho) fun e w₁ hrun hw₁ he => ?_)
    have hlt : w₁.remaining < w.remaining := by
      have := remaining_run_advance_lt (extendBy sub grouped extension w.current left)
        (kind_ne_endOfFile_of_extension? hx)
      rwa [hrun] at this
    exact answers_operators power grouped he w₁ hw₁
termination_by w.remaining

lemma answers_operatorsWith (power : ℕ) (hw : w.All P) :
    Answers P (Expr.Over P) (operatorsWith sub power) w :=
  .window (.bind hw (answers_operandWith hsub hw) fun _ w₁ _ hw₁ he =>
    answers_operators hsub power _ he w₁ hw₁)

end Pieces

lemma answers_exprAt (levels power : ℕ) (w : Window σ) (hw : w.All P) :
    Answers P (Expr.Over P) (exprAt levels power) w := by
  induction levels generalizing power w with
  | zero => exact .window (.fail (w.reports_tooDeep hw))
  | succ levels ih => exact .nested hw (answers_operatorsWith ih power (hw.depth _))

lemma answers_expr (power : ℕ) (w : Window σ) (hw : w.All P) :
    Answers P (Expr.Over P) (expr power) w :=
  .of_run_eq rfl (answers_exprAt (Expr.maxNesting - w.depth) power w hw)

/-! ## Datatypes -/

lemma answers_datatype (hw : w.All P) : Answers P (Token.Passable P) datatype w := by
  refine .window ?_
  split
  · next hd => exact .take hw (not_barrier_of_namesDatatype hd)
  · exact .unexpected hw (by decide)

lemma answers_lowerBound (hw : w.All P) : Answers P (Token.Passable P) lowerBound w := by
  refine .window ?_
  split
  · next hliteral =>
    split
    · exact .take hw (Token.not_barrier_of_isLiteral hliteral.2)
    · exact .fail ⟨w.current, hw.current, rfl, .invalidLowerBound hliteral.2⟩
  · exact .unexpected hw (by decide)

lemma answers_dimension (w : Window σ) (hw : w.All P) :
    Answers P (Expr.Over P) dimension w := by
  refine .bind hw (answers_lowerBound hw) fun _ w₁ _ hw₁ _ => ?_
  refine .bind hw₁ (.expect hw₁ (by decide) (by decide)) fun _ w₂ _ hw₂ _ => ?_
  exact answers_expr minPower w₂ hw₂

lemma answers_arrayType (hw : w.All P) :
    Answers P (fun x => (∀ e ∈ x.1, e.Over P) ∧ x.2.Passable P) arrayType w := by
  refine .bind hw (.expect hw (by decide) (by decide)) fun _ w₁ _ hw₁ _ => ?_
  refine .bind hw₁ (.expect hw₁ (by decide) (by decide)) fun _ w₂ _ hw₂ _ => ?_
  refine .bind hw₂ (.commaSeparated answers_dimension hw₂) fun es w₃ _ hw₃ hes => .window ?_
  refine .bind hw₃ (.expectOr hw₃ (by decide) (by decide)
    (w₃.reports_unexpected hw₃ (by decide))) fun _ w₄ _ hw₄ _ => ?_
  refine .bind hw₄ (.expect hw₄ (by decide) (by decide)) fun _ w₅ _ hw₅ _ => ?_
  exact .bind hw₅ (answers_datatype hw₅) fun _ _ _ _ ht => .pure ⟨hes, ht⟩

end Grammar

/-! ## Statements -/

/-- All tokens of the statement satisfy the predicate and can be taken. -/
def Statement.Over (P : Token → Prop) (s : Statement) : Prop :=
  ∀ t ∈ s.tokens, t.Passable P

namespace Grammar

open Pseudolang.Parser

variable {w : Window σ}

/-- The end of a statement, and the statement that was read. -/
lemma answers_finish (hw : w.All P) {s : Statement} (hs : s.Over P) :
    Answers P (Statement.Over P) (endOfStatement >>= fun _ => pure s) w :=
  .bind hw (.endOfStatement hw) fun _ _ _ _ _ => .pure hs

lemma answers_declareStatement (hw : w.All P) (hk : w.current.kind = .keyword .declare) :
    Answers P (Statement.Over P) declareStatement w := by
  have htake : ¬w.current.Barrier := Token.not_barrier_of_kind hk (by decide) (by decide)
  refine .bind hw (.take hw htake) fun _ w₁ _ hw₁ _ => ?_
  refine .bind hw₁ (.expect hw₁ (by decide) (by decide)) fun t w₂ _ hw₂ ht => ?_
  refine .bind hw₂ (.expect hw₂ (by decide) (by decide)) fun _ w₃ _ hw₃ _ => .window ?_
  split
  · refine .bind hw₃ (answers_arrayType hw₃) fun x w₄ _ hw₄ hx => answers_finish hw₄ ?_
    exact List.forall_mem_cons.2
      ⟨ht, List.forall_mem_append.2 ⟨Expr.Over.flatMap hx.1, by simpa using hx.2⟩⟩
  · refine .bind hw₃ (answers_datatype hw₃) fun u w₄ _ hw₄ hu => answers_finish hw₄ ?_
    simpa [Statement.Over, Statement.tokens] using ⟨ht, hu⟩

lemma answers_constantStatement (hw : w.All P) (hk : w.current.kind = .keyword .constant) :
    Answers P (Statement.Over P) constantStatement w := by
  have htake : ¬w.current.Barrier := Token.not_barrier_of_kind hk (by decide) (by decide)
  refine .bind hw (.take hw htake) fun _ w₁ _ hw₁ _ => ?_
  refine .bind hw₁ (.expect hw₁ (by decide) (by decide)) fun t w₂ _ hw₂ ht => ?_
  refine .bind hw₂ (.expect hw₂ (by decide) (by decide)) fun _ w₃ _ hw₃ _ => .window ?_
  split
  · next hliteral =>
    refine .bind hw₃ (.take hw₃ (Token.not_barrier_of_isLiteral hliteral)) fun u w₄ _ hw₄ hu =>
      answers_finish hw₄ ?_
    simpa [Statement.Over, Statement.tokens] using ⟨ht, hu⟩
  · exact .unexpected hw₃ (by decide)

lemma answers_elementAfter (hw : w.All P) {t : Token} (ht : t.Passable P) :
    Answers P (Statement.Over P) (elementAfter t) w := by
  refine .bind hw (.expect hw (by decide) (by decide)) fun _ w₁ _ hw₁ _ => ?_
  refine .bind hw₁ (answers_listWith answers_expr hw₁ _ _) fun es w₂ _ hw₂ hes => ?_
  refine .bind hw₂ (.expect hw₂ (by decide) (by decide)) fun _ w₃ _ hw₃ _ => ?_
  refine .bind hw₃ (answers_expr _ w₃ hw₃) fun e w₄ _ hw₄ he => answers_finish hw₄ ?_
  exact List.forall_mem_cons.2 ⟨ht, List.forall_mem_append.2 ⟨Expr.Over.flatMap hes, he⟩⟩

lemma answers_plainAfter (hw : w.All P) {t : Token} (ht : t.Passable P) :
    Answers P (Statement.Over P) (plainAfter t) w := by
  refine .bind hw (.expect hw (by decide) (by decide)) fun _ w₁ _ hw₁ _ => ?_
  refine .bind hw₁ (answers_expr _ w₁ hw₁) fun e w₂ _ hw₂ he => answers_finish hw₂ ?_
  exact List.forall_mem_cons.2 ⟨ht, he⟩

lemma answers_assignStatement (hw : w.All P) (hk : w.current.kind = .identifier) :
    Answers P (Statement.Over P) assignStatement w := by
  have ht : w.current.Passable P :=
    ⟨hw.current, Token.not_barrier_of_kind hk (by decide) (by decide)⟩
  refine .of_run_eq (run_assignStatement w) ?_
  split
  · exact answers_elementAfter hw.advance ht
  · exact answers_plainAfter hw.advance ht

lemma answers_inputStatement (hw : w.All P) (hk : w.current.kind = .keyword .input) :
    Answers P (Statement.Over P) inputStatement w := by
  have htake : ¬w.current.Barrier := Token.not_barrier_of_kind hk (by decide) (by decide)
  refine .bind hw (.take hw htake) fun _ w₁ _ hw₁ _ => ?_
  refine .bind hw₁ (.expect hw₁ (by decide) (by decide)) fun t w₂ _ hw₂ ht =>
    answers_finish hw₂ ?_
  simpa [Statement.Over, Statement.tokens] using ht

lemma answers_outputStatement (hw : w.All P) (hk : w.current.kind = .keyword .output) :
    Answers P (Statement.Over P) outputStatement w := by
  have htake : ¬w.current.Barrier := Token.not_barrier_of_kind hk (by decide) (by decide)
  refine .bind hw (.take hw htake) fun _ w₁ _ hw₁ _ => ?_
  exact .bind hw₁ (.commaSeparated (answers_expr minPower) hw₁) fun es w₂ _ hw₂ hes =>
    answers_finish hw₂ (Expr.Over.flatMap hes)

/-- A statement is made of tokens that were taken, and what is wrong with one is said of a token
that was met. -/
lemma answers_statement (hw : w.All P) : Answers P (Statement.Over P) statement w := by
  refine .window ?_
  cases hk : w.current.kind with
  | identifier => exact answers_assignStatement hw hk
  | keyword k =>
    cases k with
    | declare => exact answers_declareStatement hw hk
    | constant => exact answers_constantStatement hw hk
    | input => exact answers_inputStatement hw hk
    | output => exact answers_outputStatement hw hk
    | _ => exact .fail (w.reports_notStatement hw)
  | _ => exact .fail (w.reports_notStatement hw)

end Grammar

end Pseudolang
