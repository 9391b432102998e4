import Pseudolang.Proofs.Calls
import Pseudolang.Proofs.Depth

/-!
# Nesting is balanced

The run of a parser records its steps (`Parser.steps`), and they fit into each other whatever the
tokens are.  So each run closes the expressions that it opens, those that end in a diagnostic
included, and never has more of them open than are allowed: `Parser.Balanced` collects what is true
of the steps of one run, and every run is balanced that starts with no more expressions open than
are allowed (`Parser.balanced`).

The limit bounds the expressions that are read as well.  An `Expr.Way` counts the steps from the
root of an expression to a leaf that open one more expression where it is read, and the longest way
can be computed (`Expr.longestWay`).  The steps of the run that reads the expression go as deep as
that, and one level deeper for the expression itself (`Grammar.goes_expr`).
-/

namespace Pseudolang

open Pseudolang.Parser

variable {σ : Type} [TokenStream σ]

/-! ## Balance -/

/-- What the steps of a run from the window keep to. -/
structure Parser.Balanced {α : Type} (p : Parser σ α) (w : Window σ) : Prop where
  /-- The steps lead to where the run ends, in a result or in a diagnostic. -/
  ends : w.steps (p.steps w) = (p.run w).2
  depth_eq : (p.run w).2.depth = w.depth
  /-- Wherever they have led so far, no more expressions are open than are allowed. -/
  le_limit (ss : List Window.Step) : ss <+: p.steps w → (w.steps ss).depth ≤ Expr.maxNesting
  /-- What is closed was opened by them. -/
  opened_of_leave (ss : List Window.Step) :
    ss ++ [.leave] <+: p.steps w → w.depth < (w.steps ss).depth

/-- Every run is balanced, since its steps fit into each other. -/
lemma Parser.balanced {α : Type} (p : Parser σ α) {w : Window σ}
    (hw : w.depth ≤ Expr.maxNesting) : p.Balanced w where
  ends := (p.follows w).ends
  depth_eq := p.depth_run w
  le_limit := by
    rintro ss ⟨rest, hsplit⟩
    have := ((p.follows w).wellNested.depth_between w hsplit.symm).2.1
    omega
  opened_of_leave := by
    rintro ss ⟨rest, hsplit⟩
    rw [List.append_assoc] at hsplit
    exact ((p.follows w).wellNested.depth_between w hsplit.symm).2.2 rfl

/-! ## Ways through an expression -/

/-- From the root of the expression there is a way to a leaf with so many steps into the operand of
an operator before it, the right operand of an operator between two, an argument or an index.  Steps
into a left operand, and into the operand of an operator after it, do not count; what is called or
indexed is a leaf. -/
inductive Expr.Way : Expr → ℕ → Prop
  | atom (token : Token) : Way (.atom token) 0
  | unary {operand : Expr} {n : ℕ} (operator : Token) (h : Way operand n) :
      Way (.unary operator operand) (n + 1)
  | left {left : Expr} {n : ℕ} (operator : Token) (right : Expr) (h : Way left n) :
      Way (.binary operator left right) n
  | right {right : Expr} {n : ℕ} (operator : Token) (left : Expr) (h : Way right n) :
      Way (.binary operator left right) (n + 1)
  | suffix {operand : Expr} {n : ℕ} (operator : Token) (h : Way operand n) :
      Way (.suffix operator operand) n
  | called (callee : Token) (arguments : List Expr) : Way (.call callee arguments) 0
  | argument {e : Expr} {n : ℕ} (callee : Token) {arguments : List Expr} (he : e ∈ arguments)
      (h : Way e n) : Way (.call callee arguments) (n + 1)
  | indexed (callee : Token) (indexes : List Expr) : Way (.index callee indexes) 0
  | index {e : Expr} {n : ℕ} (callee : Token) {indexes : List Expr} (he : e ∈ indexes)
      (h : Way e n) : Way (.index callee indexes) (n + 1)

mutual

/-- How many such steps the longest way has. -/
def Expr.longestWay : Expr → ℕ
  | .atom _ => 0
  | .unary _ operand => operand.longestWay + 1
  | .binary _ left right => max left.longestWay (right.longestWay + 1)
  | .suffix _ operand => operand.longestWay
  | .call _ arguments => Expr.longestWayAmong arguments
  | .index _ indexes => Expr.longestWayAmong indexes

/-- The same for a list, with the step into one of its expressions. -/
def Expr.longestWayAmong : List Expr → ℕ
  | [] => 0
  | e :: es => max (e.longestWay + 1) (Expr.longestWayAmong es)

end

mutual

lemma Expr.way_longestWay : ∀ e : Expr, e.Way e.longestWay
  | .atom token => .atom token
  | .unary operator operand => .unary operator operand.way_longestWay
  | .binary operator left right => by
      rw [Expr.longestWay]
      rcases max_choice left.longestWay (right.longestWay + 1) with h | h
      · rw [h]
        exact .left operator right left.way_longestWay
      · rw [h]
        exact .right operator left right.way_longestWay
  | .suffix operator operand => .suffix operator operand.way_longestWay
  | .call callee arguments => by
      rw [Expr.longestWay]
      rcases Expr.way_longestWayAmong arguments with h | ⟨e, he, hway, h⟩
      · exact h ▸ .called callee arguments
      · exact h ▸ .argument callee he hway
  | .index callee indexes => by
      rw [Expr.longestWay]
      rcases Expr.way_longestWayAmong indexes with h | ⟨e, he, hway, h⟩
      · exact h ▸ .indexed callee indexes
      · exact h ▸ .index callee he hway

lemma Expr.way_longestWayAmong : ∀ es : List Expr, Expr.longestWayAmong es = 0 ∨
    ∃ e ∈ es, e.Way e.longestWay ∧ Expr.longestWayAmong es = e.longestWay + 1
  | [] => .inl rfl
  | e :: es => by
      rw [Expr.longestWayAmong]
      rcases max_choice (e.longestWay + 1) (Expr.longestWayAmong es) with h | h
      · exact .inr ⟨e, List.mem_cons_self, e.way_longestWay, h⟩
      · rw [h]
        rcases Expr.way_longestWayAmong es with h' | ⟨e', he', hway, h'⟩
        · exact .inl h'
        · exact .inr ⟨e', List.mem_cons_of_mem e he', hway, h'⟩

end

lemma Expr.succ_longestWay_le {e : Expr} {es : List Expr} (he : e ∈ es) :
    e.longestWay + 1 ≤ Expr.longestWayAmong es := by
  induction es with
  | nil => exact absurd he List.not_mem_nil
  | cons e' es ih =>
    rw [Expr.longestWayAmong]
    rcases List.mem_cons.1 he with rfl | he
    · exact le_max_left _ _
    · exact (ih he).trans (le_max_right _ _)

lemma Expr.Way.le_longestWay {e : Expr} {n : ℕ} (h : e.Way n) : n ≤ e.longestWay := by
  induction h with
  | atom => exact le_rfl
  | unary _ _ ih => exact Nat.succ_le_succ ih
  | left _ _ _ ih => exact ih.trans (le_max_left _ _)
  | right _ _ _ ih => exact (Nat.succ_le_succ ih).trans (le_max_right _ _)
  | suffix _ _ ih => exact ih
  | called | indexed => exact Nat.zero_le _
  | argument _ he _ ih => exact (Nat.succ_le_succ ih).trans (Expr.succ_longestWay_le he)
  | index _ he _ ih => exact (Nat.succ_le_succ ih).trans (Expr.succ_longestWay_le he)

namespace Grammar

/-! ## Where expressions are read -/

section Pieces

variable {sub : ℕ → Parser σ Expr}
  (h : ∀ power w done, Goes (sub power) done (fun e => e.longestWay + 1) w)
  {w : Window σ} {done : ℕ}
include h

lemma goes_groupWith : Goes (groupWith sub) done Expr.longestWay w :=
  .skip fun _ w₁ _ => .bind (h minPower w₁ done) fun e _ _ => .skip fun _ _ _ =>
    .pure ((Nat.le_succ e.longestWay).trans (le_max_right _ _))

lemma goes_unaryWith (power : ℕ) : Goes (unaryWith sub power) done Expr.longestWay w :=
  .skip fun _ w₁ _ => .bind (h power w₁ done) fun _ _ _ => .pure (le_max_right _ _)

lemma goes_operandWith : Goes (operandWith sub) done Expr.longestWay w := by
  refine .window (.ite (fun _ => ?_) fun _ => .ite (fun _ => goes_groupWith h) fun _ => ?_)
  · exact .skip fun _ _ _ => .pure (Nat.zero_le done)
  · split
    · exact goes_unaryWith h _
    · exact .window (.fail _)

lemma goes_listWith (closing : Kind) (allowEmpty : Bool) :
    Goes (listWith sub closing allowEmpty) done Expr.longestWayAmong w := by
  refine .window (.ite (fun _ => ?_) fun _ => ?_)
  · exact .skip fun _ _ _ => .pure (Nat.zero_le done)
  · have hlist : Goes (commaSeparated (sub minPower)) done Expr.longestWayAmong w :=
      .commaSeparated rfl (fun _ _ => rfl) (h minPower)
    exact hlist.bind fun _ _ _ => .window (.skip fun _ _ _ => .pure (le_max_right _ _))

/-- An operator that extends what was read goes as deep as the operand or the list after it. -/
lemma goes_extendBy (grouped : Bool) (extension : Extension) (operator : Token) {left : Expr}
    (hleft : left.longestWay ≤ done) :
    Goes (extendBy sub grouped extension operator left) done Expr.longestWay w := by
  cases extension with
  | binary power =>
    exact .bind (h power w done) fun _ _ _ => .pure (max_le_max hleft le_rfl)
  | suffix =>
    refine .ite (fun _ => ?_) fun _ => .pure hleft
    split
    · exact .fail _
    · refine .ite (fun _ => ?_) fun _ => ?_
      · exact .bind (goes_listWith h _ _) fun _ _ _ => .pure (le_max_right _ _)
      · exact .bind (goes_listWith h _ _) fun _ _ _ => .pure (le_max_right _ _)

lemma goes_operatorsWith (power : ℕ) : Goes (operatorsWith sub power) done Expr.longestWay w :=
  .window (.bind (goes_operandWith h) fun _ _ _ =>
    .iterate (fun extension operator _ _ _ hleft => goes_extendBy h _ extension operator hleft)
      (le_max_right _ _))

end Pieces

lemma goes_exprAt (levels power : ℕ) (w : Window σ) (done : ℕ) :
    Goes (exprAt levels power) done (fun e => e.longestWay + 1) w := by
  induction levels generalizing power w done with
  | zero => exact .window (.fail _)
  | succ levels ih => exact .nested (goes_operatorsWith ih power)

lemma goes_expr (power : ℕ) (w : Window σ) (done : ℕ) :
    Goes (expr power) done (fun e => e.longestWay + 1) w :=
  goes_exprAt (Expr.maxNesting - w.depth) power w done

/-- **Nesting is balanced and bounds the recursion.**  Whatever parser is called, with whatever
arguments and on a window with no more expressions open than are allowed, the run leaves as many
open as it found, whether it ends in a result or in a diagnostic.  On the way it never has more open
than are allowed, and closes none but those that it opened.  And where an expression is read, each
way from its root to a leaf shows in the steps of the run: at some place among them one expression
more is open than the way has steps into operands of operators before them, right operands,
arguments and indexes.  So no way has as many of those as levels were left. -/
theorem nesting_is_balanced (w : Window σ) (hw : w.depth ≤ Expr.maxNesting) :
    (∀ call : Call, call.parser.Balanced w) ∧
      ∀ power e w', (expr power).run w = (.ok e, w') → ∀ n, e.Way n →
        w.depth + n < Expr.maxNesting ∧
          ∃ ss, ss <+: (expr power).steps w ∧ w.depth + n < (w.steps ss).depth := by
  refine ⟨fun call => call.parser.balanced hw, fun power e w' h n hn => ?_⟩
  rcases goes_expr power w 0 e w' h with hzero | ⟨ss, hss, hdeep⟩
  · exact absurd hzero (Nat.not_succ_le_zero _)
  · have hlimit : (w.steps ss).depth ≤ Expr.maxNesting :=
      ((expr power).balanced hw).le_limit ss hss
    have hway : w.depth + n < (w.steps ss).depth :=
      calc w.depth + n ≤ w.depth + e.longestWay := Nat.add_le_add_left hn.le_longestWay _
        _ < (w.steps ss).depth := hdeep
    exact ⟨hway.trans_le hlimit, ss, hss, hway⟩

/-- Two signs where three levels are left take all of them: the third expression is the last one
that may be open, and every expression is closed again. -/
theorem nesting_is_balanced_two_signs :
    ∃ w : Window Cursor, w.depth ≤ Expr.maxNesting ∧ w.depth + 3 = Expr.maxNesting ∧
      (Call.expr minPower).parser.Balanced w ∧
      (expr minPower).steps w =
        [.enter, .advance, .enter, .advance, .enter, .advance, .leave, .leave, .leave] ∧
      ∃ e w', (expr minPower).run w = (.ok e, w') ∧ e.text = "(-(-a))" ∧ e.Way 2 ∧
        ∃ ss, ss <+: (expr minPower).steps w ∧ w.depth + 2 < (w.steps ss).depth := by
  let w : Window Cursor := { Window.ofStream (Cursor.ofSource "--a") with depth := 253 }
  have hdepth : w.depth ≤ Expr.maxNesting := by decide
  have hsteps : (expr minPower).steps w =
      [.enter, .advance, .enter, .advance, .enter, .advance, .leave, .leave, .leave] := by
    decide +kernel
  have hresult : ((expr minPower).run w).1.toOption.map (fun e => (e.text, e.longestWay)) =
      some ("(-(-a))", 2) := by
    decide +kernel
  obtain ⟨hbalanced, hways⟩ := nesting_is_balanced w hdepth
  refine ⟨w, hdepth, rfl, hbalanced _, hsteps, ?_⟩
  cases hrun : (expr minPower).run w with
  | mk r w' =>
    rw [hrun] at hresult
    cases r with
    | error d => simp [Except.toOption] at hresult
    | ok e =>
      obtain ⟨htext, hlongest⟩ := Prod.mk.inj (Option.some.inj hresult)
      have hway : e.Way 2 := hlongest ▸ e.way_longestWay
      exact ⟨e, w', rfl, htext, hway, (hways minPower e w' hrun 2 hway).2⟩

end Grammar

end Pseudolang
