import Pseudolang.Grammar.Unrolling
import Pseudolang.Proofs.Consumption

/-!
# Asking for more power

The power that is asked for decides where the loop over operators stops, and nothing else: both runs
read the same operand, and an operator that is above the higher power is taken by both in the same
way (`Grammar.extension?_of_le`).  So the run that asks for more stops at one of the windows that
the other one passes, and what it has read by then is what the other one goes on from.

What the loop makes of an expression keeps it on the left spine.  `Expr.LeftPart` says which
expressions these are, and `Grammar.operators_cut` compares the two loops, by induction on what is
left to read.
-/

namespace Pseudolang

open Pseudolang.Grammar Pseudolang.Parser

/-! ## Left spines -/

/-- The first expression is the second one, or it is reached from there by going from operators
between operands to the left operand, from operators after their operand to that operand, and from
calls and indexings to what is called or indexed. -/
inductive Expr.LeftPart : Expr → Expr → Prop
  | refl (e : Expr) : LeftPart e e
  | binary {e left : Expr} (operator : Token) (right : Expr) (h : LeftPart e left) :
      LeftPart e (.binary operator left right)
  | suffix {e operand : Expr} (operator : Token) (h : LeftPart e operand) :
      LeftPart e (.suffix operator operand)
  | call (callee : Token) (arguments : List Expr) :
      LeftPart (.atom callee) (.call callee arguments)
  | index (callee : Token) (indexes : List Expr) :
      LeftPart (.atom callee) (.index callee indexes)

lemma Expr.LeftPart.trans {e e' e'' : Expr} (h : e.LeftPart e') (h' : e'.LeftPart e'') :
    e.LeftPart e'' := by
  induction h' with
  | refl => exact h
  | binary operator right _ ih => exact .binary operator right (ih h)
  | suffix operator _ ih => exact .suffix operator (ih h)
  | call callee arguments =>
    cases h
    exact .call callee arguments
  | index callee indexes =>
    cases h
    exact .index callee indexes

namespace Grammar

variable {σ : Type}

/-- An operator above the higher power is above the lower one, and extends in the same way. -/
lemma extension?_of_le {w : Window σ} {low high : ℕ} (hpower : low ≤ high) {extension : Extension}
    (h : extension? high w = some extension) : extension? low w = some extension := by
  cases extension with
  | suffix =>
    obtain ⟨p, hs, hp⟩ := extension?_eq_suffix h
    rw [extension?_of_suffix hs, if_pos (hpower.trans_lt hp)]
  | binary right =>
    obtain ⟨p, hb, hs, rfl, hp⟩ := extension?_eq_binary h
    rw [extension?_of_binary hb hs, if_pos (hpower.trans_lt hp)]

variable [TokenStream σ] {sub : ℕ → Parser σ Expr} {w w' w'' : Window σ} {left e : Expr}

/-! ## One round -/

/-- A round puts its operator on top of the expression that it extends. -/
lemma leftPart_of_extendBy {grouped : Bool} {extension : Extension} {operator : Token}
    (h : (extendBy sub grouped extension operator left).run w = (.ok e, w')) :
    left.LeftPart e := by
  cases extension with
  | binary power =>
    obtain ⟨right, w₁, -, h⟩ := run_bind_eq_ok.1 h
    obtain ⟨rfl, -⟩ := run_pure_eq_ok.1 h
    exact .binary operator right (.refl left)
  | suffix =>
    change (suffixAfter sub left grouped operator).run w = (.ok e, w') at h
    unfold suffixAfter at h
    split at h
    · split at h
      · simp at h
      · next callee hcallee =>
        obtain ⟨-, rfl, -⟩ := callee?_eq_some hcallee
        split at h
        · obtain ⟨arguments, w₁, -, h⟩ := run_bind_eq_ok.1 h
          obtain ⟨rfl, -⟩ := run_pure_eq_ok.1 h
          exact .call callee arguments
        · obtain ⟨indexes, w₁, -, h⟩ := run_bind_eq_ok.1 h
          obtain ⟨rfl, -⟩ := run_pure_eq_ok.1 h
          exact .index callee indexes
    · obtain ⟨rfl, -⟩ := run_pure_eq_ok.1 h
      exact .suffix operator (.refl left)

/-- So do all rounds together. -/
lemma leftPart_of_operators {power : ℕ} {grouped : Bool}
    (h : (iterate (extension? power) (extendBy sub grouped) left).run w = (.ok e, w')) :
    left.LeftPart e := by
  refine (iterate_preserves (I := fun e' _ => left.LeftPart e') ?_ h (.refl left)).1
  intro e₁ w₁ extension e₂ w₂ hleft _ hround
  exact hleft.trans (leftPart_of_extendBy hround)

/-! ## The two loops -/

/-- Where the loop with the lower power succeeds, the one with the higher power stops on the way
there.  The induction is on what is left to read. -/
lemma operators_cut (hsub : ∀ power, ∀ w : Window σ, Confined (sub power) w) {low high : ℕ}
    (hpower : low ≤ high) {grouped : Bool} {left : Expr} {w : Window σ}
    (h : (iterate (extension? low) (extendBy sub grouped) left).run w = (.ok e, w'')) :
    ∃ e' w' us, (iterate (extension? high) (extendBy sub grouped) left).run w = (.ok e', w') ∧
      e'.LeftPart e ∧ w'.Passes us w'' ∧ ∀ t ∈ us, ¬t.Barrier := by
  cases hx : extension? high w with
  | none =>
    obtain ⟨us, hus, hpasses⟩ := confined_operators hsub low grouped left w
    rw [h] at hpasses
    exact ⟨left, w, us, run_operators_of_none hx, leftPart_of_operators h, hpasses, hus⟩
  | some extension =>
    rw [run_operators_of_some (extension?_of_le hpower hx)] at h
    obtain ⟨e₁, w₁, hround, h⟩ := run_bind_eq_ok.1 h
    have hlt : w₁.remaining < w.remaining := by
      have := remaining_run_advance_lt (extendBy sub grouped extension w.current left)
        (kind_ne_endOfFile_of_extension? hx)
      rwa [hround] at this
    obtain ⟨e', w', us, hrun, hcut⟩ := operators_cut hsub hpower h
    exact ⟨e', w', us, by rw [run_operators_of_some hx, run_bind_of_ok hround, hrun], hcut⟩
termination_by w.remaining

/-! ## Expressions -/

/-- Both runs open the same expression and start from the same operand. -/
lemma operatorsWith_cut (hsub : ∀ power, ∀ w : Window σ, Confined (sub power) w) {low high : ℕ}
    (hpower : low ≤ high) (h : (operatorsWith sub low).run w = (.ok e, w'')) :
    ∃ e' w' us, (operatorsWith sub high).run w = (.ok e', w') ∧ e'.LeftPart e ∧
      w'.Passes us w'' ∧ ∀ t ∈ us, ¬t.Barrier := by
  rw [operatorsWith, run_window_bind] at h ⊢
  obtain ⟨first, w₁, hfirst, hloop⟩ := run_bind_eq_ok.1 h
  obtain ⟨e', w', us, hrun, hcut⟩ := operators_cut hsub hpower hloop
  exact ⟨e', w', us, run_bind_eq_ok.2 ⟨first, w₁, hfirst, hrun⟩, hcut⟩

/-- **Asking for more power cuts an expression on its left spine.**  Where an expression is read,
one of any higher power is read from the same window: it is the same expression, or what is reached
from it by going from operators to their left operands and from calls and indexings to their
callees.  The tokens `ts` that it takes are the first ones of those that the whole expression takes,
`ts` and `us`, and none of them ends a line. -/
theorem higher_power_cuts {low high : ℕ} (hpower : low ≤ high)
    (h : (expr low).run w = (.ok e, w'')) :
    ∃ e' w' ts us, (expr high).run w = (.ok e', w') ∧ e'.LeftPart e ∧
      w.Passes ts w' ∧ w.Passes (ts ++ us) w'' ∧ ∀ t ∈ ts ++ us, ¬t.Barrier := by
  rw [expr_eq] at h
  cases henter : w.enter with
  | error d =>
    rw [run_nested_of_error henter] at h
    cases h
  | ok w₁ =>
    rw [run_nested_of_ok henter] at h
    obtain ⟨hresult, rfl⟩ := Prod.mk.inj h
    obtain ⟨e', w₂, us, hrun, hpart, hrest, hus⟩ :=
      operatorsWith_cut confined_expr hpower (Prod.ext hresult rfl)
    have hhigh : (expr high).run w = (.ok e', w₂.leave) := by
      rw [expr_eq, run_nested_of_ok henter, hrun]
    obtain ⟨ts, hts, hpasses⟩ := confined_expr high w
    rw [hhigh] at hpasses
    exact ⟨e', w₂.leave, ts, us, hhigh, hpart, hpasses, hpasses.trans (hrest.leave),
      List.forall_mem_append.2 ⟨hts, hus⟩⟩

/-- A sum of a product and a dereference is cut to the product by the power of a product, and to its
first factor by a higher one. -/
theorem higher_power_cuts_sum :
    ∃ (w : Window Cursor) (e e₁ e₂ : Expr), ((expr 0).run w).1 = .ok e ∧
      e.text = "((a[1] * b) + (c^))" ∧ ((expr 12).run w).1 = .ok e₁ ∧ e₁.text = "(a[1] * b)" ∧
      e₁.LeftPart e ∧ ((expr 23).run w).1 = .ok e₂ ∧ e₂.text = "a" ∧ e₂.LeftPart e := by
  let w := Window.ofStream (Cursor.ofSource "a[1] * b + c^")
  have hwhole : ((expr 0).run w).1.toOption.map Expr.text = some "((a[1] * b) + (c^))" := by
    decide +kernel
  have hproduct : ((expr 12).run w).1.toOption.map Expr.text = some "(a[1] * b)" := by
    decide +kernel
  have hcallee : ((expr 23).run w).1.toOption.map Expr.text = some "a" := by
    decide +kernel
  cases h : (expr 0).run w with
  | mk r w' =>
    cases r with
    | error d => simp [h, Except.toOption] at hwhole
    | ok e =>
      obtain ⟨e₁, w₁, -, -, hrun₁, hpart₁, -⟩ := higher_power_cuts (show 0 ≤ 12 by decide) h
      obtain ⟨e₂, w₂, -, -, hrun₂, hpart₂, -⟩ := higher_power_cuts (show 0 ≤ 23 by decide) h
      rw [hrun₁] at hproduct
      rw [hrun₂] at hcallee
      rw [h] at hwhole
      refine ⟨w, e, e₁, e₂, congrArg Prod.fst h, ?_, congrArg Prod.fst hrun₁, ?_, hpart₁,
        congrArg Prod.fst hrun₂, ?_, hpart₂⟩
      · simpa [Except.toOption] using hwhole
      · simpa [Except.toOption] using hproduct
      · simpa [Except.toOption] using hcallee

end Grammar

end Pseudolang
