import Pseudolang.Grammar.Expression

/-!
# Unrolling expressions

`expr` is defined by the number of levels that the window leaves to open.  Seen from outside that
number does not show: an expression is its operators with one more expression open, and the
expressions inside it are read by `expr` again (`Grammar.expr_eq`).

The reason is that a parser leaves the number of open expressions as it found it.  So inside one
more level every window has the same number of levels left, and there `expr` and `exprAt` agree.
-/

namespace Pseudolang

namespace Parser

variable {σ : Type} [TokenStream σ] {α β : Type}

/-- Two parsers do the same on every window with the given number of open expressions. -/
def AgreeAt (depth : Nat) (p q : Parser σ α) : Prop :=
  ∀ w : Window σ, w.depth = depth → p.exec w = q.exec w

theorem AgreeAt.refl (depth : Nat) (p : Parser σ α) : AgreeAt depth p p :=
  fun _ _ => rfl

theorem AgreeAt.bind {depth : Nat} {p q : Parser σ α} {f g : α → Parser σ β}
    (hp : AgreeAt depth p q) (hf : ∀ a, AgreeAt depth (f a) (g a)) :
    AgreeAt depth (p >>= f) (q >>= g) := by
  intro w hw
  have hd := (p.follows w).depth_eq
  rw [exec_bind, exec_bind, ← hp w hw]
  split
  · next a w' ss h =>
    rw [h] at hd
    rw [hf a w' (hd.trans hw)]
  · rfl

theorem AgreeAt.nested {depth : Nat} {p q : Parser σ α} (h : AgreeAt (depth + 1) p q) :
    AgreeAt depth (nested p) (nested q) := by
  intro w hw
  cases he : w.enter with
  | error d => rw [exec_nested_of_error he, exec_nested_of_error he]
  | ok w' =>
    rw [exec_nested_of_ok he, exec_nested_of_ok he, h w' (by rw [Window.depth_of_enter he, hw])]

theorem AgreeAt.iterate {depth : Nat} {offer : Window σ → Option β}
    {round round' : β → Token → α → Parser σ α}
    (h : ∀ b t a, AgreeAt depth (round b t a) (round' b t a)) (a : α) :
    AgreeAt depth (iterate offer round a) (iterate offer round' a) := by
  suffices H : ∀ n, ∀ w : Window σ, w.remaining = n → w.depth = depth → ∀ a,
      (Parser.iterate offer round a).exec w = (Parser.iterate offer round' a).exec w from
    fun w hw => H _ w rfl hw a
  intro n
  induction n using Nat.strongRecOn with
  | ind n ih =>
    intro w hn hw a
    rw [exec_iterate, exec_iterate]
    split
    · rfl
    · next hf =>
      split
      · rfl
      · next b _ =>
        have hd := ((round b w.current a).follows w.advance).depth_eq
        have hr := remaining_run_advance_lt (round b w.current a) hf
        rw [exec_bind, exec_bind, ← h b w.current a w.advance hw]
        split
        · next a' w' ss hrun =>
          rw [hrun] at hd
          rw [run_of_exec hrun] at hr
          rw [ih _ (hn ▸ hr) w' rfl (hd.trans hw) a']
        · rfl

theorem AgreeAt.commaTail {depth : Nat} {item item' : Parser σ α} (h : AgreeAt depth item item') :
    AgreeAt depth (commaTail item) (commaTail item') := by
  suffices H : ∀ n, ∀ w : Window σ, w.remaining = n → w.depth = depth →
      (Parser.commaTail item).exec w = (Parser.commaTail item').exec w from
    fun w hw => H _ w rfl hw
  intro n
  induction n using Nat.strongRecOn with
  | ind n ih =>
    intro w hn hw
    rw [exec_commaTail, exec_commaTail]
    split
    · next hc =>
      have hd := (item.follows w.advance).depth_eq
      have hr := remaining_run_advance_lt item (w := w) (by simp [hc])
      rw [exec_bind, exec_bind, ← h w.advance hw]
      split
      · next a w' ss hrun =>
        rw [hrun] at hd
        rw [run_of_exec hrun] at hr
        rw [exec_bind, exec_bind, ih _ (hn ▸ hr) w' rfl (hd.trans hw)]
      · rfl
    · rfl

theorem AgreeAt.commaSeparated {depth : Nat} {item item' : Parser σ α}
    (h : AgreeAt depth item item') : AgreeAt depth (commaSeparated item) (commaSeparated item') :=
  h.bind fun _ => h.commaTail.bind fun _ => .refl depth _

end Parser

namespace Grammar

open Pseudolang.Parser

variable {σ : Type} [TokenStream σ] {depth : Nat} {sub sub' : Nat → Parser σ Expr}

theorem agreeAt_groupWith (h : ∀ power, AgreeAt depth (sub power) (sub' power)) :
    AgreeAt depth (groupWith sub) (groupWith sub') :=
  (AgreeAt.refl depth take).bind fun _ => (h minPower).bind fun _ => .refl depth _

theorem agreeAt_unaryWith (h : ∀ power, AgreeAt depth (sub power) (sub' power)) (power : Nat) :
    AgreeAt depth (unaryWith sub power) (unaryWith sub' power) :=
  (AgreeAt.refl depth take).bind fun _ => (h power).bind fun _ => .refl depth _

theorem agreeAt_operandWith (h : ∀ power, AgreeAt depth (sub power) (sub' power)) :
    AgreeAt depth (operandWith sub) (operandWith sub') := by
  refine (AgreeAt.refl depth window).bind fun w => ?_
  split
  · exact .refl depth _
  · split
    · exact agreeAt_groupWith h
    · split
      · exact agreeAt_unaryWith h _
      · exact .refl depth _

theorem agreeAt_listWith (h : ∀ power, AgreeAt depth (sub power) (sub' power)) (closing : Kind)
    (allowEmpty : Bool) :
    AgreeAt depth (listWith sub closing allowEmpty) (listWith sub' closing allowEmpty) := by
  refine (AgreeAt.refl depth window).bind fun w => ?_
  split
  · exact .refl depth _
  · exact (h minPower).commaSeparated.bind fun _ => .refl depth _

theorem agreeAt_suffixAfter (h : ∀ power, AgreeAt depth (sub power) (sub' power)) (left : Expr)
    (grouped : Bool) (operator : Token) :
    AgreeAt depth (suffixAfter sub left grouped operator)
      (suffixAfter sub' left grouped operator) := by
  unfold suffixAfter
  split
  · split
    · exact .refl depth _
    · split
      · exact (agreeAt_listWith h _ _).bind fun _ => .refl depth _
      · exact (agreeAt_listWith h _ _).bind fun _ => .refl depth _
  · exact .refl depth _

theorem agreeAt_extendBy (h : ∀ power, AgreeAt depth (sub power) (sub' power)) (grouped : Bool)
    (extension : Extension) (operator : Token) (left : Expr) :
    AgreeAt depth (extendBy sub grouped extension operator left)
      (extendBy sub' grouped extension operator left) := by
  cases extension with
  | suffix => exact agreeAt_suffixAfter h left grouped operator
  | binary power => exact (h power).bind fun _ => .refl depth _

/-- Operators are read the same by two parsers for the expressions inside that agree. -/
theorem agreeAt_operatorsWith (h : ∀ power, AgreeAt depth (sub power) (sub' power))
    (power : Nat) : AgreeAt depth (operatorsWith sub power) (operatorsWith sub' power) :=
  (AgreeAt.refl depth window).bind fun _ =>
    (agreeAt_operandWith h).bind fun first =>
      AgreeAt.iterate (agreeAt_extendBy h _) first

/-- With `depth` expressions open, what is left of the levels is what `exprAt` is given. -/
theorem agreeAt_expr (depth power : Nat) :
    AgreeAt depth (exprAt (Expr.maxNesting - depth) power : Parser σ Expr) (expr power) := by
  intro w hw
  subst hw
  rfl

/-- An expression is its operators with one more expression open, the expressions inside it being
read in the same way. -/
theorem expr_eq (power : Nat) :
    (expr power : Parser σ Expr) = nested (operatorsWith expr power) := by
  ext w : 2
  show (exprAt (Expr.maxNesting - w.depth) power).exec w = _
  cases hl : Expr.maxNesting - w.depth with
  | zero =>
    have he : w.enter = .error w.tooDeep := if_pos (Nat.sub_eq_zero_iff_le.1 hl)
    rw [exec_nested_of_error he]
    rfl
  | succ levels =>
    have hsub : levels = Expr.maxNesting - (w.depth + 1) := by omega
    refine AgreeAt.nested (agreeAt_operatorsWith (fun p => ?_) power) w rfl
    rw [hsub]
    exact agreeAt_expr (w.depth + 1) p

end Grammar

end Pseudolang
