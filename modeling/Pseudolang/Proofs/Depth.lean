import Mathlib.Order.MinMax
import Pseudolang.Proofs.Lookahead

/-!
# How deep runs go

The steps of a run fit into each other like brackets.  How many expressions are open is read off
that shape at every place between two of the steps: no fewer than at the start, and no more than by
the number of levels (`Window.WellNested.depth_between`).

The shape says how deep the steps may go at most.  That they do go deep where the result is nested
is followed along the run (`Parser.Goes`): a value may be as deep as the steps that made it, or as
what was there before them.  There is a rule for each way to combine parsers, and only `nested` goes
one level deeper.
-/

namespace Pseudolang

variable {σ : Type} [TokenStream σ]

namespace Window

namespace WellNested

variable {levels : ℕ} {ss : List Step}

/-- Between two of them no fewer are open, and no more than by the number of levels; and if the step
that follows closes an expression, one of those is open that the steps have opened. -/
lemma depth_between (h : WellNested levels ss) (w : Window σ) {front back : List Step}
    (hsplit : ss = front ++ back) :
    w.depth ≤ (w.steps front).depth ∧ (w.steps front).depth ≤ w.depth + levels ∧
      (back.head? = some .leave → w.depth < (w.steps front).depth) := by
  induction h generalizing w front back with
  | nil =>
    obtain ⟨rfl, rfl⟩ := List.nil_eq_append_iff.1 hsplit
    simp
  | advance =>
    rcases List.singleton_eq_append_iff.1 hsplit with ⟨rfl, rfl⟩ | ⟨rfl, rfl⟩
    · simp
    · simp [step, Window.advance]
  | @append levels ss ss' h h' ih ih' =>
    rcases List.append_eq_append_iff.1 hsplit with ⟨middle, rfl, hback⟩ | ⟨middle, hfront, rfl⟩
    · have hdepth := h.depth_steps w
      have hinside := ih' (w.steps ss) hback
      rwa [hdepth, ← steps_append] at hinside
    · obtain ⟨hle, hlimit, hleave⟩ := ih w hfront
      refine ⟨hle, hlimit, fun hhead => ?_⟩
      cases middle with
      | cons s middle => exact hleave hhead
      | nil =>
        -- the step that follows is the first one of the second part, where nothing is open yet
        have hdepth := h'.depth_steps (w.steps ss)
        have := (ih' (w.steps ss) (List.nil_append ss').symm).2.2 hhead
        exact absurd this (lt_irrefl _)
  | @nest levels ss h ih =>
    cases front with
    | nil =>
      obtain rfl : Step.enter :: (ss ++ [.leave]) = back := hsplit
      simp
    | cons s front =>
      obtain ⟨rfl, hrest⟩ := List.cons.inj (hsplit.trans (List.cons_append ..))
      rw [steps_cons]
      rcases List.append_eq_append_iff.1 hrest with ⟨middle, rfl, hback⟩ | ⟨middle, hfront, rfl⟩
      · have hinside := h.depth_steps (w.step .enter)
        rw [depth_step_enter] at hinside
        rcases List.singleton_eq_append_iff.1 hback with ⟨rfl, rfl⟩ | ⟨rfl, rfl⟩
        · rw [List.append_nil, hinside]
          omega
        · rw [steps_append, steps_cons, steps_nil, depth_step_leave, hinside]
          simp
      · obtain ⟨hle, hlimit, -⟩ := ih (w.step .enter) hfront
        rw [depth_step_enter] at hle hlimit
        omega

end WellNested

/-- At some place among the steps so many more expressions are open than at the window, unless they
are no more than were open before already. -/
def Reaches (w : Window σ) (ss : List Step) (done n : ℕ) : Prop :=
  n ≤ done ∨ ∃ front, front <+: ss ∧ w.depth + n ≤ (w.steps front).depth

namespace Reaches

variable {w : Window σ} {ss ss' : List Step} {done m n : ℕ}

lemma of_le (h : n ≤ done) : w.Reaches ss done n := .inl h

/-- What the first steps reach need not be reached again. -/
lemma append (h : w.Reaches ss done m) (hdepth : (w.steps ss).depth = w.depth)
    (h' : (w.steps ss).Reaches ss' (max done m) n) : w.Reaches (ss ++ ss') done n := by
  rcases h' with hle | ⟨front, hfront, hdeep⟩
  · rcases le_max_iff.1 hle with hdone | hm
    · exact .inl hdone
    · rcases h with hdone | ⟨front, hfront, hdeep⟩
      · exact .inl (hm.trans hdone)
      · exact .inr ⟨front, hfront.trans (List.prefix_append ss ss'), by omega⟩
  · refine .inr ⟨ss ++ front, (List.prefix_append_right_inj ss).2 hfront, ?_⟩
    rwa [steps_append, ← hdepth]

lemma advance_cons (h : w.advance.Reaches ss done n) : w.Reaches (.advance :: ss) done n := by
  have hfirst : w.Reaches [.advance] done 0 := .of_le (Nat.zero_le done)
  exact hfirst.append rfl (by rwa [Nat.max_zero])

lemma nest (h : (w.step .enter).Reaches ss 0 n) :
    w.Reaches (.enter :: (ss ++ [.leave])) done (n + 1) := by
  rcases h with hn | ⟨front, hfront, hdeep⟩
  · obtain rfl : n = 0 := Nat.le_zero.1 hn
    exact .inr ⟨[Step.enter], List.prefix_append [Step.enter] _, le_rfl⟩
  · have hinside : front <+: ss ++ [.leave] := hfront.trans (List.prefix_append ss _)
    refine .inr ⟨.enter :: front, List.cons_prefix_cons.2 ⟨rfl, hinside⟩, ?_⟩
    rw [depth_step_enter] at hdeep
    rw [steps_cons]
    omega

end Reaches

end Window

namespace Parser

open Window

variable {α β : Type} {p : Parser σ α} {f : α → Parser σ β}

/-! ## The steps of a run -/

lemma steps_of_run {w w' : Window σ} {r : Except Diagnostic α} (h : p.run w = (r, w')) :
    w.steps (p.steps w) = w' :=
  (p.follows w).ends.trans (congrArg Prod.snd h)

lemma steps_bind_of_ok {w w' : Window σ} {a : α} (h : p.run w = (.ok a, w')) :
    (p >>= f).steps w = p.steps w ++ (f a).steps w' := by
  rw [steps, exec_bind_of_ok (exec_of_run h)]
  rfl

lemma steps_nested {w w' : Window σ} (h : w.enter = .ok w') :
    (nested p).steps w = .enter :: (p.steps w' ++ [.leave]) := by
  rw [steps, exec_nested_of_ok h]
  rfl

/-! ## How deep they go -/

/-- If the run succeeds, its steps go as deep as its result says, or no deeper than was gone
before. -/
def Goes (p : Parser σ α) (done : ℕ) (deep : α → ℕ) (w : Window σ) : Prop :=
  ∀ a w', p.run w = (.ok a, w') → w.Reaches (p.steps w) done (deep a)

namespace Goes

variable {done : ℕ} {deep : α → ℕ} {deep' : β → ℕ} {w : Window σ}

lemma pure {a : α} (h : deep a ≤ done) : Goes (Pure.pure a) done deep w := by
  intro a' w' hrun
  obtain ⟨rfl, -⟩ := run_pure_eq_ok.1 hrun
  exact .of_le h

lemma of_run_eq_error {d : Diagnostic} {w' : Window σ} (h : p.run w = (.error d, w')) :
    Goes p done deep w := by
  intro a w'' hrun
  cases h.symm.trans hrun

lemma fail (d : Diagnostic) : Goes (fail d : Parser σ α) done deep w :=
  of_run_eq_error (run_fail d w)

/-- What is read behind the current token is read one step later. -/
lemma of_advance {q : Parser σ α} (hexec : p.exec w = (q.exec w.advance).after [.advance])
    (h : Goes q done deep w.advance) : Goes p done deep w := by
  intro a w' hrun
  have hsteps : p.steps w = .advance :: q.steps w.advance := by
    rw [steps, hexec]
    rfl
  have hrun' : q.run w.advance = p.run w := by
    rw [run, run, hexec]
    rfl
  rw [hsteps]
  exact (h a w' (hrun'.trans hrun)).advance_cons

lemma bind (h : Goes p done deep w)
    (hf : ∀ a w', p.run w = (.ok a, w') → Goes (f a) (max done (deep a)) deep' w') :
    Goes (p >>= f) done deep' w := by
  intro b w'' hrun
  obtain ⟨a, w', hp, hb⟩ := run_bind_eq_ok.1 hrun
  have hends : w.steps (p.steps w) = w' := steps_of_run hp
  have hdepth : w'.depth = w.depth := hends ▸ (p.follows w).wellNested.depth_steps w
  rw [steps_bind_of_ok hp]
  -- what follows starts where the run ends, with what the run has reached behind it
  refine (h a w' hp).append (hends ▸ hdepth) ?_
  rw [hends]
  exact hf a w' hp b w'' hb

/-- What comes first may go as deep as it likes. -/
lemma skip (hf : ∀ a w', p.run w = (.ok a, w') → Goes (f a) done deep' w') :
    Goes (p >>= f) done deep' w := by
  have hzero : Goes p done (fun _ => 0) w := fun _ _ _ => .of_le (Nat.zero_le done)
  refine hzero.bind fun a w' hp => ?_
  rw [Nat.max_zero]
  exact hf a w' hp

lemma window {f : Window σ → Parser σ α} (h : Goes (f w) done deep w) :
    Goes (Parser.window >>= f) done deep w := h

lemma ite {c : Prop} [Decidable c] {q : Parser σ α} (h : c → Goes p done deep w)
    (h' : ¬c → Goes q done deep w) : Goes (if c then p else q) done deep w := by
  split
  · next hc => exact h hc
  · next hc => exact h' hc

/-- An expression that is opened goes one level deeper. -/
lemma nested (h : Goes p 0 deep (w.step .enter)) :
    Goes (nested p) done (fun a => deep a + 1) w := by
  cases henter : w.enter with
  | error d => exact of_run_eq_error (run_nested_of_error henter)
  | ok w' =>
    obtain rfl : w' = w.step .enter := eq_of_enter henter
    intro a w'' hrun
    rw [run_nested_of_ok henter] at hrun
    have hinside := h a _ (Prod.ext (Prod.mk.inj hrun).1 rfl)
    rw [steps_nested henter]
    exact hinside.nest

/-- Rounds that go as deep as what they make of a value are as deep together. -/
lemma iterate {offer : Window σ → Option β} {round : β → Token → α → Parser σ α}
    (h : ∀ b token a w done, deep a ≤ done → Goes (round b token a) done deep w) {a : α}
    (ha : deep a ≤ done) : Goes (iterate offer round a) done deep w := by
  induction a, w using iterate_induction offer round generalizing done with
  | stop a w hstop =>
    intro a' w' hrun
    rw [run_iterate_of_stop hstop] at hrun
    cases hrun
    exact .of_le ha
  | more a w b a₁ w₁ hf ho hr ih =>
    refine of_advance (exec_iterate_of_offer hf ho) ((h b w.current a w.advance done ha).bind ?_)
    intro a₂ w₂ hr'
    cases hr.symm.trans hr'
    exact ih (le_max_right _ _)
  | failed a w b d w₁ hf ho hr => exact of_run_eq_error (run_iterate_of_error hf ho hr)

section List

variable {total : List α → ℕ} (hnil : total [] = 0)
  (hcons : ∀ a as, total (a :: as) = max (deep a) (total as))
include hnil hcons

lemma commaTail (h : ∀ w done, Goes p done deep w) : Goes (commaTail p) done total w := by
  induction w using commaTail_induction p generalizing done with
  | stop w hc =>
    intro as w' hrun
    rw [run_commaTail, if_neg hc] at hrun
    cases hrun
    exact .of_le (hnil ▸ Nat.zero_le done)
  | more w a w₁ hc hr ih =>
    refine of_advance ((exec_commaTail p w).trans (if_pos hc)) ((h w.advance done).bind ?_)
    intro a₁ w₁' hr'
    cases hr.symm.trans hr'
    refine ih.bind fun as _ _ => pure ?_
    rw [hcons]
    exact max_le_max (le_max_right _ _) le_rfl
  | failed w d w₁ hc hr =>
    have hfailed : (Parser.commaTail p).run w = (.error d, w₁) := by
      rw [run_commaTail, if_pos hc, run_bind_of_error hr]
    exact of_run_eq_error hfailed

lemma commaSeparated (h : ∀ w done, Goes p done deep w) :
    Goes (commaSeparated p) done total w :=
  bind (h w done) fun _ _ _ => bind (commaTail hnil hcons h) fun _ _ _ => by
    refine pure ?_
    rw [hcons]
    exact max_le_max (le_max_right _ _) le_rfl

end List

end Goes

end Parser

end Pseudolang
