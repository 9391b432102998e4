import Pseudolang.Grammar.Window

/-!
# Steps of a reader

All that a reader does to a window is to move on by a token, to open an expression and to close one.
A list of such steps leads from a window to another (`Window.steps`).

Steps fit into each other like brackets if what is opened is closed again, and a number of levels
limits how many may be open inside each other (`Window.WellNested`).  Steps of that shape leave as
many expressions open as there were (`Window.WellNested.depth_steps`), and where they lead is some
tokens further on (`Window.WellNested.exists_steps_eq_advanceBy`).
-/

namespace Pseudolang.Window

variable {σ : Type} [TokenStream σ]

/-- What a reader does in one step. -/
inductive Step
  /-- Moves on by one token. -/
  | advance
  /-- Opens an expression. -/
  | enter
  /-- Closes the innermost open expression. -/
  | leave
  deriving DecidableEq

/-- The window after one step. -/
def step (w : Window σ) : Step → Window σ
  | .advance => w.advance
  | .enter => { w with depth := w.depth + 1 }
  | .leave => w.leave

@[simp]
theorem depth_step_enter (w : Window σ) : (w.step .enter).depth = w.depth + 1 := rfl

@[simp]
theorem depth_step_leave (w : Window σ) : (w.step .leave).depth = w.depth - 1 := rfl

/-- The window after some steps. -/
def steps (w : Window σ) (ss : List Step) : Window σ :=
  ss.foldl step w

@[simp]
theorem steps_nil (w : Window σ) : w.steps [] = w := rfl

@[simp]
theorem steps_cons (w : Window σ) (s : Step) (ss : List Step) :
    w.steps (s :: ss) = (w.step s).steps ss := rfl

@[simp]
theorem steps_append (w : Window σ) (ss ss' : List Step) :
    w.steps (ss ++ ss') = (w.steps ss).steps ss' :=
  List.foldl_append

/-! ## Steps that fit into each other -/

/-- Every expression that the steps open is closed by them, and no more than the given number are
open inside each other. -/
inductive WellNested : Nat → List Step → Prop
  | nil (levels : Nat) : WellNested levels []
  | advance (levels : Nat) : WellNested levels [.advance]
  | append {levels : Nat} {ss ss' : List Step} (h : WellNested levels ss)
      (h' : WellNested levels ss') : WellNested levels (ss ++ ss')
  | nest {levels : Nat} {ss : List Step} (h : WellNested levels ss) :
      WellNested (levels + 1) (.enter :: (ss ++ [.leave]))

namespace WellNested

variable {levels : Nat} {ss : List Step}

/-- After the steps as many expressions are open as before. -/
theorem depth_steps (h : WellNested levels ss) (w : Window σ) :
    (w.steps ss).depth = w.depth := by
  induction h generalizing w with
  | nil => rfl
  | advance => rfl
  | append _ _ ih ih' => rw [steps_append, ih', ih]
  | nest _ ih =>
    rw [steps_cons, steps_append, steps_cons, steps_nil, depth_step_leave, ih, depth_step_enter,
      Nat.add_sub_cancel]

/-- All that the steps change is how many tokens were passed. -/
theorem exists_steps_eq_advanceBy (h : WellNested levels ss) (w : Window σ) :
    ∃ n, w.steps ss = w.advanceBy n := by
  induction h generalizing w with
  | nil => exact ⟨0, rfl⟩
  | advance => exact ⟨1, rfl⟩
  | append _ _ ih ih' =>
    rw [steps_append]
    exact exists_advanceBy_trans (ih w) (ih' _)
  | nest _ ih =>
    obtain ⟨n, hn⟩ := ih (w.step .enter)
    refine ⟨n, ?_⟩
    rw [steps_cons, steps_append, hn]
    exact leave_advanceBy_opened n w

end WellNested

end Pseudolang.Window
