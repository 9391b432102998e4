import Pseudolang.Grammar.Step

/-!
# Parsers

A parser runs on a window and ends in a result or a diagnostic, with the window where it stopped in
either case and a record of the steps that it took (`Ending`).  The record is part of the run: it
leads to that window, and it fits into itself like brackets, with no more expressions open than are
allowed.  Both are part of the type (`Parser.follows`), so that a parser can do nothing to a window
but take steps and has to close what it opens.  Hence the window after a run is the one before it,
some tokens further on (`Parser.forward`): as many expressions are open as before, and what is left
to read has not grown.

Repetition (`Parser.iterate`, `Parser.commaSeparated`) starts each round by taking a token, and ends
because the tokens do.
-/

namespace Pseudolang

/-- How a run ends: in a result or a diagnostic, in a window, and after some steps. -/
structure Ending (σ α : Type) where
  result : Except Diagnostic α
  window : Window σ
  steps : List Window.Step

namespace Ending

open Window

variable {σ α β : Type}

/-- The ending with its result changed. -/
def map (f : α → β) (e : Ending σ α) : Ending σ β :=
  { e with result := e.result.map f }

/-- The ending when some steps were taken before. -/
def after (ss : List Step) (e : Ending σ α) : Ending σ α :=
  { e with steps := ss ++ e.steps }

/-- The ending when an expression is open around the run. -/
def nest (e : Ending σ α) : Ending σ α :=
  { e with window := e.window.leave, steps := .enter :: (e.steps ++ [.leave]) }

@[simp]
theorem after_nil (e : Ending σ α) : e.after [] = e := rfl

theorem after_append (ss ss' : List Step) (e : Ending σ α) :
    e.after (ss ++ ss') = (e.after ss').after ss := by
  simp only [after, List.append_assoc]

variable [TokenStream σ]

/-- The steps lead from the window to where the run ends, and fit into each other with the levels
that the window leaves. -/
structure Follows (e : Ending σ α) (w : Window σ) : Prop where
  ends : w.steps e.steps = e.window
  wellNested : WellNested (Expr.maxNesting - w.depth) e.steps

namespace Follows

variable {e : Ending σ α} {w w' : Window σ} {ss : List Step} {r : Except Diagnostic α}

theorem still (r : Except Diagnostic α) (w : Window σ) : Follows ⟨r, w, []⟩ w :=
  ⟨rfl, .nil _⟩

theorem advance (r : Except Diagnostic α) (w : Window σ) : Follows ⟨r, w.advance, [.advance]⟩ w :=
  ⟨rfl, .advance _⟩

/-- A run that failed may be given any type. -/
theorem error {d : Diagnostic} (h : Follows (⟨.error d, w', ss⟩ : Ending σ α) w) :
    Follows (⟨.error d, w', ss⟩ : Ending σ β) w :=
  ⟨h.ends, h.wellNested⟩

theorem map (f : α → β) (h : e.Follows w) : (e.map f).Follows w :=
  ⟨h.ends, h.wellNested⟩

theorem depth_eq (h : e.Follows w) : e.window.depth = w.depth := by
  rw [← h.ends, h.wellNested.depth_steps]

theorem trans (h : Follows ⟨r, w', ss⟩ w) {e : Ending σ β} (h' : e.Follows w') :
    (e.after ss).Follows w where
  ends := by
    rw [after, steps_append, h.ends]
    exact h'.ends
  wellNested := by
    have hrest := h'.wellNested
    rw [h.depth_eq] at hrest
    exact h.wellNested.append hrest

/-- What follows after a token was taken. -/
theorem of_advance (h : e.Follows w.advance) : (e.after [.advance]).Follows w :=
  (advance (.ok ()) w).trans h

theorem nest (h : e.Follows w') (henter : w.enter = .ok w') : e.nest.Follows w := by
  obtain ⟨hlevels, rfl⟩ := of_enter henter
  have hnested := h.wellNested
  constructor
  · show w.steps (.enter :: (e.steps ++ [.leave])) = _
    rw [steps_cons, steps_append]
    exact congrArg Window.leave h.ends
  · show WellNested _ (.enter :: (e.steps ++ [.leave]))
    rw [show Expr.maxNesting - w.depth = Expr.maxNesting - (w.depth + 1) + 1 by omega]
    exact .nest hnested

theorem forward (h : e.Follows w) : ∃ n, e.window = w.advanceBy n := by
  rw [← h.ends]
  exact h.wellNested.exists_steps_eq_advanceBy w

end Follows

end Ending

/-- A computation that reads tokens from a window and may fail. -/
@[ext]
structure Parser (σ : Type) [TokenStream σ] (α : Type) where
  /-- The run from a window, with its steps. -/
  exec : Window σ → Ending σ α
  /-- All that happens to the window are those steps. -/
  follows (w : Window σ) : (exec w).Follows w

namespace Parser

open Window

variable {σ : Type} [TokenStream σ] {α β : Type}

/-- The result, and the window where the parser stopped. -/
def run (p : Parser σ α) (w : Window σ) : Except Diagnostic α × Window σ :=
  let ending := p.exec w
  (ending.result, ending.window)

/-- The steps of the run from a window. -/
def steps (p : Parser σ α) (w : Window σ) : List Step :=
  (p.exec w).steps

theorem run_of_exec {p : Parser σ α} {w w' : Window σ} {r : Except Diagnostic α} {ss : List Step}
    (h : p.exec w = ⟨r, w', ss⟩) : p.run w = (r, w') := by
  rw [run, h]

theorem exec_of_run {p : Parser σ α} {w w' : Window σ} {r : Except Diagnostic α}
    (h : p.run w = (r, w')) : p.exec w = ⟨r, w', p.steps w⟩ := by
  obtain ⟨rfl, rfl⟩ := Prod.mk.inj h
  rfl

/-- The window only moves forward. -/
theorem forward (p : Parser σ α) (w : Window σ) : ∃ n, (p.run w).2 = w.advanceBy n :=
  (p.follows w).forward

theorem forward_of_run {p : Parser σ α} {w w' : Window σ} {r : Except Diagnostic α}
    (h : p.run w = (r, w')) : ∃ n, w' = w.advanceBy n := by
  have hforward := p.forward w
  rwa [h] at hforward

theorem remaining_run_le (p : Parser σ α) (w : Window σ) :
    (p.run w).2.remaining ≤ w.remaining := by
  obtain ⟨n, hn⟩ := p.forward w
  rw [hn]
  exact w.remaining_advanceBy_le n

@[simp]
theorem depth_run (p : Parser σ α) (w : Window σ) : (p.run w).2.depth = w.depth :=
  (p.follows w).depth_eq

/-! ## Sequencing -/

/-- Runs `p`, and then what `f` makes of its result from where `p` stopped. -/
def andThen (p : Parser σ α) (f : α → Parser σ β) : Parser σ β where
  exec w :=
    match p.exec w with
    | ⟨.ok a, w', ss⟩ => ((f a).exec w').after ss
    | ⟨.error d, w', ss⟩ => ⟨.error d, w', ss⟩
  follows w := by
    have hp := p.follows w
    split
    · next a w' ss h =>
      rw [h] at hp
      exact hp.trans ((f a).follows w')
    · next d w' ss h =>
      rw [h] at hp
      exact hp.error

instance : Monad (Parser σ) where
  pure a := ⟨fun w => ⟨.ok a, w, []⟩, .still _⟩
  bind := andThen

@[simp]
theorem run_pure (a : α) (w : Window σ) : (pure a : Parser σ α).run w = (.ok a, w) := rfl

theorem exec_pure (a : α) (w : Window σ) : (pure a : Parser σ α).exec w = ⟨.ok a, w, []⟩ := rfl

theorem exec_bind (p : Parser σ α) (f : α → Parser σ β) (w : Window σ) :
    (p >>= f).exec w =
      match p.exec w with
      | ⟨.ok a, w', ss⟩ => ((f a).exec w').after ss
      | ⟨.error d, w', ss⟩ => ⟨.error d, w', ss⟩ := rfl

theorem exec_bind_of_ok {p : Parser σ α} {f : α → Parser σ β} {w w' : Window σ} {a : α}
    {ss : List Step} (h : p.exec w = ⟨.ok a, w', ss⟩) :
    (p >>= f).exec w = ((f a).exec w').after ss := by
  rw [exec_bind, h]

theorem exec_bind_of_error {p : Parser σ α} {f : α → Parser σ β} {w w' : Window σ}
    {d : Diagnostic} {ss : List Step} (h : p.exec w = ⟨.error d, w', ss⟩) :
    (p >>= f).exec w = ⟨.error d, w', ss⟩ := by
  rw [exec_bind, h]

theorem run_bind_of_ok {p : Parser σ α} {f : α → Parser σ β} {w w' : Window σ} {a : α}
    (h : p.run w = (.ok a, w')) : (p >>= f).run w = (f a).run w' := by
  rw [run, exec_bind_of_ok (exec_of_run h)]
  rfl

theorem run_bind_of_error {p : Parser σ α} {f : α → Parser σ β} {w w' : Window σ}
    {d : Diagnostic} (h : p.run w = (.error d, w')) : (p >>= f).run w = (.error d, w') :=
  run_of_exec (exec_bind_of_error (exec_of_run h))

theorem run_bind (p : Parser σ α) (f : α → Parser σ β) (w : Window σ) :
    (p >>= f).run w =
      match p.run w with
      | (.ok a, w') => (f a).run w'
      | (.error d, w') => (.error d, w') := by
  split
  · next h => exact run_bind_of_ok h
  · next h => exact run_bind_of_error h

theorem bind_pure_eq (p : Parser σ α) : (p >>= fun a => pure a) = p := by
  ext w : 2
  rw [exec_bind]
  split
  · next h => rw [h, exec_pure, Ending.after, List.append_nil]
  · next h => rw [h]

theorem bind_bind {γ : Type} (p : Parser σ α) (f : α → Parser σ β) (g : β → Parser σ γ) :
    (p >>= f >>= g) = p >>= fun a => f a >>= g := by
  ext w : 2
  rw [exec_bind, exec_bind, exec_bind]
  rcases p.exec w with ⟨_ | a, w', ss⟩
  · rfl
  · dsimp only
    rw [exec_bind]
    rcases (f a).exec w' with ⟨_ | b, w'', ss'⟩
    · rfl
    · exact Ending.after_append ss ss' _

instance : LawfulMonad (Parser σ) :=
  LawfulMonad.mk' (Parser σ) bind_pure_eq (fun _ _ => rfl) bind_bind

/-! ## Single steps -/

/-- The window as it stands. -/
def window : Parser σ (Window σ) where
  exec w := ⟨.ok w, w, []⟩
  follows w := .still _ w

/-- Takes the current token. -/
def take : Parser σ Token where
  exec w := ⟨.ok w.current, w.advance, [.advance]⟩
  follows w := .advance _ w

/-- Stops with a diagnostic. -/
def fail (d : Diagnostic) : Parser σ α where
  exec w := ⟨.error d, w, []⟩
  follows w := .still _ w

@[simp]
theorem run_window (w : Window σ) : (window : Parser σ (Window σ)).run w = (.ok w, w) := rfl

@[simp]
theorem run_take (w : Window σ) : (take : Parser σ Token).run w = (.ok w.current, w.advance) := rfl

@[simp]
theorem run_fail (d : Diagnostic) (w : Window σ) :
    (fail d : Parser σ α).run w = (.error d, w) := rfl

/-- Stops at the current token, where something else was needed. -/
def unexpected (expected : String) : Parser σ α := do
  let w ← window
  fail (w.unexpected expected)

/-- Takes the current token if it is of the kind, and otherwise stops with the diagnostic. -/
def expectOr (kind : Kind) (d : Diagnostic) : Parser σ Token := do
  let w ← window
  if w.current.kind = kind then take else fail d

/-- Takes the current token, which has to be of the kind. -/
def expect (kind : Kind) : Parser σ Token := do
  let w ← window
  expectOr kind (w.unexpected kind.describe)

/-- Checks that the statement ends here, without taking the token that ends it. -/
def endOfStatement : Parser σ Unit := do
  let w ← window
  if w.current.endsStatement then pure () else fail (w.unexpected Kind.endOfLine.describe)

/-! ## Nesting -/

/-- Runs `p` with one more expression open. -/
def nested (p : Parser σ α) : Parser σ α where
  exec w :=
    match w.enter with
    | .error d => ⟨.error d, w, []⟩
    | .ok w' => (p.exec w').nest
  follows w := by
    split
    · exact .still _ w
    · next w' h => exact (p.follows w').nest h

theorem exec_nested_of_error {p : Parser σ α} {w : Window σ} {d : Diagnostic}
    (h : w.enter = .error d) : (nested p).exec w = ⟨.error d, w, []⟩ := by
  simp only [nested, h]

theorem exec_nested_of_ok {p : Parser σ α} {w w' : Window σ} (h : w.enter = .ok w') :
    (nested p).exec w = (p.exec w').nest := by
  simp only [nested, h]

theorem run_nested_of_error {p : Parser σ α} {w : Window σ} {d : Diagnostic}
    (h : w.enter = .error d) : (nested p).run w = (.error d, w) :=
  run_of_exec (exec_nested_of_error h)

theorem run_nested_of_ok {p : Parser σ α} {w w' : Window σ} (h : w.enter = .ok w') :
    (nested p).run w = ((p.run w').1, (p.run w').2.leave) :=
  run_of_exec (exec_nested_of_ok h)

/-! ## Repetition -/

theorem remaining_run_advance_lt (p : Parser σ α) {w : Window σ}
    (h : w.current.kind ≠ .endOfFile) : (p.run w.advance).2.remaining < w.remaining :=
  Nat.lt_of_le_of_lt (p.remaining_run_le w.advance) (Window.remaining_advance_lt h)

/-- The run of `iterate`. -/
def iterateExec (offer : Window σ → Option β) (round : β → Token → α → Parser σ α) (a : α)
    (w : Window σ) : Ending σ α :=
  if h : w.current.kind = .endOfFile then ⟨.ok a, w, []⟩
  else
    match offer w with
    | none => ⟨.ok a, w, []⟩
    | some b =>
      match hr : (round b w.current a).exec w.advance with
      | ⟨.ok a', w', ss⟩ =>
        have : w'.remaining < w.remaining := by
          have := remaining_run_advance_lt (round b w.current a) h
          rwa [run_of_exec hr] at this
        (iterateExec offer round a' w').after (.advance :: ss)
      | ⟨.error d, w', ss⟩ => ⟨.error d, w', .advance :: ss⟩
termination_by w.remaining

theorem iterateExec_follows (offer : Window σ → Option β) (round : β → Token → α → Parser σ α)
    (a : α) (w : Window σ) : (iterateExec offer round a w).Follows w := by
  fun_induction iterateExec offer round a w with
  | case1 | case2 => exact .still _ _
  | case3 a w _ b _ a' w' ss hr _ ih =>
    have hround := (round b w.current a).follows w.advance
    rw [hr] at hround
    exact (hround.trans ih).of_advance
  | case4 a w _ b _ d w' ss hr =>
    have hround := (round b w.current a).follows w.advance
    rw [hr] at hround
    exact hround.of_advance

/-- Goes through rounds for as long as the window offers one.  Each round starts by taking the
current token and works on the value of the round before. -/
def iterate (offer : Window σ → Option β) (round : β → Token → α → Parser σ α) (a : α) :
    Parser σ α where
  exec := iterateExec offer round a
  follows := iterateExec_follows offer round a

/-- One round and the rounds after it. -/
theorem exec_iterate (offer : Window σ → Option β) (round : β → Token → α → Parser σ α) (a : α)
    (w : Window σ) :
    (iterate offer round a).exec w =
      if w.current.kind = .endOfFile then ⟨.ok a, w, []⟩
      else
        match offer w with
        | none => ⟨.ok a, w, []⟩
        | some b =>
          ((round b w.current a >>= iterate offer round).exec w.advance).after [.advance] := by
  show iterateExec offer round a w = _
  rw [iterateExec]
  split
  · rfl
  · split
    · rfl
    · split
      · next hr => rw [exec_bind_of_ok hr]; rfl
      · next hr => rw [exec_bind_of_error hr]; rfl

theorem run_iterate (offer : Window σ → Option β) (round : β → Token → α → Parser σ α) (a : α)
    (w : Window σ) :
    (iterate offer round a).run w =
      if w.current.kind = .endOfFile then (.ok a, w)
      else
        match offer w with
        | none => (.ok a, w)
        | some b => (round b w.current a >>= iterate offer round).run w.advance := by
  rw [run, exec_iterate]
  split
  · rfl
  · split <;> rfl

section Rounds

variable {offer : Window σ → Option β} {round : β → Token → α → Parser σ α} {a a' : α} {b : β}
  {w w' : Window σ}

theorem run_iterate_of_stop (h : w.current.kind = .endOfFile ∨ offer w = none) :
    (iterate offer round a).run w = (.ok a, w) := by
  rw [run_iterate]
  split
  · rfl
  · next hf => rw [h.resolve_left hf]

theorem exec_iterate_of_offer (hf : w.current.kind ≠ .endOfFile) (ho : offer w = some b) :
    (iterate offer round a).exec w =
      ((round b w.current a >>= iterate offer round).exec w.advance).after [.advance] := by
  rw [exec_iterate, if_neg hf, ho]

theorem run_iterate_of_offer (hf : w.current.kind ≠ .endOfFile) (ho : offer w = some b) :
    (iterate offer round a).run w =
      (round b w.current a >>= iterate offer round).run w.advance := by
  rw [run, exec_iterate_of_offer hf ho]
  rfl

theorem run_iterate_of_ok (hf : w.current.kind ≠ .endOfFile) (ho : offer w = some b)
    (hr : (round b w.current a).run w.advance = (.ok a', w')) :
    (iterate offer round a).run w = (iterate offer round a').run w' := by
  rw [run_iterate_of_offer hf ho, run_bind_of_ok hr]

theorem run_iterate_of_error {d : Diagnostic} (hf : w.current.kind ≠ .endOfFile)
    (ho : offer w = some b) (hr : (round b w.current a).run w.advance = (.error d, w')) :
    (iterate offer round a).run w = (.error d, w') := by
  rw [run_iterate_of_offer hf ho, run_bind_of_error hr]

/-- Induction along the rounds: none is left, or one succeeds and the others follow, or one
fails. -/
theorem iterate_induction (offer : Window σ → Option β) (round : β → Token → α → Parser σ α)
    {motive : α → Window σ → Prop}
    (stop : ∀ a w, w.current.kind = .endOfFile ∨ offer w = none → motive a w)
    (more : ∀ a w b a' w', w.current.kind ≠ .endOfFile → offer w = some b →
      (round b w.current a).run w.advance = (.ok a', w') → motive a' w' → motive a w)
    (failed : ∀ a w b d w', w.current.kind ≠ .endOfFile → offer w = some b →
      (round b w.current a).run w.advance = (.error d, w') → motive a w)
    (a : α) (w : Window σ) : motive a w := by
  fun_induction iterateExec offer round a w with
  | case1 a w hf => exact stop a w (.inl hf)
  | case2 a w _ ho => exact stop a w (.inr ho)
  | case3 a w hf b ho a' w' ss hr _ ih => exact more a w b a' w' hf ho (run_of_exec hr) ih
  | case4 a w hf b ho d w' ss hr => exact failed a w b d w' hf ho (run_of_exec hr)

end Rounds

/-- The run of `commaTail`. -/
def commaTailExec (item : Parser σ α) (w : Window σ) : Ending σ (List α) :=
  if h : w.current.kind = .symbol .comma then
    match hr : item.exec w.advance with
    | ⟨.ok a, w', ss⟩ =>
      have : w'.remaining < w.remaining := by
        have := remaining_run_advance_lt item (w := w) (by simp [h])
        rwa [run_of_exec hr] at this
      ((commaTailExec item w').map (a :: ·)).after (.advance :: ss)
    | ⟨.error d, w', ss⟩ => ⟨.error d, w', .advance :: ss⟩
  else ⟨.ok [], w, []⟩
termination_by w.remaining

theorem commaTailExec_follows (item : Parser σ α) (w : Window σ) :
    (commaTailExec item w).Follows w := by
  fun_induction commaTailExec item w with
  | case1 w _ a w' ss hr _ ih =>
    have hitem := item.follows w.advance
    rw [hr] at hitem
    exact (hitem.trans (ih.map _)).of_advance
  | case2 w _ d w' ss hr =>
    have hitem := item.follows w.advance
    rw [hr] at hitem
    exact hitem.error.of_advance
  | case3 => exact .still _ _

/-- Items with a comma before each of them, for as long as there is a comma. -/
def commaTail (item : Parser σ α) : Parser σ (List α) where
  exec := commaTailExec item
  follows := commaTailExec_follows item

/-- One item after a comma and the items after it. -/
theorem exec_commaTail (item : Parser σ α) (w : Window σ) :
    (commaTail item).exec w =
      if w.current.kind = .symbol .comma then
        ((do let a ← item
             let as ← commaTail item
             pure (a :: as)).exec w.advance).after [.advance]
      else ⟨.ok [], w, []⟩ := by
  show commaTailExec item w = _
  rw [commaTailExec]
  split
  · split
    · next a w' ss hr =>
      have htail : (do let as ← commaTail item; pure (a :: as)).exec w' =
          (commaTailExec item w').map (a :: ·) := by
        rw [exec_bind, show (commaTail item).exec w' = commaTailExec item w' from rfl]
        rcases commaTailExec item w' with ⟨_ | as, w'', ss'⟩
        · rfl
        · simp only [exec_pure, Ending.after, List.append_nil]
          rfl
      rw [exec_bind_of_ok hr, htail]
      rfl
    · next hr => rw [exec_bind_of_error hr]; rfl
  · rfl

theorem run_commaTail (item : Parser σ α) (w : Window σ) :
    (commaTail item).run w =
      if w.current.kind = .symbol .comma then
        (do let a ← item
            let as ← commaTail item
            pure (a :: as)).run w.advance
      else (.ok [], w) := by
  rw [run, exec_commaTail]
  split <;> rfl

/-- Induction along the items after commas: there is none left, or one is read and the others
follow, or one fails. -/
theorem commaTail_induction (item : Parser σ α) {motive : Window σ → Prop}
    (stop : ∀ w, w.current.kind ≠ .symbol .comma → motive w)
    (more : ∀ w a w', w.current.kind = .symbol .comma → item.run w.advance = (.ok a, w') →
      motive w' → motive w)
    (failed : ∀ w d w', w.current.kind = .symbol .comma →
      item.run w.advance = (.error d, w') → motive w)
    (w : Window σ) : motive w := by
  fun_induction commaTailExec item w with
  | case1 w hc a w' ss hr _ ih => exact more w a w' hc (run_of_exec hr) ih
  | case2 w hc d w' ss hr => exact failed w d w' hc (run_of_exec hr)
  | case3 w hc => exact stop w hc

/-- One or more items with commas between them. -/
def commaSeparated (item : Parser σ α) : Parser σ (List α) := do
  let first ← item
  let rest ← commaTail item
  pure (first :: rest)

end Parser

end Pseudolang
