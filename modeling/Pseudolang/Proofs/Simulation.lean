import Mathlib.Data.List.Forall2
import Pseudolang.Proofs.Lookahead
import Pseudolang.Proofs.Relabelling

/-!
# Runs side by side

How a run of a parser ends is settled at one token: on success the first that it did not take, on
failure the one that the diagnostic points at.  What comes after that token plays no part, and
neither do the positions of the tokens before it, but for being copied into the result.

`Parser.Tracks l r V p q w v` says this of the run of `p` from `w`, with the run of `q` from `v` to
compare it to.  The run of `p` is settled at some token ahead of `w`, and no token that it took is a
barrier, that is an end of statement or an illegal token.  Where the tokens from `v` on are the
same up to and including that token, but for a relabelling, `q` ends in the same way there: in a
result related by `V`, or in a diagnostic with the same cause at the same token.

Runs that track each other compose along the parser (`Parser.Tracks.bind`), so that the statement
is proved piece by piece; it is stated for one pair of windows because what a piece may take depends
on what was seen before it.
-/

namespace Pseudolang

variable {σ τ : Type} [TokenStream σ] [TokenStream τ]

/-! ## Tokens ahead -/

namespace Window

/-- The token so many places after the current one. -/
def ahead (w : Window σ) (j : ℕ) : Token :=
  (w.advanceBy j).current

@[simp] lemma ahead_zero (w : Window σ) : w.ahead 0 = w.current := rfl

@[simp] lemma ahead_advanceBy (w : Window σ) (m j : ℕ) :
    (w.advanceBy m).ahead j = w.ahead (m + j) := by
  rw [ahead, ahead, advanceBy_add]

@[simp] lemma ahead_advance (w : Window σ) (j : ℕ) : w.advance.ahead j = w.ahead (j + 1) := by
  rw [Nat.add_comm]
  exact ahead_advanceBy w 1 j

@[simp] lemma ahead_depth (w : Window σ) (d j : ℕ) :
    ({ w with depth := d } : Window σ).ahead j = w.ahead j := by
  rw [ahead, advanceBy_depth]
  rfl

/-- The first `n` tokens from the two windows on are the same but for the relabelling, and as many
expressions are open at both. -/
structure Agree (l r : Token → Token) (n : ℕ) (w : Window σ) (v : Window τ) : Prop where
  depth : w.depth = v.depth
  ahead : ∀ j < n, l (w.ahead j) = r (v.ahead j)

namespace Agree

variable {l r : Token → Token} {m n : ℕ} {w : Window σ} {v : Window τ}

lemma mono (h : Agree l r n w v) (hmn : m ≤ n) : Agree l r m w v :=
  ⟨h.depth, fun j hj => h.ahead j (by omega)⟩

/-- What agrees after moving on is what is left of the tokens. -/
lemma advanceBy (h : Agree l r (m + n) w v) : Agree l r n (w.advanceBy m) (v.advanceBy m) where
  depth := by simpa using h.depth
  ahead j hj := by simpa using h.ahead (m + j) (by omega)

lemma current (h : Agree l r (n + 1) w v) : l w.current = r v.current :=
  h.ahead 0 (by omega)

lemma peek (h : Agree l r (n + 2) w v) : l w.peek = r v.peek :=
  h.ahead 1 (by omega)

end Agree

end Window

/-! ## Barriers -/

namespace Token

/-- No parser takes the token: it ends a statement or is illegal, and it is no literal. -/
def Barrier (t : Token) : Prop :=
  t.isLiteral = false ∧ (t.endsStatement ∨ t.kind = .illegal)

lemma not_barrier_of_kind {t : Token} {k : Kind} (h : t.kind = k) (hi : k ≠ .illegal)
    (he : ¬k.endsStatement) : ¬t.Barrier := by
  rintro ⟨-, hends | hillegal⟩
  · rw [endsStatement, h] at hends
    exact he hends
  · exact hi (h.symm.trans hillegal)

lemma not_barrier_of_isLiteral {t : Token} (h : t.isLiteral) : ¬t.Barrier := by
  rintro ⟨hl, -⟩
  rw [hl] at h
  cases h

lemma not_barrier_of_isAtom {t : Token} (h : t.isAtom) : ¬t.Barrier := by
  rcases (by simpa [isAtom] using h : t.kind = .identifier ∨ t.isLiteral) with hi | hl
  · exact not_barrier_of_kind hi (by decide) (by decide)
  · exact not_barrier_of_isLiteral hl

end Token

lemma Window.not_barrier_of_lt_one {w : Window σ} (h : ¬w.current.Barrier) :
    ∀ j < 1, ¬(w.ahead j).Barrier := by
  intro j hj
  obtain rfl : j = 0 := by omega
  exact h

/-! ## What is said of corresponding tokens -/

namespace Token

variable {t u : Token}

lemma describe_eq_of_unplaced (h : t.unplaced = u.unplaced) : t.describe = u.describe := by
  obtain ⟨hkind, htext, -, -⟩ := unplaced_eq_iff.1 h
  rw [describe, describe, hkind, htext]

lemma isAtom_eq_of_unplaced (h : t.unplaced = u.unplaced) : t.isAtom = u.isAtom := by
  rw [← unplaced_isAtom t, h, unplaced_isAtom]

lemma endsStatement_eq_of_unplaced (h : t.unplaced = u.unplaced) :
    t.endsStatement = u.endsStatement := by
  rw [endsStatement, endsStatement, kind_eq_of_unplaced h]

end Token

namespace Window

variable {l r : Token → Token} {w : Window σ} {v : Window τ}

lemma Agree.unplaced_current (hr : Token.Relabels l r) {n : ℕ} (ha : Agree l r (n + 1) w v) :
    w.current.unplaced = v.current.unplaced :=
  hr.unplaced_eq ha.current

/-- The current token has a counterpart, which is the current token of the other window where they
agree. -/
lemma exists_counterpart (hr : Token.Relabels l r) (w : Window σ) (v : Window τ) :
    ∃ u, l w.current = r u ∧ (Agree l r 1 w v → v.current = u) := by
  by_cases ha : Agree l r 1 w v
  · exact ⟨v.current, ha.current, fun _ => rfl⟩
  · obtain ⟨u, hu⟩ := hr.total w.current
    exact ⟨u, hu, fun ha' => absurd ha' ha⟩

lemma Agree.kind_current (hr : Token.Relabels l r) {n : ℕ} (ha : Agree l r (n + 1) w v) :
    w.current.kind = v.current.kind :=
  Token.kind_eq_of_unplaced (ha.unplaced_current hr)

/-- The diagnostics at the current token have the same cause where the tokens correspond. -/
lemma Agree.unexpected_eq (hr : Token.Relabels l r) (ha : Agree l r 1 w v) (expected : String) :
    v.unexpected expected = ⟨(w.unexpected expected).cause, v.current.position⟩ := by
  obtain ⟨-, htext, -, hfault⟩ := Token.unplaced_eq_iff.1 (ha.unplaced_current hr)
  rw [unexpected, unexpected, htext, hfault,
    Token.describe_eq_of_unplaced (ha.unplaced_current hr)]

lemma Agree.tooDeep_eq (hr : Token.Relabels l r) (ha : Agree l r 1 w v) :
    v.tooDeep = ⟨w.tooDeep.cause, v.current.position⟩ := by
  rw [tooDeep, tooDeep, Token.describe_eq_of_unplaced (ha.unplaced_current hr)]

lemma Agree.notStatement_eq (hr : Token.Relabels l r) (ha : Agree l r 1 w v) :
    v.notStatement = ⟨w.notStatement.cause, v.current.position⟩ := by
  obtain ⟨-, -, -, hfault⟩ := Token.unplaced_eq_iff.1 (ha.unplaced_current hr)
  rw [notStatement, notStatement, hfault,
    Token.describe_eq_of_unplaced (ha.unplaced_current hr)]
  split
  · exact ha.unexpected_eq hr _
  · rfl

omit [TokenStream σ] in
lemma notStatement_position (w : Window σ) : w.notStatement.position = w.current.position := by
  rw [notStatement]
  split <;> rfl

end Window

/-! ## Runs that track each other -/

namespace Parser

variable {α β γ δ : Type} {l r : Token → Token}

/-- The run of `p` from `w` is settled at the `k`-th token ahead, and where the tokens from `v` on
agree up to that token the run of `q` from `v` ends in the same way. -/
inductive Tracks (l r : Token → Token) (V : α → β → Prop) (p : Parser σ α) (q : Parser τ β)
    (w : Window σ) (v : Window τ) : Prop
  /-- The tokens before it are taken. -/
  | ok (k : ℕ) (a : α) (run : p.run w = (.ok a, w.advanceBy k))
      (clear : ∀ j < k, ¬(w.ahead j).Barrier)
      (follow : Window.Agree l r (k + 1) w v → ∃ b, q.run v = (.ok b, v.advanceBy k) ∧ V a b)
  /-- The diagnostic points at it; it may itself have been taken. -/
  | error (k m : ℕ) (cause : Cause)
      (run : p.run w = (.error ⟨cause, (w.ahead k).position⟩, w.advanceBy m))
      (le : k ≤ m) (le_succ : m ≤ k + 1) (clear : ∀ j < m, ¬(w.ahead j).Barrier)
      (follow : Window.Agree l r (k + 1) w v →
        q.run v = (.error ⟨cause, (v.ahead k).position⟩, v.advanceBy m))

/-- Every list has a counterpart if every item has. -/
lemma exists_forall₂ {V : α → β → Prop} (total : ∀ a, ∃ b, V a b) (as : List α) :
    ∃ bs, List.Forall₂ V as bs := by
  choose f hf using total
  exact ⟨as.map f, List.forall₂_map_right_iff.2 (List.forall₂_same.2 fun a _ => hf a)⟩

namespace Tracks

variable {V : α → β → Prop} {V' : γ → δ → Prop} {p p' : Parser σ α} {q q' : Parser τ β}
  {f : α → Parser σ γ} {g : β → Parser τ δ} {w : Window σ} {v : Window τ}

/-! ### Sequencing -/

/-- A run that goes on from `k` tokens further on as another one does. -/
lemma after (k : ℕ) (h : Tracks l r V p' q' (w.advanceBy k) (v.advanceBy k))
    (clear : ∀ j < k, ¬(w.ahead j).Barrier) (hp : p.run w = p'.run (w.advanceBy k))
    (hq : Window.Agree l r (k + 1) w v → q.run v = q'.run (v.advanceBy k)) :
    Tracks l r V p q w v := by
  have hclear : ∀ n, (∀ j < n, ¬((w.advanceBy k).ahead j).Barrier) →
      ∀ j < k + n, ¬(w.ahead j).Barrier := by
    intro n hn j hj
    by_cases hjk : j < k
    · exact clear j hjk
    · have := hn (j - k) (by omega)
      rwa [Window.ahead_advanceBy, show k + (j - k) = j by omega] at this
  cases h with
  | ok n a hrun hn hfollow =>
    refine .ok (k + n) a ?_ (hclear n hn) fun ha => ?_
    · rw [hp, hrun, Window.advanceBy_add]
    · obtain ⟨b, hb, hV⟩ := hfollow (Window.Agree.advanceBy ha)
      exact ⟨b, by rw [hq (ha.mono (by omega)), hb, Window.advanceBy_add], hV⟩
  | error n m cause hrun hle hle' hm hfollow =>
    refine .error (k + n) (k + m) cause ?_ (by omega) (by omega) (hclear m hm) fun ha => ?_
    · rw [hp, hrun, Window.ahead_advanceBy, Window.advanceBy_add]
    · rw [hq (ha.mono (by omega)), hfollow (Window.Agree.advanceBy ha), Window.ahead_advanceBy,
        Window.advanceBy_add]

/-- The parser on the right may be changed where the current tokens agree. -/
lemma congr_right (h : Tracks l r V p q w v)
    (hq : Window.Agree l r 1 w v → q'.run v = q.run v) : Tracks l r V p q' w v :=
  after 0 h (by simp) rfl hq

/-- Runs that track each other do so when continued by runs that do.  Where the first parts do not
agree the continuation still has to be settled, with any counterpart of the first result. -/
lemma bind (h : Tracks l r V p q w v) (total : ∀ a, ∃ b, V a b)
    (hf : ∀ a b w' v', p.run w = (.ok a, w') → V a b → Tracks l r V' (f a) (g b) w' v') :
    Tracks l r V' (p >>= f) (q >>= g) w v := by
  cases h with
  | error k m cause hrun hle hle' hclear hfollow =>
    exact .error k m cause (run_bind_of_error hrun) hle hle' hclear fun ha =>
      run_bind_of_error (hfollow ha)
  | ok k a hrun hclear hfollow =>
    obtain ⟨b, hV, hb⟩ : ∃ b, V a b ∧
        (Window.Agree l r (k + 1) w v → q.run v = (.ok b, v.advanceBy k)) := by
      by_cases ha : Window.Agree l r (k + 1) w v
      · obtain ⟨b, hb, hV⟩ := hfollow ha
        exact ⟨b, hV, fun _ => hb⟩
      · obtain ⟨b, hV⟩ := total a
        exact ⟨b, hV, fun ha' => absurd ha' ha⟩
    exact after k (hf a b _ _ hrun hV) hclear (run_bind_of_ok hrun) fun ha =>
      run_bind_of_ok (hb ha)

lemma pure {a : α} {b : β} (h : V a b) :
    Tracks l r V (Pure.pure a : Parser σ α) (Pure.pure b : Parser τ β) w v :=
  .ok 0 a rfl (by simp) fun _ => ⟨b, rfl, h⟩

lemma window {f : Window σ → Parser σ α} {g : Window τ → Parser τ β}
    (h : Tracks l r V (f w) (g v) w v) :
    Tracks l r V (Parser.window >>= f) (Parser.window >>= g) w v :=
  after 0 h (by simp) rfl fun _ => rfl

/-- A choice that the current token decides is made in the same way. -/
lemma ite {c d : Prop} [Decidable c] [Decidable d] (hcd : Window.Agree l r 1 w v → (c ↔ d))
    (ht : c → Tracks l r V p q w v) (he : ¬c → Tracks l r V p' q' w v) :
    Tracks l r V (if c then p else p') (if d then q else q') w v := by
  by_cases hc : c
  · rw [if_pos hc]
    exact (ht hc).congr_right fun ha => by rw [if_pos ((hcd ha).1 hc)]
  · rw [if_neg hc]
    exact (he hc).congr_right fun ha => by rw [if_neg fun hd => hc ((hcd ha).2 hd)]

/-! ### Single steps -/

lemma take (h : ¬w.current.Barrier) :
    Tracks l r (fun t u => l t = r u) (take : Parser σ Token) (take : Parser τ Token) w v :=
  .ok 1 w.current rfl (Window.not_barrier_of_lt_one h) fun ha => ⟨v.current, rfl, ha.current⟩

/-- Both runs stop at the current token for the same cause. -/
lemma fail {d d' : Diagnostic} (h : d.position = w.current.position)
    (h' : Window.Agree l r 1 w v → d' = ⟨d.cause, v.current.position⟩) :
    Tracks l r V (fail d : Parser σ α) (fail d' : Parser τ β) w v := by
  refine .error 0 0 d.cause ?_ le_rfl (by omega) (by simp) fun ha => ?_
  · rw [Window.ahead_zero, ← h]
    rfl
  · rw [h' ha]
    rfl

lemma unexpected (hr : Token.Relabels l r) (expected : String) :
    Tracks l r V (unexpected expected : Parser σ α) (unexpected expected : Parser τ β) w v :=
  window (fail rfl fun ha => ha.unexpected_eq hr expected)

/-- A token of a given kind is taken on both sides, or the same diagnostic is given. -/
lemma expectOr (hr : Token.Relabels l r) {kind : Kind} {d d' : Diagnostic}
    (hi : kind ≠ .illegal) (he : ¬kind.endsStatement) (h : d.position = w.current.position)
    (h' : Window.Agree l r 1 w v → d' = ⟨d.cause, v.current.position⟩) :
    Tracks l r (fun t u => l t = r u) (expectOr kind d : Parser σ Token)
      (expectOr kind d' : Parser τ Token) w v := by
  refine window (ite (fun ha => by rw [ha.kind_current hr]) (fun hk => ?_) fun _ => fail h h')
  exact take (Token.not_barrier_of_kind hk hi he)

lemma expect (hr : Token.Relabels l r) {kind : Kind} (hi : kind ≠ .illegal)
    (he : ¬kind.endsStatement) :
    Tracks l r (fun t u => l t = r u) (expect kind : Parser σ Token)
      (expect kind : Parser τ Token) w v :=
  window (expectOr hr hi he rfl fun ha => ha.unexpected_eq hr _)

lemma endOfStatement (hr : Token.Relabels l r) :
    Tracks l r (fun _ _ => True) (endOfStatement : Parser σ Unit) (endOfStatement : Parser τ Unit)
      w v := by
  refine window (ite (fun ha => ?_) (fun _ => pure trivial) fun _ => ?_)
  · rw [Token.endsStatement_eq_of_unplaced (ha.unplaced_current hr)]
  · exact fail rfl fun ha => ha.unexpected_eq hr _

/-! ### Nesting -/

/-- Opening an expression tracks: the number of open expressions is part of what agrees. -/
lemma nested (hr : Token.Relabels l r)
    (h : Tracks l r V p q { w with depth := w.depth + 1 } { v with depth := v.depth + 1 }) :
    Tracks l r V (nested p) (nested q) w v := by
  by_cases hw : Expr.maxNesting ≤ w.depth
  · have he : w.enter = .error w.tooDeep := if_pos hw
    refine .error 0 0 w.tooDeep.cause (run_nested_of_error he) le_rfl (by omega) (by simp)
      fun ha => ?_
    have he' : v.enter = .error v.tooDeep := if_pos (ha.depth ▸ hw)
    rw [run_nested_of_error he', ha.tooDeep_eq hr]
    rfl
  · have he : w.enter = .ok { w with depth := w.depth + 1 } := if_neg hw
    have henter : ∀ {n}, Window.Agree l r n w v →
        v.enter = .ok { v with depth := v.depth + 1 } ∧
          Window.Agree l r n { w with depth := w.depth + 1 } { v with depth := v.depth + 1 } :=
      fun ha => ⟨if_neg (ha.depth ▸ hw), by simp [ha.depth], by simpa using ha.ahead⟩
    cases h with
    | ok k a hrun hclear hfollow =>
      refine .ok k a ?_ (by simpa using hclear) fun ha => ?_
      · rw [run_nested_of_ok he, hrun, Window.leave_advanceBy_of_enter he]
      · obtain ⟨he', ha'⟩ := henter ha
        obtain ⟨b, hb, hV⟩ := hfollow ha'
        exact ⟨b, by rw [run_nested_of_ok he', hb, Window.leave_advanceBy_of_enter he'], hV⟩
    | error k m cause hrun hle hle' hclear hfollow =>
      refine .error k m cause ?_ hle hle' (by simpa using hclear) fun ha => ?_
      · rw [run_nested_of_ok he, hrun, Window.leave_advanceBy_of_enter he, Window.ahead_depth]
      · obtain ⟨he', ha'⟩ := henter ha
        rw [run_nested_of_ok he', hfollow ha', Window.leave_advanceBy_of_enter he',
          Window.ahead_depth]

/-! ### Lists -/

/-- Items with commas before them: the induction is on what is left to read on the left. -/
lemma commaTail (hr : Token.Relabels l r) (total : ∀ a, ∃ b, V a b)
    (h : ∀ (w : Window σ) (v : Window τ), Tracks l r V p q w v) (w : Window σ) (v : Window τ) :
    Tracks l r (List.Forall₂ V) (commaTail p) (commaTail q) w v := by
  by_cases hc : w.current.kind = .symbol .comma
  · have hclear : ¬w.current.Barrier := Token.not_barrier_of_kind hc (by decide) (by decide)
    have hitem : Tracks l r (List.Forall₂ V)
        (p >>= fun a => Parser.commaTail p >>= fun as => Pure.pure (a :: as))
        (q >>= fun b => Parser.commaTail q >>= fun bs => Pure.pure (b :: bs))
        w.advance v.advance := by
      refine (h w.advance v.advance).bind total fun a b w' v' hrun hab => ?_
      have hlt : w'.remaining < w.remaining := by
        have := remaining_run_advance_lt p (w := w) (by simp [hc])
        rwa [hrun] at this
      refine (commaTail hr total h w' v').bind (exists_forall₂ total) fun as bs w₂ v₂ _ hs => ?_
      exact pure (.cons hab hs)
    refine after 1 hitem (Window.not_barrier_of_lt_one hclear) ?_ fun ha => ?_
    · rw [run_commaTail, if_pos hc]
      rfl
    · rw [run_commaTail, if_pos ((ha.kind_current hr) ▸ hc)]
      rfl
  · refine .ok 0 [] ?_ (by simp) fun ha => ⟨[], ?_, .nil⟩
    · rw [run_commaTail, if_neg hc]
      rfl
    · rw [run_commaTail, if_neg ((ha.kind_current hr) ▸ hc)]
      rfl
termination_by w.remaining

lemma commaSeparated (hr : Token.Relabels l r) (total : ∀ a, ∃ b, V a b)
    (h : ∀ (w : Window σ) (v : Window τ), Tracks l r V p q w v) (w : Window σ) (v : Window τ) :
    Tracks l r (List.Forall₂ V) (commaSeparated p) (commaSeparated q) w v := by
  refine (h w v).bind total fun a b w' v' _ hab => ?_
  refine (commaTail hr total h w' v').bind (exists_forall₂ total) fun as bs w₂ v₂ _ hs => ?_
  exact pure (.cons hab hs)

end Tracks

end Parser

end Pseudolang
