import Mathlib.Data.List.TakeWhile
import Pseudolang.Grammar.Program

/-!
# The tokens ahead of a window

A window shows two tokens, but a parser that runs on it sees as many as it moves past.
`Window.Shows w ts` says that the tokens met from `w` on, the current one first, begin with the
list `ts`.  It is the form in which this library speaks about what a parser has read: moving on by
`ts.length` tokens gets past exactly `ts` (`Window.shows_append`).

The window at the start of a stream shows the tokens of that stream (`Window.shows_tokens`), so for
a source text it shows `tokenize source`.  What stands before the first end of statement is
`lineTokens source`, and it is pinned down by being shown in front of such an end
(`Window.Shows.eq_of_ends`).

The last section inverts runs.  A run of a sequence that succeeds splits into two
(`Parser.run_bind_eq_ok`), and the two loops of the library are used through the rules
`Parser.iterate_preserves` and `Parser.commaTail_induct`, which hide how the loops end.
-/

namespace Pseudolang

namespace Window

variable {σ : Type} [TokenStream σ]

/-! ## What a window shows -/

/-- The tokens met from the window on, the current one first, begin with the list. -/
def Shows : Window σ → List Token → Prop
  | _, [] => True
  | w, t :: ts => w.current = t ∧ w.advance.Shows ts

@[simp] lemma shows_nil (w : Window σ) : w.Shows [] := trivial

@[simp] lemma shows_cons (w : Window σ) (t : Token) (ts : List Token) :
    w.Shows (t :: ts) ↔ w.current = t ∧ w.advance.Shows ts := Iff.rfl

/-- What is shown after some tokens is what the window shows after moving past them. -/
lemma shows_append (w : Window σ) (ts us : List Token) :
    w.Shows (ts ++ us) ↔ w.Shows ts ∧ (w.advanceBy ts.length).Shows us := by
  induction ts generalizing w with
  | nil => simp [advanceBy]
  | cons t ts ih => simp [advanceBy, ih, and_assoc]

/-- The number of open expressions plays no part in what is shown. -/
@[simp] lemma shows_depth (w : Window σ) (d : ℕ) (ts : List Token) :
    ({ w with depth := d } : Window σ).Shows ts ↔ w.Shows ts := by
  induction ts generalizing w with
  | nil => simp
  | cons t ts ih => exact and_congr_right fun _ => ih w.advance

lemma advanceBy_succ (n : ℕ) (w : Window σ) : w.advanceBy (n + 1) = (w.advanceBy n).advance := by
  rw [advanceBy_add]
  rfl

/-! ## The window at the start of a stream -/

/-- Moving on from the start of a stream is starting one token later. -/
lemma advance_ofStream (s : σ) : (ofStream s).advance = ofStream (TokenStream.next s).2 := rfl

lemma shows_tokens (s : σ) : (ofStream s).Shows (TokenStream.tokens s) := by
  fun_induction TokenStream.tokens s with
  | case1 s _ => exact ⟨rfl, trivial⟩
  | case2 s _ _ ih => exact ⟨rfl, ih⟩

/-- It shows the tokens up to any one of them. -/
lemma shows_front {s : σ} {ts us : List Token} {t : Token}
    (h : TokenStream.tokens s = ts ++ t :: us) : (ofStream s).Shows (ts ++ [t]) := by
  have hshows := shows_tokens s
  rw [h, ← List.singleton_append, ← List.append_assoc, shows_append] at hshows
  exact hshows.1

/-- What every token of a stream satisfies is satisfied by the tokens that are shown. -/
lemma Shows.forall_mem {P : Token → Prop} (hP : ∀ s : σ, P (TokenStream.next s).1) {s : σ}
    {ts : List Token} (h : (ofStream s).Shows ts) : ∀ t ∈ ts, P t := by
  induction ts generalizing s with
  | nil => simp
  | cons t ts ih =>
    obtain ⟨ht, hts⟩ := h
    intro u hu
    rcases List.mem_cons.1 hu with rfl | hu
    · exact ht ▸ hP s
    · exact ih (advance_ofStream s ▸ hts) u hu

/-! ## The first line -/

/-- Two lists that are shown in front of an end of statement, and hold none, are the same. -/
lemma Shows.eq_of_ends {w : Window σ} {ts us : List Token} {t u : Token}
    (hts : w.Shows (ts ++ [t])) (hus : w.Shows (us ++ [u]))
    (ht : t.endsStatement) (hu : u.endsStatement)
    (hnt : ∀ x ∈ ts, ¬x.endsStatement) (hnu : ∀ x ∈ us, ¬x.endsStatement) : ts = us := by
  induction ts generalizing w us with
  | nil =>
    cases us with
    | nil => rfl
    | cons x us =>
      have hx : t = x := hts.1.symm.trans hus.1
      exact absurd (hx ▸ ht) (hnu x (List.mem_cons_self ..))
  | cons x ts ih =>
    cases us with
    | nil =>
      have hx : u = x := hus.1.symm.trans hts.1
      exact absurd (hx ▸ hu) (hnt x (List.mem_cons_self ..))
    | cons y us =>
      have hxy : x = y := hts.1.symm.trans hus.1
      have hrest : ts = us := ih hts.2 hus.2
        (fun z hz => hnt z (List.mem_cons_of_mem _ hz))
        (fun z hz => hnu z (List.mem_cons_of_mem _ hz))
      rw [hxy, hrest]

end Window

namespace TokenStream

variable {σ : Type} [TokenStream σ]

/-- The tokens of the stream before its first end of statement. -/
def line (s : σ) : List Token :=
  (tokens s).takeWhile (!·.endsStatement)

lemma not_endsStatement_of_mem_line {s : σ} {t : Token} (h : t ∈ line s) : ¬t.endsStatement := by
  have := List.mem_takeWhile_imp h
  simpa using this

lemma exists_endsStatement_mem_tokens (s : σ) : ∃ t ∈ tokens s, t.endsStatement := by
  fun_induction tokens s with
  | case1 s h => exact ⟨_, List.mem_singleton_self _, by simp [Token.endsStatement, h,
      Kind.endsStatement]⟩
  | case2 s _ _ ih =>
    obtain ⟨t, ht, he⟩ := ih
    exact ⟨t, List.mem_cons_of_mem _ ht, he⟩

/-- The first line is followed by a token that ends it. -/
lemma exists_line_append (s : σ) :
    ∃ t ts, t.endsStatement ∧ tokens s = line s ++ t :: ts := by
  obtain ⟨u, hu, he⟩ := exists_endsStatement_mem_tokens s
  cases h : (tokens s).dropWhile (!·.endsStatement) with
  | nil =>
    have hall := List.dropWhile_eq_nil_iff.1 h u hu
    simp [he] at hall
  | cons t ts =>
    have hhead := List.head_dropWhile_not (fun x : Token => !x.endsStatement)
      (l := tokens s) (by simp [h])
    refine ⟨t, ts, ?_, ?_⟩
    · simpa [h] using hhead
    · rw [← h]
      exact List.takeWhile_append_dropWhile.symm

lemma exists_shows_line (s : σ) :
    ∃ t, t.endsStatement ∧ (Window.ofStream s).Shows (line s ++ [t]) := by
  obtain ⟨t, ts, ht, heq⟩ := exists_line_append s
  exact ⟨t, ht, Window.shows_front heq⟩

/-! ## Runs of a stream -/

/-- The stream yields the tokens, one after the other, and then goes on as `s'`. -/
def Yields : σ → List Token → σ → Prop
  | s, [], s' => s = s'
  | s, t :: ts, s' => (next s).1 = t ∧ Yields (next s).2 ts s'

lemma yields_next (s : σ) : Yields s [(next s).1] (next s).2 := ⟨rfl, rfl⟩

lemma Yields.append {s s' s'' : σ} {ts us : List Token} (h : Yields s ts s')
    (h' : Yields s' us s'') : Yields s (ts ++ us) s'' := by
  induction ts generalizing s with
  | nil =>
    obtain rfl : s = s' := h
    exact h'
  | cons t ts ih => exact ⟨h.1, ih h.2⟩

lemma Yields.shows {s s' : σ} {ts : List Token} (h : Yields s ts s') :
    (Window.ofStream s).Shows ts := by
  induction ts generalizing s with
  | nil => trivial
  | cons t ts ih => exact ⟨h.1, ih h.2⟩

end TokenStream

/-- The tokens of a source text before its first end of line or of file. -/
def lineTokens (source : String) : List Token :=
  TokenStream.line (Cursor.ofSource source)

namespace Parser

variable {σ : Type} [TokenStream σ] {α β : Type}

/-! ## Inverting runs -/

/-- A sequence succeeds when its first part does and then the second, from where the first one
stopped. -/
lemma run_bind_eq_ok {p : Parser σ α} {f : α → Parser σ β} {w w'' : Window σ} {b : β} :
    (p >>= f).run w = (.ok b, w'') ↔
      ∃ a w', p.run w = (.ok a, w') ∧ (f a).run w' = (.ok b, w'') := by
  rw [run_bind]
  constructor
  · intro h
    split at h
    · next a w' hp => exact ⟨a, w', hp, h⟩
    · cases h
  · rintro ⟨a, w', hp, hf⟩
    rw [hp]
    exact hf

@[simp] lemma run_pure_eq_ok {a b : α} {w w' : Window σ} :
    (pure a : Parser σ α).run w = (.ok b, w') ↔ a = b ∧ w = w' := by
  simp [run_pure]

@[simp] lemma run_window_bind (f : Window σ → Parser σ α) (w : Window σ) :
    (window >>= f).run w = (f w).run w := rfl

@[simp] lemma run_take_bind (f : Token → Parser σ α) (w : Window σ) :
    (take >>= f).run w = (f w.current).run w.advance := rfl

lemma run_expectOr (kind : Kind) (d : Diagnostic) (w : Window σ) :
    (expectOr kind d : Parser σ Token).run w =
      if w.current.kind = kind then (.ok w.current, w.advance) else (.error d, w) := by
  rw [expectOr, run_window_bind]
  split <;> rfl

lemma run_expect (kind : Kind) (w : Window σ) :
    (expect kind : Parser σ Token).run w =
      if w.current.kind = kind then (.ok w.current, w.advance)
      else (.error (w.unexpected kind.describe), w) := by
  rw [expect, run_window_bind, run_expectOr]

lemma run_expectOr_eq_ok {kind : Kind} {d : Diagnostic} {w w' : Window σ} {t : Token} :
    (expectOr kind d : Parser σ Token).run w = (.ok t, w') ↔
      w.current.kind = kind ∧ w.current = t ∧ w.advance = w' := by
  rw [run_expectOr]
  split <;> simp [*]

lemma run_expect_eq_ok {kind : Kind} {w w' : Window σ} {t : Token} :
    (expect kind : Parser σ Token).run w = (.ok t, w') ↔
      w.current.kind = kind ∧ w.current = t ∧ w.advance = w' :=
  run_expectOr_eq_ok

/-- What the loop of `iterate` keeps from round to round holds where it ends, and there no further
round is offered. -/
lemma iterate_preserves {offer : Window σ → Option β} {round : β → Token → α → Parser σ α}
    {I : α → Window σ → Prop}
    (step : ∀ a w b a' w', I a w → offer w = some b →
      (round b w.current a).run w.advance = (.ok a', w') → I a' w')
    {a a' : α} {w w' : Window σ} (h : (iterate offer round a).run w = (.ok a', w')) (hI : I a w) :
    I a' w' ∧ (w'.current.kind = .endOfFile ∨ offer w' = none) := by
  induction a, w using iterate_induction offer round with
  | stop a w hstop =>
    rw [run_iterate_of_stop hstop] at h
    obtain ⟨rfl, rfl⟩ : a = a' ∧ w = w' := by simpa using h
    exact ⟨hI, hstop⟩
  | more a w b a₁ w₁ hf ho hr ih =>
    rw [run_iterate_of_ok hf ho hr] at h
    exact ih h (step a w b a₁ w₁ hI ho hr)
  | failed a w b d w₁ hf ho hr =>
    rw [run_iterate_of_error hf ho hr] at h
    cases h

/-- A run of `commaTail` that succeeds ends where no comma stands, or takes a comma and an item and
goes on. -/
lemma commaTail_induct {item : Parser σ α} {motive : Window σ → List α → Window σ → Prop}
    (done : ∀ w, w.current.kind ≠ .symbol .comma → motive w [] w)
    (more : ∀ w a w' as w'', w.current.kind = .symbol .comma →
      item.run w.advance = (.ok a, w') → motive w' as w'' → motive w (a :: as) w'')
    {w w' : Window σ} {as : List α} (h : (commaTail item).run w = (.ok as, w')) :
    motive w as w' := by
  induction w using commaTail_induction item generalizing as w' with
  | stop w hc =>
    rw [run_commaTail, if_neg hc] at h
    obtain ⟨rfl, rfl⟩ : [] = as ∧ w = w' := by simpa using h
    exact done w hc
  | more w a w₁ hc hr ih =>
    rw [run_commaTail, if_pos hc, run_bind_of_ok hr] at h
    obtain ⟨bs, w₂, hs, hpure⟩ := run_bind_eq_ok.1 h
    obtain ⟨rfl, rfl⟩ := run_pure_eq_ok.1 hpure
    exact more w a w₁ bs w₂ hc hr (ih hs)
  | failed w d w₁ hc hr =>
    rw [run_commaTail, if_pos hc, run_bind_of_error hr] at h
    cases h

end Parser

end Pseudolang
