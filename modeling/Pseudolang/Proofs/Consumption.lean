import Pseudolang.Proofs.Diagnosis
import Pseudolang.Proofs.Lines

/-!
# Every token is taken once

A window moves by asking its stream for one token more, and the end of file can be asked for again
and again.  So where a window stands does not tell how often it moved, and the number of moves has
to be counted: `Counted` is a stream that does, and a program is read from it just as from the
stream inside (`Counted.outcomes_eq`).

`Window.Passes w ts w'` says that `w'` is behind exactly the tokens `ts` that `w` shows.  Wherever
a run ends, in a result or in a diagnostic, no token that it passed is a barrier
(`Parser.Confined`); this goes along the grammar, piece by piece, for expressions of any power.
What is left of a line is passed up to its end, and so the lines of a program pass all of its tokens
before the end of file, and none twice (`Grammar.exists_passes_outcomes`).
-/

namespace Pseudolang

open Pseudolang.Grammar

/-! ## Streams that count -/

/-- A stream that counts how many tokens it was asked for. -/
structure Counted (σ : Type) where
  stream : σ
  asked : ℕ := 0

section Counting

variable {σ : Type} [TokenStream σ]

instance : TokenStream (Counted σ) where
  next s := ((TokenStream.next s.stream).1, ⟨(TokenStream.next s.stream).2, s.asked + 1⟩)
  remaining s := TokenStream.remaining s.stream
  remaining_next_le s := TokenStream.remaining_next_le s.stream
  remaining_next_lt s := TokenStream.remaining_next_lt s.stream

namespace Counted

lemma tokens_eq (s : Counted σ) : TokenStream.tokens s = TokenStream.tokens s.stream := by
  have h : TokenStream.tokens s = (TokenStream.tokens s.stream).map id := by
    refine TokenStream.tokens_map (R := fun s (c : Counted σ) => c.stream = s) (fun _ => rfl) ?_ rfl
    rintro _ c rfl
    exact ⟨rfl, rfl⟩
  rwa [List.map_id] at h

/-- Counting changes nothing of what a program is read as. -/
lemma outcomes_eq (s : Counted σ) (hp : ∀ t ∈ TokenStream.tokens s.stream, t.Plain) :
    (outcomes (Window.ofStream s)).1 = (outcomes (Window.ofStream s.stream)).1 := by
  rw [outcomes_eq_map s.stream hp, outcomes_eq_map s (by rwa [tokens_eq]), tokens_eq]

end Counted

/-- Moving on by one token asks for one. -/
lemma Window.asked_advanceBy (n : ℕ) (w : Window (Counted σ)) :
    (w.advanceBy n).source.asked = w.source.asked + n := by
  induction n generalizing w with
  | zero => rfl
  | succ n ih =>
    rw [advanceBy, ih, Nat.add_comm n 1, ← Nat.add_assoc]
    rfl

end Counting

/-! ## Passing tokens -/

namespace Window

variable {σ : Type} [TokenStream σ] {w w' w'' : Window σ} {ts us : List Token}

/-- The second window is behind exactly the tokens, which the first one shows. -/
structure Passes (w : Window σ) (ts : List Token) (w' : Window σ) : Prop where
  shows : w.Shows ts
  stop : w' = w.advanceBy ts.length

namespace Passes

lemma refl (w : Window σ) : w.Passes [] w := ⟨trivial, rfl⟩

lemma advance (w : Window σ) : w.Passes [w.current] w.advance := ⟨⟨rfl, trivial⟩, rfl⟩

lemma trans (h : w.Passes ts w') (h' : w'.Passes us w'') : w.Passes (ts ++ us) w'' where
  shows := (shows_append ..).2 ⟨h.shows, h.stop ▸ h'.shows⟩
  stop := by rw [h'.stop, h.stop, List.length_append, advanceBy_add]

/-- Closing an expression changes nothing about the tokens that were passed. -/
lemma leave (h : w.Passes ts w') : w.leave.Passes ts w'.leave where
  shows := (shows_depth ..).2 h.shows
  stop := by
    rw [Window.leave, Window.leave, advanceBy_depth ts.length (w.depth - 1) w, h.stop,
      depth_advanceBy]

/-- Passing tokens asks for as many. -/
lemma asked {σ : Type} [TokenStream σ] {w w' : Window (Counted σ)} (h : w.Passes ts w') :
    w'.source.asked = w.source.asked + ts.length := by
  rw [h.stop, asked_advanceBy]

end Passes

lemma Shows.forall_mem_of_all {P : Token → Prop} (h : w.Shows ts) (hw : w.All P) :
    ∀ t ∈ ts, P t := by
  intro t ht
  obtain ⟨j, hj, rfl⟩ := List.getElem_of_mem ht
  rw [← h.ahead_eq hj]
  exact hw j

lemma Passes.all {P : Token → Prop} (h : w.Passes ts w') (hw : w.All P) : w'.All P := by
  rw [h.stop]
  exact hw.advanceBy ts.length

/-- A window at the start of a stream meets tokens of that stream only. -/
lemma All.ofStream {P : Token → Prop} (hP : ∀ s : σ, P (TokenStream.next s).1) (s : σ) :
    (Window.ofStream s).All P := by
  intro j
  induction j generalizing s with
  | zero => exact hP s
  | succ j ih =>
    rw [← ahead_advance, advance_ofStream]
    exact ih (TokenStream.next s).2

/-- The tokens passed up to the first end of file are those of the stream. -/
lemma Passes.tokens_eq {s : σ} (h : (Window.ofStream s).Passes ts w')
    (hts : ∀ t ∈ ts, t.kind ≠ .endOfFile) (hw' : w'.current.kind = .endOfFile) :
    TokenStream.tokens s = ts ++ [w'.current] := by
  induction ts generalizing s with
  | nil =>
    obtain rfl : w' = Window.ofStream s := h.stop
    exact TokenStream.tokens_of_endOfFile hw'
  | cons t ts ih =>
    obtain ⟨ht, hrest⟩ := h.shows
    change (TokenStream.next s).1 = t at ht
    rw [List.forall_mem_cons] at hts
    rw [TokenStream.tokens_of_ne_endOfFile (ht ▸ hts.1), ih ⟨hrest, h.stop⟩ hts.2, ht,
      List.cons_append]

/-- The rest of a line is passed. -/
lemma exists_passes_skipLine (w : Window σ) :
    ∃ ts, (∀ t ∈ ts, ¬t.endsStatement) ∧ w.Passes ts w.skipLine := by
  fun_induction skipLine w with
  | case1 w _ => exact ⟨[], by simp, .refl w⟩
  | case2 w h _ ih =>
    obtain ⟨ts, hts, hpasses⟩ := ih
    exact ⟨w.current :: ts, List.forall_mem_cons.2 ⟨h, hts⟩, (Passes.advance w).trans hpasses⟩

end Window

/-! ## Runs that pass no barrier -/

namespace Parser

variable {σ : Type} [TokenStream σ] {α β : Type}

/-- Wherever the run ends, it has passed no barrier. -/
def Confined (p : Parser σ α) (w : Window σ) : Prop :=
  ∃ ts, (∀ t ∈ ts, ¬t.Barrier) ∧ w.Passes ts (p.run w).2

namespace Confined

variable {p q : Parser σ α} {f : α → Parser σ β} {w : Window σ}

lemma of_stop (h : (p.run w).2 = w) : Confined p w :=
  ⟨[], by simp, by rw [h]; exact .refl w⟩

/-- A run from one token further on, that token being none to stop at. -/
lemma of_run_advance (hw : ¬w.current.Barrier) (h : p.run w = q.run w.advance)
    (hq : Confined q w.advance) : Confined p w := by
  obtain ⟨ts, hts, hpasses⟩ := hq
  exact ⟨w.current :: ts, List.forall_mem_cons.2 ⟨hw, hts⟩,
    h ▸ (Window.Passes.advance w).trans hpasses⟩

lemma bind (h : Confined p w) (hf : ∀ a w', p.run w = (.ok a, w') → Confined (f a) w') :
    Confined (p >>= f) w := by
  obtain ⟨ts, hts, hpasses⟩ := h
  cases hrun : p.run w with
  | mk r w' =>
    rw [hrun] at hpasses
    cases r with
    | ok a =>
      obtain ⟨us, hus, hpasses'⟩ := hf a w' hrun
      exact ⟨ts ++ us, List.forall_mem_append.2 ⟨hts, hus⟩,
        run_bind_of_ok hrun ▸ hpasses.trans hpasses'⟩
    | error d => exact ⟨ts, hts, run_bind_of_error hrun ▸ hpasses⟩

lemma pure (a : α) (w : Window σ) : Confined (Pure.pure a) w := of_stop rfl

lemma window {f : Window σ → Parser σ α} (h : Confined (f w) w) :
    Confined (Parser.window >>= f) w := h

lemma fail (d : Diagnostic) (w : Window σ) : Confined (fail d : Parser σ α) w := of_stop rfl

lemma unexpected (expected : String) (w : Window σ) :
    Confined (unexpected expected : Parser σ α) w := of_stop rfl

lemma take (h : ¬w.current.Barrier) : Confined take w :=
  ⟨[w.current], by simpa using h, .advance w⟩

lemma expectOr {kind : Kind} {d : Diagnostic} (hi : kind ≠ .illegal) (he : ¬kind.endsStatement) :
    Confined (expectOr kind d) w := by
  by_cases hk : w.current.kind = kind
  · refine ⟨[w.current], by simpa using Token.not_barrier_of_kind hk hi he, ?_⟩
    rw [run_expectOr, if_pos hk]
    exact .advance w
  · exact of_stop (by rw [run_expectOr, if_neg hk])

lemma expect {kind : Kind} (hi : kind ≠ .illegal) (he : ¬kind.endsStatement) :
    Confined (expect kind) w :=
  expectOr hi he

lemma nested (h : Confined p { w with depth := w.depth + 1 }) : Confined (nested p) w := by
  cases he : w.enter with
  | error d => exact of_stop (by rw [run_nested_of_error he])
  | ok w' =>
    obtain ⟨ts, hts, hpasses⟩ := h
    refine ⟨ts, hts, ?_, ?_⟩
    · exact (Window.shows_depth ..).1 hpasses.shows
    · rw [run_nested_of_ok he, ← Window.leave_advanceBy_of_enter he, Window.eq_of_enter he,
        hpasses.stop]

/-- Items with commas before them: the induction is on what is left to read. -/
lemma commaTail (h : ∀ w : Window σ, Confined p w) (w : Window σ) : Confined (commaTail p) w := by
  by_cases hc : w.current.kind = .symbol .comma
  · have htake : ¬w.current.Barrier := Token.not_barrier_of_kind hc (by decide) (by decide)
    refine of_run_advance htake (by rw [run_commaTail, if_pos hc]) ?_
    refine bind (h w.advance) fun a w₁ hrun => ?_
    have hlt : w₁.remaining < w.remaining := by
      have := remaining_run_advance_lt p (w := w) (by simp [hc])
      rwa [hrun] at this
    exact bind (commaTail h w₁) fun _ w₂ _ => pure _ w₂
  · exact of_stop (by rw [run_commaTail, if_neg hc])
termination_by w.remaining

lemma commaSeparated (h : ∀ w : Window σ, Confined p w) (w : Window σ) :
    Confined (commaSeparated p) w :=
  bind (h w) fun _ w₁ _ => bind (commaTail h w₁) fun _ w₂ _ => pure _ w₂

/-- Runs that track each other pass no barrier. -/
lemma of_tracks {τ γ : Type} [TokenStream τ] {l r : Token → Token} {V : α → γ → Prop}
    {q : Parser τ γ} {v : Window τ} (h : Tracks l r V p q w v) : Confined p w := by
  have hclear {k : ℕ} (hk : ∀ j < k, ¬(w.ahead j).Barrier) (hstop : (p.run w).2 = w.advanceBy k) :
      Confined p w := by
    refine ⟨w.taken k, fun t ht => ?_, w.shows_taken k, by rw [Window.length_taken, hstop]⟩
    obtain ⟨j, hj, rfl⟩ := List.getElem_of_mem ht
    rw [← (w.shows_taken k).ahead_eq hj]
    exact hk j (by simpa using hj)
  cases h with
  | ok k a hrun hk _ => exact hclear hk (by rw [hrun])
  | error k m cause hrun _ _ hm _ => exact hclear hm (by rw [hrun])

/-- Tokens that a stream gives and that are no barriers end no statement. -/
lemma exists_passes (h : Confined p w) (hw : w.All Token.Plain) :
    ∃ ts, (∀ t ∈ ts, ¬t.endsStatement) ∧ w.Passes ts (p.run w).2 := by
  obtain ⟨ts, hts, hpasses⟩ := h
  exact ⟨ts, fun t ht hends => hts t ht ((hpasses.shows.forall_mem_of_all hw t ht).barrier hends),
    hpasses⟩

end Confined

end Parser

namespace Grammar

open Pseudolang.Parser

variable {σ : Type} [TokenStream σ] {w : Window σ}

section Pieces

variable {sub : ℕ → Parser σ Expr} (hsub : ∀ power, ∀ w : Window σ, Confined (sub power) w)
include hsub

lemma confined_groupWith (ho : w.current.kind = .symbol .openParen) :
    Confined (groupWith sub) w := by
  refine .bind (.take (Token.not_barrier_of_kind ho (by decide) (by decide))) fun _ w₁ _ => ?_
  refine .bind (hsub minPower w₁) fun e w₂ _ => ?_
  exact .bind (.expect (by decide) (by decide)) fun _ w₃ _ => .pure e w₃

lemma confined_unaryWith {power : ℕ} (hp : w.current.kind.unaryPower? = some power) :
    Confined (unaryWith sub power) w := by
  have htake : ¬w.current.Barrier := by
    rcases Kind.eq_of_unaryPower? (by rw [hp]; rfl) with hk | hk
    · exact Token.not_barrier_of_kind hk (by decide) (by decide)
    · exact Token.not_barrier_of_kind hk (by decide) (by decide)
  exact .bind (.take htake) fun _ w₁ _ => .bind (hsub power w₁) fun _ w₂ _ => .pure _ w₂

lemma confined_operandWith : Confined (operandWith sub) w := by
  refine .window ?_
  split
  · next hatom => exact .bind (.take (Token.not_barrier_of_isAtom hatom)) fun _ w₁ _ => .pure _ w₁
  · split
    · next ho => exact confined_groupWith hsub ho
    · split
      · next hp => exact confined_unaryWith hsub hp
      · exact .unexpected _ w

lemma confined_listWith (closing : Symbol) (allowEmpty : Bool) :
    Confined (listWith sub (.symbol closing) allowEmpty) w := by
  have hkind : Kind.symbol closing ≠ .illegal ∧ ¬(Kind.symbol closing).endsStatement := by
    simp [Kind.endsStatement]
  refine .window ?_
  split
  · next hempty =>
    exact .bind (.take (Token.not_barrier_of_kind hempty.2 hkind.1 hkind.2)) fun _ w₁ _ =>
      .pure _ w₁
  · refine .bind (.commaSeparated (hsub minPower) w) fun es w₁ _ => .window ?_
    exact .bind (.expectOr hkind.1 hkind.2) fun _ w₂ _ => .pure es w₂

lemma confined_extendBy (grouped : Bool) (extension : Extension) (operator : Token) (left : Expr) :
    Confined (extendBy sub grouped extension operator left) w := by
  cases extension with
  | suffix =>
    show Confined (suffixAfter sub left grouped operator) w
    unfold suffixAfter
    split
    · split
      · exact .fail _ w
      · split
        · exact .bind (confined_listWith hsub _ _) fun _ w₁ _ => .pure _ w₁
        · exact .bind (confined_listWith hsub _ _) fun _ w₁ _ => .pure _ w₁
    · exact .pure _ w
  | binary power => exact .bind (hsub power w) fun _ w₁ _ => .pure _ w₁

/-- The loop over operators: the induction is on what is left to read. -/
lemma confined_operators (power : ℕ) (grouped : Bool) (left : Expr) (w : Window σ) :
    Confined (iterate (extension? power) (extendBy sub grouped) left) w := by
  cases hx : extension? power w with
  | none => exact .of_stop (by rw [run_operators_of_none hx])
  | some extension =>
    refine .of_run_advance (not_barrier_of_extension? hx) (run_operators_of_some hx)
      (.bind (confined_extendBy hsub grouped extension w.current left) fun e w₁ hrun => ?_)
    have hlt : w₁.remaining < w.remaining := by
      have := remaining_run_advance_lt (extendBy sub grouped extension w.current left)
        (kind_ne_endOfFile_of_extension? hx)
      rwa [hrun] at this
    exact confined_operators power grouped e w₁
termination_by w.remaining

lemma confined_operatorsWith (power : ℕ) : Confined (operatorsWith sub power) w :=
  .window (.bind (confined_operandWith hsub) fun e w₁ _ => confined_operators hsub power _ e w₁)

end Pieces

lemma confined_exprAt (levels power : ℕ) (w : Window σ) : Confined (exprAt levels power) w := by
  induction levels generalizing power w with
  | zero => exact .of_stop rfl
  | succ levels ih => exact .nested (confined_operatorsWith ih power)

/-- No expression reaches past a barrier, read from any window and whatever power is asked of it. -/
lemma confined_expr (power : ℕ) (w : Window σ) : Confined (expr power) w :=
  confined_exprAt (Expr.maxNesting - w.depth) power w

/-- Nor does a statement. -/
lemma confined_statement (w : Window σ) : Confined statement w :=
  .of_tracks (tracks_statement .same w w)

/-- An expression that was read has taken a token. -/
lemma ne_nil_of_passes_expr {w w' : Window (Counted σ)} {power : ℕ} {e : Expr} {ts : List Token}
    (h : (expr power).run w = (.ok e, w')) (hpasses : w.Passes ts w') : ts ≠ [] := by
  obtain ⟨g, -, hg, -⟩ := exists_spans_of_expr h
  obtain ⟨t, us, htokens, -⟩ := Grouped.exists_tokens_eq_cons hg.wellFormed
  have hspan : w.Passes g.tokens w' := ⟨hg.shows, hg.stops.symm⟩
  have hlength : ts.length = g.tokens.length := by
    have := hpasses.asked
    have := hspan.asked
    omega
  rw [htokens] at hlength
  exact List.ne_nil_of_length_eq_add_one hlength

/-! ## The lines of a program -/

/-- The lines from a window on pass every token before the end of file, and stop there. -/
lemma exists_passes_outcomes (w : Window σ) (hw : w.All Token.Plain) :
    ∃ ts, (∀ t ∈ ts, t.kind ≠ .endOfFile) ∧ w.Passes ts (outcomes w).2 ∧
      (outcomes w).2.current.kind = .endOfFile := by
  fun_induction outcomes w with
  | case1 w hf => exact ⟨[], by simp, .refl w, hf⟩
  | case2 w hf hl _ ih =>
    obtain ⟨ts, hts, hpasses, hend⟩ := ih hw.advance
    exact ⟨w.current :: ts, List.forall_mem_cons.2 ⟨hf, hts⟩,
      (Window.Passes.advance w).trans hpasses, hend⟩
  | case3 w hf hl outcome w₁ hr _ rest last ho ih =>
    obtain ⟨ts, hts, hstatement⟩ := (confined_statement w).exists_passes hw
    rw [hr] at hstatement
    obtain ⟨us, hus, hskip⟩ := w₁.exists_passes_skipLine
    have hline := hstatement.trans hskip
    obtain ⟨vs, hvs, hrest, hend⟩ := ih (hline.all hw)
    rw [ho] at hrest hend
    have hinline : ∀ t ∈ ts ++ us, t.kind ≠ .endOfFile := fun t ht =>
      Window.kind_ne_endOfFile (List.forall_mem_append.2 ⟨hts, hus⟩ t ht)
    exact ⟨ts ++ us ++ vs, List.forall_mem_append.2 ⟨hinline, hvs⟩, hline.trans hrest, hend⟩

end Grammar

/-! ## Source texts -/

/-- The window at the start of a source text, with the tokens that are asked for counted. -/
def Window.counting (source : String) : Window (Counted Cursor) :=
  ofStream { stream := Cursor.ofSource source }

lemma Window.all_plain_counting (source : String) : (counting source).All Token.Plain :=
  .ofStream (fun s => Cursor.plain_next s.stream) _

/-- **Every token is taken exactly once.**  Reading a program ends at the end of file, and it has
then passed all tokens before that, in their order and each by one move of the window.  No
expression, from any state of the reader and whatever its power, and no statement passes the end of
a line or of the file, whether it is read or fails; and an expression that is read has at least one
token. -/
theorem tokens_are_taken_once (source : String) :
    (∃ outcomes' last ts, outcomes (Window.counting source) = (outcomes', last) ∧
      (parse source).statements = outcomes'.filterMap Except.toOption ∧
      (parse source).diagnostics = outcomes'.filterMap Outcome.diagnostic? ∧
      last.current.kind = .endOfFile ∧ tokenize source = ts ++ [last.current] ∧
      (Window.counting source).Passes ts last ∧
      last.source.asked =
        (Window.counting source).source.asked + ((tokenize source).length - 1)) ∧
    ∀ n depth,
      let w : Window (Counted Cursor) :=
        { (Window.counting source).advanceBy n with depth := depth }
      (∀ power, ∃ ts, (∀ t ∈ ts, ¬t.endsStatement) ∧ w.Passes ts ((expr power).run w).2 ∧
        ∀ e, ((expr power).run w).1 = .ok e → ts ≠ []) ∧
      ∃ ts, (∀ t ∈ ts, ¬t.endsStatement) ∧ w.Passes ts (statement.run w).2 := by
  have hall := Window.all_plain_counting source
  refine ⟨?_, fun n depth => ?_⟩
  · have houtcomes : (outcomes (Window.counting source)).1 = outcomesOf source :=
      Counted.outcomes_eq { stream := Cursor.ofSource source }
        (forall_mem_tokenize Cursor.plain_next source)
    obtain ⟨ts, hts, hpasses, hend⟩ := exists_passes_outcomes (Window.counting source) hall
    have htokens : tokenize source = ts ++ [_] :=
      (Counted.tokens_eq _).symm.trans (hpasses.tokens_eq hts hend)
    refine ⟨_, _, ts, rfl, houtcomes ▸ statements_parse source,
      houtcomes ▸ diagnostics_parse source, hend, htokens, hpasses, ?_⟩
    rw [hpasses.asked, htokens, List.length_append, List.length_singleton, Nat.add_sub_cancel]
  · intro w
    have hw : w.All Token.Plain := (hall.advanceBy n).depth depth
    refine ⟨fun power => ?_, (confined_statement w).exists_passes hw⟩
    obtain ⟨ts, hts, hpasses⟩ := (confined_expr power w).exists_passes hw
    exact ⟨ts, hts, hpasses, fun e he => ne_nil_of_passes_expr (Prod.ext he rfl) hpasses⟩

end Pseudolang
