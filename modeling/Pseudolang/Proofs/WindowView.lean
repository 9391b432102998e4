import Pseudolang.Proofs.Consumption
import Pseudolang.Proofs.Progress
import Pseudolang.Proofs.Transport

/-!
# The window is a view on the tokens

A reader asks its source for tokens one by one, and is always two of them ahead.  Seen from outside
this does not show.  However it is used (`Grammar.Operation`), by moving it, by calling parsers on
it that succeed or fail, or by all of that in turn, the window stands at a place among the tokens of
the source text: as many tokens further on as it was moved, and at the end of file from there on
(`Grammar.Operation.exists_leads_runAll`, `getElem?_tokenize`).

The reason is that a cursor at the end of file gives it again.  So the tokens of a text, with their
last one repeated (`Padded`), are a stream that gives just what the cursor gives (`Cursor.padding`),
and whatever is done with a window over the cursor comes to the same over that list
(`Grammar.Operation.runAll_map`).
-/

namespace Pseudolang

/-! ## Tokens followed by the end of file -/

/-- Tokens, and the end of file that follows them as often as it is asked for. -/
structure Padded where
  tokens : List Token
  last : Token
  last_kind : last.kind = .endOfFile

namespace Padded

instance : TokenStream Padded where
  next s :=
    match s.tokens with
    | [] => (s.last, s)
    | t :: ts => (t, { s with tokens := ts })
  remaining s := s.tokens.length
  remaining_next_le s := by
    split
    · exact le_rfl
    · next h => simp [h]
  remaining_next_lt s := by
    split
    · exact fun h => absurd s.last_kind h
    · next h => simp [h]

/-- The tokens with the end of file, once. -/
def all (s : Padded) : List Token :=
  s.tokens ++ [s.last]

lemma ahead_of_nil (last : Token) (h : last.kind = .endOfFile) (k : ℕ) :
    (Window.ofStream (⟨[], last, h⟩ : Padded)).ahead k = last := by
  induction k with
  | zero => rfl
  | succ k ih => exact (Window.ahead_advance _ k).symm.trans ih

/-- What stands ahead is the token at that place, and past the end of the list its last one. -/
lemma getElem?_all (tokens : List Token) (last : Token) (h : last.kind = .endOfFile) (k : ℕ) :
    (tokens ++ [last])[min k tokens.length]? =
      some ((Window.ofStream (⟨tokens, last, h⟩ : Padded)).ahead k) := by
  induction tokens generalizing k with
  | nil => simp [ahead_of_nil]
  | cons t tokens ih =>
    cases k with
    | zero => simp [TokenStream.next, Window.ofStream]
    | succ k =>
      rw [List.length_cons, Nat.add_min_add_right, List.cons_append, List.getElem?_cons_succ, ih,
        ← Window.ahead_advance]
      rfl

end Padded

namespace TokenStream

variable {σ : Type} [TokenStream σ]

lemma last_kind (s : σ) : ((tokens s).getLast (tokens_ne_nil s)).kind = .endOfFile := by
  obtain ⟨ts, t, hts, ht, -⟩ := exists_tokens_eq_concat s
  simpa [hts] using ht

/-- The tokens of a stream, with its end of file repeated. -/
def padded (s : σ) : Padded where
  tokens := (tokens s).dropLast
  last := (tokens s).getLast (tokens_ne_nil s)
  last_kind := last_kind s

lemma all_padded (s : σ) : (padded s).all = tokens s :=
  List.dropLast_append_getLast _

lemma padded_of_endOfFile {s : σ} (h : (next s).1.kind = .endOfFile) :
    padded s = ⟨[], (next s).1, h⟩ := by
  simp [padded, tokens_of_endOfFile h]

lemma padded_of_ne_endOfFile {s : σ} (h : (next s).1.kind ≠ .endOfFile) :
    padded s = { padded (next s).2 with tokens := (next s).1 :: (padded (next s).2).tokens } := by
  have hne := tokens_ne_nil (next s).2
  simp [padded, tokens_of_ne_endOfFile h, List.dropLast_cons_of_ne_nil hne, List.getLast_cons hne]

/-- Where a stream comes to rest at its end of file, its tokens with the last one repeated are all
that it gives. -/
lemma next_padded (hrests : ∀ s : σ, (next s).1.kind = .endOfFile → next (next s).2 = next s)
    (s : σ) : next (padded s) = ((next s).1, padded (next s).2) := by
  by_cases hf : (next s).1.kind = .endOfFile
  · have hnext := hrests s hf
    have hpadded : padded (next s).2 = padded s := by
      rw [padded_of_endOfFile hf, padded_of_endOfFile (s := (next s).2) (by rw [hnext, hf])]
      simp only [hnext]
    rw [hpadded, padded_of_endOfFile hf]
    rfl
  · rw [padded_of_ne_endOfFile hf]
    rfl

end TokenStream

/-- A cursor comes to rest at the end of file. -/
def Cursor.padding : TokenStream.Hom Cursor Padded where
  map := TokenStream.padded
  next_map := TokenStream.next_padded fun _ => next_next_of_endOfFile

/-- A window at the start of a source text has its tokens ahead, the last one again and again. -/
lemma getElem?_tokenize (source : String) (k : ℕ) :
    (tokenize source)[min k ((tokenize source).length - 1)]? =
      some ((Window.ofStream (Cursor.ofSource source)).ahead k) := by
  let padded := TokenStream.padded (Cursor.ofSource source)
  have htokens : tokenize source = padded.tokens ++ [padded.last] :=
    (TokenStream.all_padded (Cursor.ofSource source)).symm
  have hahead : (Window.ofStream (Cursor.ofSource source)).ahead k =
      (Window.ofStream padded).ahead k := by
    rw [← Window.ahead_map Cursor.padding, ← Window.ofStream_map]
    rfl
  rw [hahead, htokens, List.length_append, List.length_singleton, Nat.add_sub_cancel]
  exact Padded.getElem?_all padded.tokens padded.last padded.last_kind k

/-- A counted stream gives the tokens of the stream inside. -/
def Counted.forget (σ : Type) [TokenStream σ] : TokenStream.Hom (Counted σ) σ where
  map := Counted.stream
  next_map _ := rfl

/-! ## Windows further on -/

namespace Window

variable {σ : Type} [TokenStream σ]

/-- The second window is as many tokens further on, with any number of open expressions. -/
def Leads (w : Window σ) (k : ℕ) (w' : Window σ) : Prop :=
  ∃ depth, w' = { w.advanceBy k with depth := depth }

namespace Leads

variable {w w' w'' : Window σ} {k m : ℕ}

lemma of_eq_advanceBy (h : w' = w.advanceBy k) : w.Leads k w' :=
  ⟨w'.depth, by rw [h]⟩

lemma trans (h : w.Leads k w') (h' : w'.Leads m w'') : w.Leads (k + m) w'' := by
  obtain ⟨depth, rfl⟩ := h
  obtain ⟨depth', rfl⟩ := h'
  exact ⟨depth', by rw [advanceBy_depth, advanceBy_add]⟩

lemma current (h : w.Leads k w') : w'.current = w.ahead k := by
  obtain ⟨depth, rfl⟩ := h
  rfl

lemma peek (h : w.Leads k w') : w'.peek = w.ahead (k + 1) := by
  obtain ⟨depth, rfl⟩ := h
  exact ahead_advanceBy w k 1

lemma asked {w w' : Window (Counted σ)} (h : w.Leads k w') :
    w'.source.asked = w.source.asked + k := by
  obtain ⟨depth, rfl⟩ := h
  exact asked_advanceBy k w

end Leads

end Window

/-! ## Operations -/

namespace Grammar

open Pseudolang.Parser

/-- The lines of a program are read by moving on, those that fail included. -/
lemma exists_advanceBy_outcomes {σ : Type} [TokenStream σ] (w : Window σ) :
    ∃ n, (outcomes w).2 = w.advanceBy n := by
  fun_induction outcomes w with
  | case1 w _ => exact ⟨0, rfl⟩
  | case2 w _ _ _ ih => exact Window.exists_advanceBy_trans ⟨1, rfl⟩ ih
  | case3 w _ _ _ w₁ hr _ _ _ ho ih =>
    rw [ho] at ih
    have hstatement := Window.exists_advanceBy_trans (forward_of_run hr) w₁.skipLine_eq_advanceBy
    exact Window.exists_advanceBy_trans hstatement ih

/-- What can be done with a window. -/
inductive Operation
  | advance
  | expectOr (kind : Kind) (d : Diagnostic)
  | expect (kind : Kind)
  | endOfStatement
  | enter
  | leave
  | skipLine
  | call (call : Call)
  /-- All lines up to the end of file. -/
  | program

namespace Operation

/-- What an operation gives if it succeeds. -/
inductive Answer
  | done
  | token (token : Token)
  | result (result : Call.Result)
  | program (program : Program)

variable {σ τ : Type} [TokenStream σ] [TokenStream τ]

/-- The answer, and the window after the operation. -/
def run (w : Window σ) : Operation → Except Diagnostic Answer × Window σ
  | .advance => (Answer.token <$> take).run w
  | .expectOr kind d => (Answer.token <$> Parser.expectOr kind d).run w
  | .expect kind => (Answer.token <$> Parser.expect kind).run w
  | .endOfStatement => ((fun _ => Answer.done) <$> Parser.endOfStatement).run w
  | .enter =>
    match w.enter with
    | .ok w' => (.ok .done, w')
    | .error d => (.error d, w)
  | .leave => (.ok .done, w.leave)
  | .skipLine => (.ok .done, w.skipLine)
  | .call c => (Answer.result <$> c.parser).run w
  | .program => (.ok (.program (Grammar.program w)), (outcomes w).2)

/-- The answers of operations one after the other, and the window after all of them.  One that fails
leaves the window where it stopped, and the next one goes on from there. -/
def runAll (w : Window σ) : List Operation → List (Except Diagnostic Answer) × Window σ
  | [] => ([], w)
  | o :: os => ((o.run w).1 :: (runAll (o.run w).2 os).1, (runAll (o.run w).2 os).2)

/-! ### Operations over other streams -/

lemma run_map (φ : TokenStream.Hom σ τ) (w : Window σ) (o : Operation) :
    o.run (w.map φ) = ((o.run w).1, (o.run w).2.map φ) := by
  cases o with
  | advance => exact Transports.take.map Answer.token w
  | expectOr kind d => exact (Transports.expectOr kind d).map Answer.token w
  | expect kind => exact (Transports.expect kind).map Answer.token w
  | endOfStatement => exact Transports.endOfStatement.map (fun _ => Answer.done) w
  | enter =>
    cases henter : w.enter with
    | error d => simp only [run, Window.enter_map, henter, Except.map]
    | ok w' => simp only [run, Window.enter_map, henter, Except.map]
  | leave => rfl
  | skipLine => simp only [run, Window.skipLine_map]
  | call c => exact c.transports.map Answer.result w
  | program => simp only [run, Grammar.program, outcomes_map]

lemma runAll_map (φ : TokenStream.Hom σ τ) (w : Window σ) (os : List Operation) :
    runAll (w.map φ) os = ((runAll w os).1, (runAll w os).2.map φ) := by
  induction os generalizing w with
  | nil => rfl
  | cons o os ih => simp only [runAll, run_map, ih]

/-! ### Where operations lead -/

/-- What parsers do to a window is to move it. -/
lemma exists_leads_of_forward {α : Type} (p : Parser σ α) (w : Window σ) :
    ∃ k, w.Leads k (p.run w).2 := by
  obtain ⟨k, hk⟩ := p.forward w
  exact ⟨k, .of_eq_advanceBy hk⟩

/-- Opening and closing expressions moves it by no token. -/
lemma exists_leads_run (w : Window σ) (o : Operation) : ∃ k, w.Leads k (o.run w).2 := by
  cases o with
  | advance => exact exists_leads_of_forward (Answer.token <$> take) w
  | expectOr kind d => exact exists_leads_of_forward (Answer.token <$> Parser.expectOr kind d) w
  | expect kind => exact exists_leads_of_forward (Answer.token <$> Parser.expect kind) w
  | endOfStatement =>
    exact exists_leads_of_forward ((fun _ => Answer.done) <$> Parser.endOfStatement) w
  | enter =>
    refine ⟨0, ?_⟩
    cases henter : w.enter with
    | error d => exact .of_eq_advanceBy (by simp only [run, henter]; rfl)
    | ok w' => exact ⟨w.depth + 1, by simp only [run, henter]; exact Window.eq_of_enter henter⟩
  | leave => exact ⟨0, w.depth - 1, rfl⟩
  | skipLine =>
    obtain ⟨k, hk⟩ := w.skipLine_eq_advanceBy
    exact ⟨k, .of_eq_advanceBy hk⟩
  | call c => exact exists_leads_of_forward (Answer.result <$> c.parser) w
  | program =>
    obtain ⟨k, hk⟩ := exists_advanceBy_outcomes w
    exact ⟨k, .of_eq_advanceBy hk⟩

lemma exists_leads_runAll (w : Window σ) (os : List Operation) :
    ∃ k, w.Leads k (runAll w os).2 := by
  induction os generalizing w with
  | nil => exact ⟨0, .of_eq_advanceBy rfl⟩
  | cons o os ih =>
    obtain ⟨k, hk⟩ := exists_leads_run w o
    obtain ⟨m, hm⟩ := ih (o.run w).2
    exact ⟨k + m, hk.trans hm⟩

end Operation

open Operation

/-- **The window is a view on the tokens.**  Operations on the reader of a source text, as many as
one likes and in any order, ask for some number `k` of tokens more.  The window then shows the token
with number `k` and the one after it, and the last token once there are no more.  The answers are
those that the same operations give on the list of the tokens with its end of file repeated, and the
window is the one over that list. -/
theorem window_views_tokens (source : String) (os : List Operation) :
    let start := Window.ofStream (Cursor.ofSource source)
    let counted := (runAll (Window.counting source) os).2
    let w := (runAll start os).2
    let padded := TokenStream.padded (Cursor.ofSource source)
    (counted.map (Counted.forget Cursor) = w ∧
      ∃ k, counted.source.asked = (Window.counting source).source.asked + k ∧
        (tokenize source)[min k ((tokenize source).length - 1)]? = some w.current ∧
        (tokenize source)[min (k + 1) ((tokenize source).length - 1)]? = some w.peek) ∧
      padded.all = tokenize source ∧
      runAll (Window.ofStream padded) os = ((runAll start os).1, w.map Cursor.padding) := by
  intro start counted w padded
  have hall : padded.all = tokenize source := TokenStream.all_padded _
  have hpadded : Window.ofStream padded = start.map Cursor.padding :=
    Window.ofStream_map Cursor.padding _
  have hstart : start = (Window.counting source).map (Counted.forget Cursor) :=
    Window.ofStream_map (Counted.forget Cursor) { stream := Cursor.ofSource source }
  have hcounted : (runAll start os).2 = counted.map (Counted.forget Cursor) := by
    rw [hstart, runAll_map]
  obtain ⟨k, hk⟩ := exists_leads_runAll (Window.counting source) os
  -- the counting window shows what it shows when it does not count
  have hahead (j : ℕ) : (Window.counting source).ahead j = start.ahead j := by
    rw [hstart, Window.ahead_map]
  have hcurrent : w.current = start.ahead k := by
    rw [← hahead, ← hk.current]
    exact congrArg Window.current hcounted
  have hpeek : w.peek = start.ahead (k + 1) := by
    rw [← hahead, ← hk.peek]
    exact congrArg Window.peek hcounted
  refine ⟨⟨hcounted.symm, k, hk.asked, ?_, ?_⟩, hall, ?_⟩
  · rw [hcurrent, getElem?_tokenize]
  · rw [hpeek, getElem?_tokenize]
  · rw [hpadded, runAll_map]

end Grammar

end Pseudolang
