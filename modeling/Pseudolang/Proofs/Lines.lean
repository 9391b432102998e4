import Pseudolang.Proofs.Simulation.Grammar

/-!
# A program is read line by line

The tokens of a source text fall into lines, each with the token that ends it (`splitStatements`).
A line can be read by itself: its tokens form a list, and a list is a stream of tokens.  The outcome
of a line (`Line.outcome`) is what a statement read from that list comes to.

Reading a program gives exactly the outcomes of its lines that are not blank, in their order
(`outcomes_eq_map`).  The token that ends a line is a barrier, which no statement passes, so a
statement neither takes nor looks at anything behind it.
-/

namespace Pseudolang

/-! ## Lists as streams -/

/-- The end of file that follows a list of tokens. -/
def Token.afterAll : Token :=
  ⟨.endOfFile, "", ⟨0, 0⟩, false, none⟩

instance : TokenStream (List Token) where
  next
    | [] => (.afterAll, [])
    | t :: ts => (t, ts)
  remaining := List.length
  remaining_next_le ts := by cases ts <;> simp
  remaining_next_lt ts h := by
    cases ts with
    | nil => exact absurd rfl h
    | cons t ts => simp

namespace Window

variable {σ : Type} [TokenStream σ]

/-- The window at the start of a list shows the list. -/
lemma shows_ofList (ts : List Token) : (ofStream ts).Shows (ts ++ [.afterAll]) := by
  induction ts with
  | nil => exact ⟨rfl, trivial⟩
  | cons t ts ih => exact ⟨rfl, ih⟩

lemma shows_ofList_self (ts : List Token) : (ofStream ts).Shows ts :=
  ((shows_append ..).1 (shows_ofList ts)).1

lemma Shows.ahead_eq {w : Window σ} {ts : List Token} (h : w.Shows ts) {j : ℕ}
    (hj : j < ts.length) : w.ahead j = ts[j] := by
  induction ts generalizing w j with
  | nil => simp at hj
  | cons t ts ih =>
    cases j with
    | zero => exact h.1
    | succ j => exact (ahead_advance w j).symm.trans (ih h.2 (by simpa using hj))

/-- Windows agree on lists that are shown there and correspond. -/
lemma Agree.of_shows {τ : Type} [TokenStream τ] {l r : Token → Token} {w : Window σ}
    {v : Window τ} {ts us : List Token} (hdepth : w.depth = v.depth) (hw : w.Shows ts)
    (hv : v.Shows us) (hmap : ts.map l = us.map r) : Agree l r ts.length w v where
  depth := hdepth
  ahead j hj := by
    have hlength : ts.length = us.length := by simpa using congrArg List.length hmap
    rw [hw.ahead_eq hj, hv.ahead_eq (hlength ▸ hj)]
    have hget := congrArg (·[j]?) hmap
    simpa [hj, hlength ▸ hj] using hget

end Window

/-! ## Lines -/

/-- The tokens of a line, and the one that ends it. -/
structure Line where
  tokens : List Token
  ending : Token

namespace Line

/-- The tokens of the line with the one that ends it. -/
def all (line : Line) : List Token :=
  line.tokens ++ [line.ending]

/-- What the line comes to when it is read by itself. -/
def outcome (line : Line) : Outcome :=
  (Grammar.statement.run (Window.ofStream line.all)).1

/-- The line with every token replaced by its image. -/
def map (f : Token → Token) (line : Line) : Line :=
  ⟨line.tokens.map f, f line.ending⟩

end Line

/-- The lines of a list of tokens. -/
def splitStatements : List Token → List Line
  | [] => []
  | t :: ts =>
    if t.endsStatement then ⟨[], t⟩ :: splitStatements ts
    else
      match splitStatements ts with
      | [] => []
      | line :: lines => ⟨t :: line.tokens, line.ending⟩ :: lines

/-- The lines of a list of tokens that are not blank. -/
def tokenLines (ts : List Token) : List Line :=
  (splitStatements ts).filter (!·.tokens.isEmpty)

section Splitting

variable {t : Token} {ts us : List Token}

/-- The tokens up to an end of statement are a line of their own. -/
lemma splitStatements_append_cons (h : ∀ x ∈ ts, ¬x.endsStatement) (ht : t.endsStatement) :
    splitStatements (ts ++ t :: us) = ⟨ts, t⟩ :: splitStatements us := by
  induction ts with
  | nil => rw [List.nil_append, splitStatements, if_pos ht]
  | cons x ts ih =>
    rw [List.forall_mem_cons] at h
    rw [List.cons_append, splitStatements, if_neg h.1, ih h.2]

lemma splitStatements_append_singleton_ne_nil (ht : t.endsStatement) (ts : List Token) :
    splitStatements (ts ++ [t]) ≠ [] := by
  induction ts with
  | nil => simp [splitStatements, ht]
  | cons x ts ih =>
    rw [List.cons_append, splitStatements]
    split
    · simp
    · split
      · next hnil => exact absurd hnil ih
      · simp

/-- Lines do not reach over an end of statement. -/
lemma splitStatements_append (ht : t.endsStatement) (ts us : List Token) :
    splitStatements (ts ++ t :: us) = splitStatements (ts ++ [t]) ++ splitStatements us := by
  induction ts with
  | nil => simp [splitStatements, ht]
  | cons x ts ih =>
    rw [List.cons_append, List.cons_append, splitStatements, splitStatements, ih]
    split
    · rfl
    · cases hlines : splitStatements (ts ++ [t]) with
      | nil => exact absurd hlines (splitStatements_append_singleton_ne_nil ht ts)
      | cons line lines => rfl

lemma splitStatements_map {f : Token → Token}
    (hf : ∀ t, (f t).endsStatement = t.endsStatement) (ts : List Token) :
    splitStatements (ts.map f) = (splitStatements ts).map (Line.map f) := by
  induction ts with
  | nil => rfl
  | cons t ts ih =>
    rw [List.map_cons, splitStatements, splitStatements, ih, hf]
    split
    · rfl
    · cases splitStatements ts with
      | nil => rfl
      | cons line lines => rfl

/-- A line is a part of the tokens, with an end of statement after it and none in it. -/
lemma of_mem_splitStatements {line : Line} (h : line ∈ splitStatements ts) :
    line.ending.endsStatement ∧ (∀ x ∈ line.tokens, ¬x.endsStatement) ∧ line.all.Sublist ts := by
  induction ts generalizing line with
  | nil => simp [splitStatements] at h
  | cons t ts ih =>
    have hrest {line : Line} (hmem : line ∈ splitStatements ts) : line.ending.endsStatement ∧
        (∀ x ∈ line.tokens, ¬x.endsStatement) ∧ line.all.Sublist (t :: ts) :=
      ⟨(ih hmem).1, (ih hmem).2.1, (ih hmem).2.2.cons t⟩
    rw [splitStatements] at h
    split at h
    · next ht =>
      rcases List.mem_cons.1 h with rfl | h
      · exact ⟨ht, by simp, by simp [Line.all]⟩
      · exact hrest h
    · next ht =>
      split at h
      · cases h
      · next first lines hlines =>
        have hfirst := ih (hlines ▸ List.mem_cons_self ..)
        rcases List.mem_cons.1 h with rfl | h
        · exact ⟨hfirst.1, List.forall_mem_cons.2 ⟨ht, hfirst.2.1⟩, hfirst.2.2.cons_cons t⟩
        · exact hrest (hlines ▸ List.mem_cons_of_mem _ h)

/-- A blank line does not count. -/
lemma tokenLines_cons_of_ends (ht : t.endsStatement) : tokenLines (t :: ts) = tokenLines ts := by
  rw [tokenLines, splitStatements, if_pos ht, List.filter_cons_of_neg (by simp)]
  rfl

lemma tokenLines_append_cons (h : ∀ x ∈ ts, ¬x.endsStatement) (hne : ts ≠ [])
    (ht : t.endsStatement) : tokenLines (ts ++ t :: us) = ⟨ts, t⟩ :: tokenLines us := by
  rw [tokenLines, splitStatements_append_cons h ht, List.filter_cons_of_pos (by simp [hne])]
  rfl

end Splitting

/-! ## The outcome of a line -/

lemma Token.Plain.barrier {t : Token} (h : t.Plain) (ht : t.endsStatement) : t.Barrier := by
  refine ⟨?_, .inl ht⟩
  rw [Bool.eq_false_iff]
  intro hl
  rcases Kind.eq_of_endsStatement ht with hk | hk
  · simpa [hk, Kind.isNative] using h hl
  · simpa [hk, Kind.isNative] using h hl

lemma Token.Plain.barrier_of_illegal {t : Token} (h : t.Plain) (ht : t.kind = .illegal) :
    t.Barrier := by
  refine ⟨Bool.eq_false_iff.2 fun hl => ?_, .inr ht⟩
  simpa [ht, Kind.isNative] using h hl

namespace Parser.Tracks

variable {σ τ α β : Type} [TokenStream σ] [TokenStream τ] {l r : Token → Token}
  {V : α → β → Prop} {p : Parser σ α} {q : Parser τ β} {w : Window σ} {v : Window τ}

/-- No run gets past a barrier, so runs that track each other do the same where the tokens
correspond up to one. -/
lemma of_shows (h : Tracks l r V p q w v) {ts us : List Token} {t u : Token}
    (hdepth : w.depth = v.depth) (hw : w.Shows (ts ++ [t])) (hv : v.Shows (us ++ [u]))
    (hmap : (ts ++ [t]).map l = (us ++ [u]).map r) (ht : t.Barrier) :
    ∃ m ≤ ts.length, (p.run w).2 = w.advanceBy m ∧ (q.run v).2 = v.advanceBy m ∧
      ((∃ a b, (p.run w).1 = .ok a ∧ (q.run v).1 = .ok b ∧ V a b) ∨
        ∃ k ≤ ts.length, ∃ cause, (p.run w).1 = .error ⟨cause, (w.ahead k).position⟩ ∧
          (q.run v).1 = .error ⟨cause, (v.ahead k).position⟩) := by
  have hagree := Window.Agree.of_shows hdepth hw hv hmap
  have hbarrier : (w.ahead ts.length).Barrier := by
    rw [hw.ahead_eq (by simp)]
    simpa using ht
  have hbound : ∀ m, (∀ j < m, ¬(w.ahead j).Barrier) → m ≤ ts.length := fun m hm =>
    not_lt.1 fun hlt => hm _ hlt hbarrier
  rw [List.length_append, List.length_singleton] at hagree
  cases h with
  | ok k a hrun hclear hfollow =>
    have hk := hbound k hclear
    obtain ⟨b, hb, hV⟩ := hfollow (hagree.mono (by omega))
    exact ⟨k, hk, by rw [hrun], by rw [hb], .inl ⟨a, b, by rw [hrun], by rw [hb], hV⟩⟩
  | error k m cause hrun hle _ hclear hfollow =>
    have hm := hbound m hclear
    have hb := hfollow (hagree.mono (by omega))
    exact ⟨m, hm, by rw [hrun], by rw [hb],
      .inr ⟨k, by omega, cause, by rw [hrun], by rw [hb]⟩⟩

end Parser.Tracks

namespace Grammar

variable {σ : Type} [TokenStream σ]

/-- A statement that is read from a line comes to the outcome of that line, and stops within it. -/
lemma run_statement_of_shows (line : Line) {w : Window σ} (hdepth : w.depth = 0)
    (hw : w.Shows line.all) (hending : line.ending.Barrier) :
    ∃ m ≤ line.tokens.length, statement.run w = (line.outcome, w.advanceBy m) := by
  obtain ⟨m, hm, hstop, -, houtcome⟩ :=
    (tracks_statement .same w (Window.ofStream line.all)).of_shows hdepth hw
      (Window.shows_ofList_self line.all) rfl hending
  refine ⟨m, hm, Prod.ext ?_ hstop⟩
  rcases houtcome with ⟨s, s', hs, hs', halike⟩ | ⟨k, hk, cause, hd, hd'⟩
  · have heq : s = s' := by simpa [Statement.Alike] using halike
    rw [hs, Line.outcome, hs', heq]
  · have hlt : k < line.all.length := by
      rw [Line.all, List.length_append]
      exact Nat.lt_succ_of_le hk
    rw [hd, Line.outcome, hd', hw.ahead_eq hlt,
      (Window.shows_ofList_self line.all).ahead_eq hlt]

end Grammar

/-! ## The outcomes of a program -/

namespace TokenStream

variable {σ : Type} [TokenStream σ]

lemma tokens_of_endOfFile {s : σ} (h : (next s).1.kind = .endOfFile) : tokens s = [(next s).1] := by
  rw [tokens, dif_pos h]

lemma tokens_of_ne_endOfFile {s : σ} (h : (next s).1.kind ≠ .endOfFile) :
    tokens s = (next s).1 :: tokens (next s).2 := by
  rw [tokens, dif_neg h]

/-- Streams that go along, the tokens of the second being the images of those of the first, have
lists of tokens that do.  The kinds of the tokens are kept, so that both end together. -/
lemma tokens_map {τ : Type} [TokenStream τ] {f : Token → Token} {R : σ → τ → Prop}
    (hf : ∀ t, (f t).kind = t.kind)
    (hR : ∀ s s', R s s' → (next s').1 = f (next s).1 ∧ R (next s).2 (next s').2)
    {s : σ} {s' : τ} (h : R s s') : tokens s' = (tokens s).map f := by
  obtain ⟨htoken, hrest⟩ := hR s s' h
  by_cases he : (next s).1.kind = .endOfFile
  · rw [tokens_of_endOfFile he, tokens_of_endOfFile (by rw [htoken, hf, he]), htoken]
    rfl
  · have hlt := remaining_next_lt s he
    rw [tokens_of_ne_endOfFile he, tokens_of_ne_endOfFile (by rw [htoken, hf]; exact he), htoken,
      tokens_map hf hR hrest, List.map_cons]
termination_by remaining s

lemma Yields.advanceBy {s s' : σ} {ts : List Token} (h : Yields s ts s') :
    (Window.ofStream s).advanceBy ts.length = Window.ofStream s' := by
  induction ts generalizing s with
  | nil =>
    obtain rfl : s = s' := h
    rfl
  | cons t ts ih => exact ih h.2

lemma Yields.tokens_eq {s s' : σ} {ts : List Token} (h : Yields s ts s')
    (hts : ∀ t ∈ ts, ¬t.endsStatement) : tokens s = ts ++ tokens s' := by
  induction ts generalizing s with
  | nil =>
    obtain rfl : s = s' := h
    rfl
  | cons t ts ih =>
    obtain ⟨rfl, h⟩ := h
    rw [List.forall_mem_cons] at hts
    rw [tokens_of_ne_endOfFile (Window.kind_ne_endOfFile hts.1), ih h hts.2, List.cons_append]

/-- What follows some of its tokens in a stream are the tokens of the stream after them. -/
lemma exists_yields {s : σ} {ts us : List Token} (h : tokens s = ts ++ us) (hne : us ≠ []) :
    ∃ s', Yields s ts s' ∧ tokens s' = us := by
  induction ts generalizing s with
  | nil => exact ⟨s, rfl, h⟩
  | cons t ts ih =>
    by_cases hf : (next s).1.kind = .endOfFile
    · rw [tokens_of_endOfFile hf] at h
      simp [hne] at h
    · rw [tokens_of_ne_endOfFile hf, List.cons_append, List.cons.injEq] at h
      obtain ⟨s', hyields, hs'⟩ := ih h.2
      exact ⟨s', ⟨h.1, hyields⟩, hs'⟩

end TokenStream

namespace Window

variable {σ : Type} [TokenStream σ] {w : Window σ} {ts : List Token} {t : Token}

/-- The rest of a line is passed up to the token that ends it. -/
lemma skipLine_of_shows (hw : w.Shows (ts ++ [t])) (hts : ∀ x ∈ ts, ¬x.endsStatement)
    (ht : t.endsStatement) : w.skipLine = w.advanceBy ts.length := by
  induction ts generalizing w with
  | nil =>
    have hcurrent : w.current.endsStatement := hw.1 ▸ ht
    rw [skipLine, dif_pos hcurrent]
    rfl
  | cons x ts ih =>
    rw [List.forall_mem_cons] at hts
    have hcurrent : ¬w.current.endsStatement := hw.1 ▸ hts.1
    rw [skipLine, dif_neg hcurrent, ih hw.2 hts.2]
    rfl

/-- It ends there from wherever in the line it starts. -/
lemma skipLine_advanceBy (hw : w.Shows (ts ++ [t])) (hts : ∀ x ∈ ts, ¬x.endsStatement)
    (ht : t.endsStatement) {m : ℕ} (hm : m ≤ ts.length) :
    (w.advanceBy m).skipLine = w.advanceBy ts.length := by
  have hshows : w.Shows (ts.take m ++ (ts.drop m ++ [t])) := by
    rwa [← List.append_assoc, List.take_append_drop]
  have hlength : (ts.take m).length = m := List.length_take_of_le hm
  have hrest := ((shows_append ..).1 hshows).2
  rw [hlength] at hrest
  rw [skipLine_of_shows hrest (fun x hx => hts x (List.mem_of_mem_drop hx)) ht, ← advanceBy_add,
    List.length_drop, Nat.add_sub_cancel' hm]

end Window

namespace Grammar

variable {σ : Type} [TokenStream σ] {w : Window σ}

lemma outcomes_of_endOfFile (h : w.current.kind = .endOfFile) : (outcomes w).1 = [] := by
  rw [outcomes, dif_pos h]

lemma outcomes_of_endOfLine (h : w.current.kind = .endOfLine) :
    (outcomes w).1 = (outcomes w.advance).1 := by
  rw [outcomes, dif_neg (by simp [h]), dif_pos h]

lemma outcomes_of_run {w' : Window σ} {outcome : Outcome} (h : ¬w.current.endsStatement)
    (hrun : statement.run w = (outcome, w')) :
    (outcomes w).1 = outcome :: (outcomes w'.skipLine).1 := by
  have hkind : w.current.kind ≠ .endOfFile ∧ w.current.kind ≠ .endOfLine := by
    simpa [Token.endsStatement, Kind.endsStatement, and_comm] using h
  rw [outcomes, dif_neg hkind.1, dif_neg hkind.2]
  split
  · next hr =>
    obtain ⟨rfl, rfl⟩ := Prod.mk.inj (hrun.symm.trans hr)
    rfl

/-- Reading a program gives the outcomes of its lines, the blank ones left out.  The induction is on
the number of tokens: a line leaves fewer of them. -/
lemma outcomes_eq_map (s : σ) (hp : ∀ t ∈ TokenStream.tokens s, t.Plain) :
    (outcomes (Window.ofStream s)).1 =
      (tokenLines (TokenStream.tokens s)).map Line.outcome := by
  by_cases hends : (TokenStream.next s).1.endsStatement
  · by_cases hf : (TokenStream.next s).1.kind = .endOfFile
    · rw [outcomes_of_endOfFile hf, TokenStream.tokens_of_endOfFile hf,
        tokenLines_cons_of_ends hends]
      rfl
    · have hl : (TokenStream.next s).1.kind = .endOfLine :=
        (Kind.eq_of_endsStatement hends).resolve_right hf
      have htokens := TokenStream.tokens_of_ne_endOfFile hf
      rw [htokens] at hp
      have hlt : (TokenStream.tokens (TokenStream.next s).2).length <
          (TokenStream.tokens s).length := by
        rw [htokens]
        exact Nat.lt_succ_self _
      rw [outcomes_of_endOfLine hl, Window.advance_ofStream, htokens,
        tokenLines_cons_of_ends hends]
      exact outcomes_eq_map _ fun t ht => hp t (List.mem_cons_of_mem _ ht)
  · obtain ⟨t, us, ht, htokens⟩ := TokenStream.exists_line_append s
    obtain ⟨s', hyields, hs'⟩ := TokenStream.exists_yields htokens (by simp)
    have hts : ∀ x ∈ TokenStream.line s, ¬x.endsStatement := fun x =>
      TokenStream.not_endsStatement_of_mem_line
    have hne : TokenStream.line s ≠ [] := by
      intro hnil
      have hshows := Window.shows_tokens s
      rw [htokens, hnil, List.nil_append] at hshows
      have hcurrent : (TokenStream.next s).1 = t := hshows.1
      exact hends (hcurrent ▸ ht)
    have hshows : (Window.ofStream s).Shows (TokenStream.line s ++ [t]) :=
      Window.shows_front htokens
    obtain ⟨m, hm, hrun⟩ := run_statement_of_shows ⟨TokenStream.line s, t⟩ rfl hshows
      ((hp t (by simp [htokens])).barrier ht)
    have hlt : (TokenStream.tokens s').length < (TokenStream.tokens s).length := by
      rw [htokens, hs', List.length_append]
      exact Nat.lt_add_of_pos_left (List.length_pos_iff.2 hne)
    rw [outcomes_of_run hends hrun, Window.skipLine_advanceBy hshows hts ht hm, hyields.advanceBy,
      outcomes_eq_map s' fun x hx =>
        hp x (by rw [htokens, ← hs']; exact List.mem_append_right _ hx),
      hs', htokens, tokenLines_append_cons hts hne ht, tokenLines_cons_of_ends ht]
    rfl
termination_by (TokenStream.tokens s).length

end Grammar

/-- What the lines of a source text come to, in their order. -/
def outcomesOf (source : String) : List Outcome :=
  (Grammar.outcomes (Window.ofStream (Cursor.ofSource source))).1

lemma parse_eq_ofOutcomes (source : String) :
    parse source = Program.ofOutcomes (outcomesOf source) := rfl

lemma statements_parse (source : String) :
    (parse source).statements = (outcomesOf source).filterMap Except.toOption :=
  Program.statements_ofOutcomes _

lemma diagnostics_parse (source : String) :
    (parse source).diagnostics = (outcomesOf source).filterMap Outcome.diagnostic? :=
  Program.diagnostics_ofOutcomes _

lemma forall_mem_tokenize {P : Token → Prop} (hP : ∀ c : Cursor, P (TokenStream.next c).1)
    (source : String) : ∀ t ∈ tokenize source, P t :=
  (Window.shows_tokens _).forall_mem hP

lemma outcomesOf_eq_map (source : String) :
    outcomesOf source = (tokenLines (tokenize source)).map Line.outcome :=
  Grammar.outcomes_eq_map _ (forall_mem_tokenize Cursor.plain_next source)

/-- A text whose only line break is its last character is one line. -/
lemma tokenLines_of_yields {source : String} {ts : List Token} {c : Cursor}
    (h : TokenStream.Yields (Cursor.ofSource source) ts c) (hc : c.rest = ['\n'])
    (hts : ∀ t ∈ ts, ¬t.endsStatement) (hne : ts ≠ []) :
    tokenLines (tokenize source) = [⟨ts, c.next.1⟩] := by
  obtain ⟨hnext, hrest⟩ := Cursor.next_of_ofChar?_cons rfl hc
  have hl : (TokenStream.next c).1.kind = .endOfLine := congrArg Token.kind hnext
  have hends : (TokenStream.next c).1.endsStatement := by rw [Token.endsStatement, hl]; rfl
  have hf : (TokenStream.next (TokenStream.next c).2).1.kind = .endOfFile := by
    show c.next.2.next.1.kind = .endOfFile
    rw [Cursor.next_of_skipTrivia_eq_nil (by rw [Cursor.rest_skipTrivia, hrest]; rfl)]
  rw [tokenize, h.tokens_eq hts, TokenStream.tokens_of_ne_endOfFile (by simp [hl]),
    tokenLines_append_cons hts hne hends, TokenStream.tokens_of_endOfFile hf,
    tokenLines_cons_of_ends (by rw [Token.endsStatement, hf]; rfl)]
  rfl

end Pseudolang
