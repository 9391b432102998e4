import Pseudolang.Proofs.Positions
import Pseudolang.Proofs.Statements.Exactness

/-!
# Diagnostics point at the first impossible token

The token that a diagnostic points at is the first one at which its line cannot become a statement
any more.  With that token the line is beyond help: every line that begins with the same tokens, up
to and including that one, is refused there for the same cause, whatever follows (`RefusedAt`).
Without it there is a way on: unless the nesting was refused, the tokens before it begin a statement
(`BeginsStatement`).

The first half is that a statement is settled at the token its diagnostic points at
(`Grammar.tracks_statement`).  The second half is that what was read before an error is the front of
a line of the grammar (`Grammar.reads_statement`), and that tokens which can be written are read
back from a text where blanks stand between them (`tokenLines_spaced`).  The two meet at one token,
since no two tokens of a text have the same position.
-/

namespace Pseudolang

open Pseudolang.Grammar Pseudolang.Parser

/-! ## Positions in a line -/

/-- No two tokens of a line stand at the same position. -/
lemma Line.eq_of_position_eq {source : String} {line : Line}
    (h : line ∈ tokenLines (tokenize source)) {i j : ℕ} (hi : i < line.all.length)
    (hj : j < line.all.length) (hposition : line.all[i].position = line.all[j].position) :
    i = j := by
  obtain ⟨-, -, hsublist⟩ := of_mem_splitStatements (List.mem_of_mem_filter h)
  have hpairwise := List.pairwise_iff_getElem.1
    ((Cursor.pairwise_key (Cursor.ofSource source)).1.sublist hsublist)
  rcases lt_trichotomy i j with hlt | heq | hlt
  · exact absurd (hpairwise i j hi hj hlt) (by rw [hposition]; exact lt_irrefl _)
  · exact heq
  · exact absurd (hpairwise j i hj hi hlt) (by rw [hposition]; exact lt_irrefl _)

/-- A line is divided in one way by the position of a token. -/
lemma Line.append_inj_of_position {source : String} {line : Line}
    (h : line ∈ tokenLines (tokenize source)) {before before' after after' : List Token}
    {t t' : Token} (heq : line.all = before ++ t :: after)
    (heq' : line.all = before' ++ t' :: after') (hposition : t.position = t'.position) :
    before = before' ∧ t = t' := by
  have hlt : before.length < line.all.length := by simp [heq]
  have hlt' : before'.length < line.all.length := by simp [heq']
  have hget : line.all[before.length] = t := by simp [heq]
  have hget' : line.all[before'.length] = t' := by simp [heq']
  have hlength := eq_of_position_eq h hlt hlt' (by rw [hget, hget', hposition])
  obtain ⟨hbefore, hcons⟩ := List.append_inj (heq.symm.trans heq') hlength
  exact ⟨hbefore, (List.cons.inj hcons).1⟩

/-! ## Writing tokens -/

/-- The text of the tokens on one line, with a blank before each of them. -/
def spaced (ts : List Token) : List Char :=
  ts.flatMap (fun t => ' ' :: t.text.toList) ++ ['\n']

lemma spaced_cons (t : Token) (ts : List Token) :
    spaced (t :: ts) = [' '] ++ (t.text.toList ++ spaced ts) := by
  simp [spaced]

lemma endsLexeme_spaced (ts : List Token) : EndsLexeme (spaced ts) := by
  cases ts with
  | nil => exact (endsLexeme_cons ..).2 (by decide)
  | cons t ts => exact (endsLexeme_cons ..).2 (by decide)

/-- Tokens that can be written are read back from their text. -/
lemma Cursor.yields_spaced {ts : List Token} (hts : ∀ t ∈ ts, t.Writable) {c : Cursor}
    (hc : c.rest = spaced ts) :
    ∃ us c', TokenStream.Yields c us c' ∧ us.map Token.unplaced = ts.map Token.unplaced ∧
      c'.rest = ['\n'] := by
  induction ts generalizing c with
  | nil => exact ⟨[], c, rfl, rfl, hc⟩
  | cons t ts ih =>
    rw [List.forall_mem_cons] at hts
    obtain ⟨hnext, hrest⟩ := next_of_lexed hts.1.lexed hts.1.legal
      (Window.kind_ne_endOfFile hts.1.inLine) (by simp [isBlank])
      (hc.trans (spaced_cons t ts)) (endsLexeme_spaced ts)
    obtain ⟨us, c', hyields, hus, hc'⟩ := ih hts.2 hrest
    exact ⟨c.next.1 :: us, c', ⟨rfl, hyields⟩, by rw [List.map_cons, hus, hnext]; rfl, hc'⟩

/-- They are one line there. -/
lemma tokenLines_spaced {ts : List Token} (hts : ∀ t ∈ ts, t.Writable) (hne : ts ≠ []) :
    ∃ us ending, tokenLines (tokenize (String.ofList (spaced ts))) = [⟨us, ending⟩] ∧
      us.map Token.unplaced = ts.map Token.unplaced := by
  obtain ⟨us, c, hyields, hus, hc⟩ := Cursor.yields_spaced hts
    (c := Cursor.ofSource (String.ofList (spaced ts))) (by simp [Cursor.ofSource])
  have hin := not_endsStatement_of_map_unplaced hus fun t ht => (hts t ht).inLine
  have hne' : us ≠ [] := by
    rintro rfl
    exact hne (by simpa using hus.symm)
  exact ⟨us, c.next.1, tokenLines_of_yields hyields hc hin hne', hus⟩

/-! ## The two halves -/

lemma exists_append_cons {ts : List Token} {k : ℕ} (h : k < ts.length) :
    ∃ before t after, ts = before ++ t :: after ∧ before.length = k :=
  ⟨ts.take k, ts[k], ts.drop (k + 1), by rw [← List.drop_eq_getElem_cons h, List.take_append_drop],
    List.length_take_of_le h.le⟩

lemma Window.shows_ofList_front {ts before after : List Token} {t : Token}
    (h : ts = before ++ t :: after) : (Window.ofStream ts).Shows (before ++ [t]) := by
  have hshows := Window.shows_ofList_self ts
  nth_rewrite 2 [h] at hshows
  rw [← List.singleton_append, ← List.append_assoc] at hshows
  exact ((Window.shows_append ..).1 hshows).1

lemma Window.ahead_ofList_front {ts before after : List Token} {t : Token}
    (h : ts = before ++ t :: after) : (Window.ofStream ts).ahead before.length = t := by
  rw [(Window.shows_ofList_front h).ahead_eq (by simp)]
  simp

/-- Every line of a source text that begins with the tokens and then with the token `t` is refused
for the cause, at that token. -/
def RefusedAt (before : List Token) (t : Token) (cause : Cause) : Prop :=
  ∀ source : String, List.Forall₂ (fun (line : Line) (outcome : Outcome) =>
      ∀ before' t' after', line.all = before' ++ t' :: after' →
        (before' ++ [t']).map Token.unplaced = (before ++ [t]).map Token.unplaced →
        outcome = .error ⟨cause, t'.position⟩)
    (tokenLines (tokenize source)) (outcomesOf source)

/-- Some source text is one statement, on a line that begins with the tokens. -/
def BeginsStatement (before : List Token) : Prop :=
  ∃ (source : String) (line : Line) (s : Statement), tokenLines (tokenize source) = [line] ∧
    parse source = ⟨[s], []⟩ ∧ before.map Token.unplaced <+: line.tokens.map Token.unplaced

namespace Line

variable {line : Line} {d : Diagnostic}

/-- A diagnostic points at a token of the line, and none before it is a barrier.  Any other line
with the same tokens up to that one gets a diagnostic with the same cause. -/
lemma outcome_eq_error (hending : line.ending.Barrier) (h : line.outcome = .error d)
    (line' : Line) : ∃ before t after, line.all = before ++ t :: after ∧ t.position = d.position ∧
      (∀ x ∈ before, ¬x.Barrier) ∧ ∀ before' t' after', line'.all = before' ++ t' :: after' →
        (before' ++ [t']).map Token.unplaced = (before ++ [t]).map Token.unplaced →
        line'.outcome = .error ⟨d.cause, t'.position⟩ := by
  have hshows := Window.shows_ofList_self line.all
  have hlength : line.all.length = line.tokens.length + 1 := by simp [all]
  cases tracks_statement .anywhere (Window.ofStream line.all) (Window.ofStream line'.all) with
  | ok k s hrun =>
    rw [outcome, hrun] at h
    cases h
  | error k m cause hrun hle _ hclear hfollow =>
    rw [outcome, hrun] at h
    obtain rfl := Except.error.inj h
    -- the line has a barrier at its end, so the error is not behind it
    have hk : k < line.all.length := by
      by_contra hlt
      refine hclear line.tokens.length (by omega) ?_
      rw [hshows.ahead_eq (by omega)]
      simpa [all] using hending
    obtain ⟨before, t, after, hsplit, rfl⟩ := exists_append_cons hk
    have hfront := Window.shows_ofList_front hsplit
    refine ⟨before, t, after, hsplit, by rw [Window.ahead_ofList_front hsplit], ?_, ?_⟩
    · intro x hx
      obtain ⟨j, hj, rfl⟩ := List.mem_iff_getElem.1 hx
      rw [← ((Window.shows_append ..).1 hfront).1.ahead_eq hj]
      exact hclear j (by omega)
    · intro before' t' after' hsplit' hmap
      have hfront' := Window.shows_ofList_front hsplit'
      have hlength' : before'.length = before.length := by
        simpa using congrArg List.length hmap
      have hagree := Window.Agree.of_shows (w := Window.ofStream line.all)
        (v := Window.ofStream line'.all) rfl hfront hfront' hmap.symm
      rw [List.length_append] at hagree
      rw [outcome, hfollow hagree, ← hlength', Window.ahead_ofList_front hsplit']

lemma exists_mem_position (hending : line.ending.Barrier) (h : line.outcome = .error d) :
    ∃ t ∈ line.all, t.position = d.position := by
  obtain ⟨before, t, after, hsplit, hposition, -⟩ := outcome_eq_error hending h line
  exact ⟨t, by simp [hsplit], hposition⟩

/-- What a line comes to does not depend on where its tokens stand. -/
lemma outcome_ok_of_unplaced_eq {ts us : List Token} {ending : Token} {s : Statement}
    (h : (⟨ts, ending⟩ : Line).outcome = .ok s) (hending : ending.Barrier)
    (hmap : us.map Token.unplaced = ts.map Token.unplaced) :
    ∃ s', (⟨us, ending⟩ : Line).outcome = .ok s' := by
  have hall (ts : List Token) : (Window.ofStream (ts ++ [ending])).Shows (ts ++ [ending]) :=
    Window.shows_ofList_self _
  obtain ⟨-, -, -, -, houtcome⟩ := (tracks_statement .anywhere (Window.ofStream (ts ++ [ending]))
    (Window.ofStream (us ++ [ending]))).of_shows rfl (hall ts) (hall us)
    (by rw [List.map_append, List.map_append, hmap]) hending
  rcases houtcome with ⟨-, s', -, hs', -⟩ | ⟨_, -, _, herror, -⟩
  · exact ⟨s', hs'⟩
  · exact absurd (herror.symm.trans h) (by simp)

lemma mem_tokens_of_append {before after : List Token} {t : Token}
    (h : line.all = before ++ t :: after) : ∀ x ∈ before, x ∈ line.tokens := by
  rw [all] at h
  have hlength : before.length ≤ line.tokens.length := by
    have := congrArg List.length h
    simp at this
    omega
  have hprefix : before <+: line.tokens := List.prefix_of_prefix_length_le
    (h ▸ List.prefix_append ..) (List.prefix_append line.tokens [line.ending]) hlength
  exact fun x hx => hprefix.subset hx

lemma writable_of_mem {source : String} (h : line ∈ tokenLines (tokenize source)) {x : Token}
    (hx : x ∈ line.tokens) (hb : ¬x.Barrier) : x.Writable := by
  obtain ⟨-, hin, hsublist⟩ := of_mem_splitStatements (List.mem_of_mem_filter h)
  have hmem : x ∈ line.all := List.mem_append_left _ hx
  have hlegal : x.kind ≠ .illegal := fun hi =>
    hb (((proper_of_mem h).plain x hmem).barrier_of_illegal hi)
  have hlexed := forall_mem_tokenize (P := fun t => t.kind ≠ .illegal → t.Lexed) Cursor.lexed_next
    source x (hsublist.subset hmem)
  exact ⟨hlexed hlegal, hlegal, hin x hx⟩

/-- The position of a token of the line tells how many tokens stand before it. -/
lemma taken_eq_of_position {source : String} (hmem : line ∈ tokenLines (tokenize source))
    {before after : List Token} {t : Token} (hsplit : line.all = before ++ t :: after) {k : ℕ}
    (hk : t.position = ((Window.ofStream line.all).ahead k).position) :
    (Window.ofStream line.all).taken k = before ∧ (Window.ofStream line.all).ahead k = t := by
  have hlt : k < line.all.length := by
    by_contra hle
    -- behind the line there is only the token that ends the list, which has no column
    rw [Window.ahead_ofList_of_le (not_lt.1 hle)] at hk
    obtain ⟨-, -, hsublist⟩ := of_mem_splitStatements (List.mem_of_mem_filter hmem)
    have hcolumn := forall_mem_tokenize (P := fun t => 0 < t.position.column)
      Cursor.column_pos_next source t (hsublist.subset (by simp [hsplit]))
    simp [hk, Token.afterAll] at hcolumn
  obtain ⟨before', t', after', hsplit', rfl⟩ := exists_append_cons hlt
  rw [Window.ahead_ofList_front hsplit'] at hk ⊢
  obtain ⟨rfl, rfl⟩ := append_inj_of_position hmem hsplit hsplit' hk
  exact ⟨((Window.shows_append ..).1 (Window.shows_ofList_front hsplit')).1.taken_eq, rfl⟩

/-- The tokens before the one that a diagnostic points at are the front of a line of the grammar,
unless the nesting was refused. -/
lemma exists_written_append {source : String} (hmem : line ∈ tokenLines (tokenize source))
    (h : line.outcome = .error d) (hdeep : ¬d.TooDeep) {before after : List Token} {t : Token}
    (hsplit : line.all = before ++ t :: after) (hposition : t.position = d.position) :
    ∃ rest s, Statement.Written ReadsAs (before ++ rest) s ∧ ∀ x ∈ rest, x.Writable := by
  have hrun : (statement : Parser (List Token) Statement).run (Window.ofStream line.all) =
      (.error d, _) := Prod.ext h rfl
  obtain ⟨k, rest, s, hk, hwritten, hrest⟩ :=
    ((reads_statement (proper_of_mem hmem).window).error hrun).resolve_left hdeep
  rw [(taken_eq_of_position hmem hsplit (hposition.trans hk)).1] at hwritten
  exact ⟨rest, s, hwritten, hrest⟩

end Line

/-- What can be written and is in the grammar is a statement of some text. -/
lemma beginsStatement_of_written {before rest : List Token} {s : Statement}
    (h : Statement.Written ReadsAs (before ++ rest) s)
    (hwritable : ∀ x ∈ before ++ rest, x.Writable) : BeginsStatement before := by
  have hne : before ++ rest ≠ [] := by
    intro hnil
    rw [hnil] at h
    cases h
  obtain ⟨us, ending, hlines, hus⟩ := tokenLines_spaced hwritable hne
  have hproper : (⟨us, ending⟩ : Line).Proper := Line.proper_of_mem (by rw [hlines]; simp)
  have hwritten : (⟨before ++ rest, ending⟩ : Line).Proper := by
    refine ⟨List.forall_mem_append.2 ⟨fun x hx => ?_, ?_⟩, fun x hx => ?_, hproper.ends⟩
    · exact Cursor.plain_of_lexed (hwritable x hx).lexed
    · simpa using hproper.plain ending (by simp [Line.all])
    · exact (hwritable x hx).inLine
  obtain ⟨s', hs'⟩ := Line.outcome_ok_of_unplaced_eq (hwritten.outcome_eq_ok_iff.2 h)
    hproper.barrier hus
  refine ⟨_, _, s', hlines, ?_, ?_⟩
  · rw [parse_eq_ofOutcomes, outcomesOf_eq_map, hlines, List.map_singleton, hs']
    rfl
  · rw [hus, List.map_append]
    exact List.prefix_append ..

/-- **A diagnostic points at the first impossible token.**  The statements of a program and its
diagnostics are what its lines come to, in their order.  Every diagnostic of a line points at a
token of that line.  With the tokens up to this one no line is a statement: all of them are refused
there for the same cause, whatever follows.  The tokens before it are the beginning of a statement,
unless the nesting was refused. -/
theorem parse_error_earliest (source : String) :
    (parse source).statements = (outcomesOf source).filterMap Except.toOption ∧
    (parse source).diagnostics = (outcomesOf source).filterMap Outcome.diagnostic? ∧
    List.Forall₂ (fun (line : Line) (outcome : Outcome) => ∀ d, outcome = .error d →
        (∃ before t after, line.all = before ++ t :: after ∧ t.position = d.position) ∧
        ∀ before t after, line.all = before ++ t :: after → t.position = d.position →
          RefusedAt before t d.cause ∧ (¬d.TooDeep → BeginsStatement before))
      (tokenLines (tokenize source)) (outcomesOf source) := by
  refine ⟨statements_parse source, diagnostics_parse source, ?_⟩
  rw [outcomesOf_eq_map, List.forall₂_map_right_iff, List.forall₂_same]
  intro line hline d hd
  have hending := (Line.proper_of_mem hline).barrier
  refine ⟨?_, fun before t after hsplit hposition => ⟨fun source' => ?_, fun hdeep => ?_⟩⟩
  · obtain ⟨before, t, after, hsplit, hposition, -, -⟩ := line.outcome_eq_error hending hd line
    exact ⟨before, t, after, hsplit, hposition⟩
  · rw [outcomesOf_eq_map, List.forall₂_map_right_iff, List.forall₂_same]
    intro line' _
    obtain ⟨before₁, t₁, after₁, hsplit₁, hposition₁, -, hrefused⟩ :=
      line.outcome_eq_error hending hd line'
    obtain ⟨rfl, rfl⟩ := Line.append_inj_of_position hline hsplit hsplit₁
      (hposition.trans hposition₁.symm)
    exact hrefused
  · obtain ⟨before₁, t₁, after₁, hsplit₁, hposition₁, hclear, -⟩ :=
      line.outcome_eq_error hending hd line
    obtain ⟨rfl, rfl⟩ := Line.append_inj_of_position hline hsplit hsplit₁
      (hposition.trans hposition₁.symm)
    obtain ⟨rest, s, hwritten, hrest⟩ := Line.exists_written_append hline hd hdeep hsplit hposition
    refine beginsStatement_of_written hwritten (List.forall_mem_append.2 ⟨fun x hx => ?_, hrest⟩)
    exact Line.writable_of_mem hline (Line.mem_tokens_of_append hsplit x hx) (hclear x hx)

end Pseudolang
