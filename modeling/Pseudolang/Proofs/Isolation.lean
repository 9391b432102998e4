import Pseudolang.Proofs.Layout
import Pseudolang.Proofs.Moving

/-!
# Lines are independent

Nothing that is wrong in one line of a source text changes how any other line is read.  A text may
be cut after every line break: the tokens, the statements and the diagnostics of the whole are those
of the two parts, the second one moved down by as many lines as the first one has (`parse_append`).

Lexing is cut first.  No reader of lexemes or trivia looks past a line break (`BreakBound`), so that
a cursor whose text ends with one takes the same tokens when more text is put after it
(`Cursor.next_extend`).  What it does to the line and the column depends on the characters that it
passes alone, so a cursor further down gives the same tokens further down (`Cursor.next_shift`).
For the statements nothing is left to do, since a program is read line by line.
-/

namespace Pseudolang

/-! ## Looking no further than the line -/

/-- What the function finds in a text does not depend on what follows a line break. -/
def BreakBound {α : Type} (f : List Char → α) : Prop :=
  ∀ cs rest rest', f (cs ++ '\n' :: rest) = f (cs ++ '\n' :: rest')

section Readers

variable {p : Char → Bool}

lemma takeWhile_append_break (hp : ¬p '\n') (cs rest : List Char) :
    (cs ++ '\n' :: rest).takeWhile p = cs.takeWhile p := by
  induction cs with
  | nil => simp [hp]
  | cons c cs ih =>
    by_cases hc : p c
    · simp [hc, ih]
    · simp [hc]

lemma dropWhile_append_break (hp : ¬p '\n') (cs rest : List Char) :
    (cs ++ '\n' :: rest).dropWhile p = cs.dropWhile p ++ '\n' :: rest := by
  induction cs with
  | nil => simp [hp]
  | cons c cs ih =>
    by_cases hc : p c
    · simp [hc, ih]
    · simp [hc]

lemma breakBound_takeWhile (hp : ¬p '\n') : BreakBound (List.takeWhile p) := by
  intro cs rest rest'
  rw [takeWhile_append_break hp, takeWhile_append_break hp]

lemma breakBound_head? : BreakBound (List.head? : List Char → Option Char) := by
  intro cs rest rest'
  cases cs <;> rfl

lemma firstLine_cons (c : Char) (cs : List Char) :
    firstLine (c :: cs) =
      if c = '\n' ∨ c = '\r' ∧ cs.head? = some '\n' then [] else c :: firstLine cs := by
  split
  · next hends =>
    rcases hends with rfl | ⟨rfl, hhead⟩
    · simp [firstLine]
    · obtain ⟨ds, rfl⟩ := List.head?_eq_some_iff.1 hhead
      simp [firstLine]
  · next hgoes =>
    rw [firstLine]
    · exact fun hn => hgoes (.inl hn)
    · rintro ds rfl rfl
      exact hgoes (.inr ⟨rfl, rfl⟩)

lemma breakBound_firstLine : BreakBound firstLine := by
  intro cs rest rest'
  induction cs with
  | nil => simp [firstLine]
  | cons c cs ih =>
    rw [List.cons_append, List.cons_append, firstLine_cons, firstLine_cons, ih,
      breakBound_head? cs rest rest']

lemma breakBound_comment : BreakBound comment := by
  intro cs rest rest'
  match cs with
  | [] => rfl
  | [c] => simp [comment]
  | c :: d :: cs =>
    by_cases hcd : c = '/' ∧ d = '/'
    · obtain ⟨rfl, rfl⟩ := hcd
      simp only [List.cons_append, comment]
      rw [breakBound_takeWhile (by simp) cs rest rest']
    · have hnil (es : List Char) : comment (c :: d :: es) = [] :=
        comment_eq_nil fun hc hhead => hcd ⟨hc, by simpa using hhead⟩
      rw [List.cons_append, List.cons_append, hnil]
      exact (hnil _).symm

lemma breakBound_trivia : BreakBound trivia := by
  intro cs rest rest'
  have hblank : ¬isBlank '\n' := by decide
  rw [trivia, trivia, breakBound_takeWhile hblank cs rest rest', dropWhile_append_break hblank,
    dropWhile_append_break hblank, breakBound_comment _ rest rest']

end Readers

namespace Lexeme

lemma breakBound_readLess : BreakBound readLess := by
  intro cs rest rest'
  cases cs with
  | nil => rfl
  | cons c cs =>
    by_cases hminus : c = '-'
    · simp [readLess, hminus]
    by_cases hgreater : c = '>'
    · simp [readLess, hgreater]
    by_cases hequals : c = '='
    · simp [readLess, hequals]
    · simp [readLess, hminus, hgreater, hequals]

lemma breakBound_readGreater : BreakBound readGreater := by
  intro cs rest rest'
  cases cs with
  | nil => rfl
  | cons c cs =>
    by_cases hequals : c = '='
    · simp [readGreater, hequals]
    · simp [readGreater, hequals]

lemma breakBound_readString : BreakBound readString := by
  intro cs rest rest'
  rw [readString, readString, breakBound_firstLine cs rest rest']

lemma breakBound_readMalformedChar : BreakBound readMalformedChar := by
  intro cs rest rest'
  rw [readMalformedChar, readMalformedChar, breakBound_firstLine cs rest rest']

/-- A quote before a line break is malformed, also when another one stands behind the break. -/
lemma readChar_break (rest : List Char) :
    readChar ('\n' :: rest) = readMalformedChar ('\n' :: rest) := by
  unfold readChar
  split
  · next h => simp at h
  · next h =>
    obtain ⟨rfl, rfl⟩ := List.cons.inj h
    rw [if_pos rfl]
  · rfl

lemma breakBound_readChar : BreakBound readChar := by
  intro cs rest rest'
  match cs with
  | [] =>
    rw [List.nil_append, List.nil_append, readChar_break, readChar_break]
    exact breakBound_readMalformedChar [] rest rest'
  | [c] =>
    by_cases hc : c = '\''
    · simp [readChar, hc]
    · simpa [readChar, hc] using breakBound_readMalformedChar [c] rest rest'
  | c :: d :: cs =>
    have hmalformed := breakBound_readMalformedChar (c :: d :: cs) rest rest'
    by_cases hc : c = '\''
    · simp [readChar, hc]
    by_cases hd : d = '\''
    · subst hd
      simp only [List.cons_append] at hmalformed ⊢
      rw [readChar, readChar, hmalformed]
      · exact hc
      · exact hc
    · simpa [readChar, hc, hd] using hmalformed

lemma breakBound_read (c : Char) : BreakBound (read c) := by
  intro cs rest rest'
  have hnumber := breakBound_takeWhile (p := isNumberPart) (by decide) cs rest rest'
  have hword := breakBound_takeWhile (p := isWordPart) (by decide) cs rest rest'
  have hstarts : startsNumber c (cs ++ '\n' :: rest) = startsNumber c (cs ++ '\n' :: rest') := by
    rw [startsNumber, startsNumber, breakBound_head? cs rest rest']
  rw [read, read, breakBound_readLess cs rest rest', breakBound_readGreater cs rest rest',
    breakBound_readString cs rest rest', breakBound_readChar cs rest rest', hstarts, hnumber, hword]

end Lexeme

/-! ## Moving a cursor -/

namespace Cursor

/-- The cursor with more text after the unread one. -/
def extend (more : List Char) (c : Cursor) : Cursor :=
  { c with rest := c.rest ++ more }

/-- The cursor a number of lines further down. -/
def shift (k : ℕ) (c : Cursor) : Cursor :=
  { c with line := c.line + k }

/-- The cursor at the end of the text. -/
def finish (c : Cursor) : Cursor :=
  c.skip c.rest.length

variable {c : Cursor} {more : List Char}

@[simp] lemma rest_extend (more : List Char) (c : Cursor) :
    (c.extend more).rest = c.rest ++ more := rfl

@[simp] lemma rest_shift (k : ℕ) (c : Cursor) : (c.shift k).rest = c.rest := rfl

/-- One character, and what passing it does to the line and the column. -/
lemma skip_succ_cons {x : Char} {cs : List Char} (h : c.rest = x :: cs) (n : ℕ) :
    c.skip (n + 1) =
      if x = '\n' then skip n ⟨cs, c.line + 1, 0⟩ else skip n ⟨cs, c.line, c.column + 1⟩ := by
  rw [skip]
  split
  · next hnil =>
    rw [h] at hnil
    cases hnil
  · next hcons =>
    obtain ⟨rfl, rfl⟩ := List.cons.inj (h.symm.trans hcons)
    rw [if_pos rfl]
  · next hbreak hcons =>
    obtain ⟨rfl, rfl⟩ := List.cons.inj (h.symm.trans hcons)
    rw [if_neg fun hx => hbreak hx]

lemma skip_of_rest_eq_nil (h : c.rest = []) (n : ℕ) : c.skip n = c := by
  cases n with
  | zero => rfl
  | succ n =>
    rw [skip]
    split
    · rfl
    · next hcons => simp [h] at hcons
    · next hcons => simp [h] at hcons

lemma skip_skip (m n : ℕ) (c : Cursor) : (c.skip m).skip n = c.skip (m + n) := by
  induction m generalizing c with
  | zero => rw [Nat.zero_add, skip]
  | succ m ih =>
    cases hrest : c.rest with
    | nil => simp only [skip_of_rest_eq_nil hrest]
    | cons x cs =>
      rw [Nat.succ_add, skip_succ_cons hrest, skip_succ_cons hrest]
      split
      · exact ih _
      · exact ih _

lemma skip_extend (more : List Char) {n : ℕ} (hn : n ≤ c.rest.length) :
    (c.extend more).skip n = (c.skip n).extend more := by
  induction n generalizing c with
  | zero => rfl
  | succ n ih =>
    cases hrest : c.rest with
    | nil => simp [hrest] at hn
    | cons x cs =>
      have hextend : (c.extend more).rest = x :: (cs ++ more) := by simp [hrest]
      have hle : n ≤ cs.length := by simpa [hrest] using hn
      rw [skip_succ_cons hrest, skip_succ_cons hextend]
      split
      · exact ih (c := ⟨cs, c.line + 1, 0⟩) hle
      · exact ih (c := ⟨cs, c.line, c.column + 1⟩) hle

lemma skip_shift (k n : ℕ) (c : Cursor) : (c.shift k).skip n = (c.skip n).shift k := by
  induction n generalizing c with
  | zero => rfl
  | succ n ih =>
    cases hrest : c.rest with
    | nil => rw [skip_of_rest_eq_nil hrest, skip_of_rest_eq_nil (c := c.shift k) hrest]
    | cons x cs =>
      rw [skip_succ_cons hrest, skip_succ_cons (c := c.shift k) hrest]
      split
      · rw [← ih, shift, shift, Nat.add_right_comm]
      · rw [← ih]
        rfl

/-- A text without line breaks moves the cursor to the right. -/
lemma skip_of_append {t r : List Char} (h : c.rest = t ++ r) (hn : '\n' ∉ t) :
    c.skip t.length = ⟨r, c.line, c.column + t.length⟩ := by
  induction t generalizing c with
  | nil =>
    obtain ⟨rest, line, column⟩ := c
    obtain rfl : rest = r := h
    rfl
  | cons x t ih =>
    rw [List.mem_cons, not_or] at hn
    rw [List.length_cons, skip_succ_cons h, if_neg (Ne.symm hn.1), ih rfl hn.2, Nat.add_assoc,
      Nat.add_comm 1]

lemma line_skip (n : ℕ) (c : Cursor) :
    (c.skip n).line = c.line + (c.rest.take n).count '\n' := by
  induction n generalizing c with
  | zero => simp [skip]
  | succ n ih =>
    cases hrest : c.rest with
    | nil => simp [skip_of_rest_eq_nil hrest]
    | cons x cs =>
      rw [skip_succ_cons hrest, List.take_succ_cons, List.count_cons]
      by_cases hx : x = '\n'
      · simp [hx, ih]
        omega
      · simp [hx, ih]

/-- Behind a line break a new line starts. -/
lemma finish_of_break {cs : List Char} (h : c.rest = cs ++ ['\n']) :
    c.finish = ⟨[], c.line + cs.count '\n' + 1, 0⟩ := by
  have hrest : (c.skip cs.length).rest = ['\n'] := by simp [h]
  have hline : (c.skip cs.length).line = c.line + cs.count '\n' := by simp [line_skip, h]
  rw [finish, h, List.length_append, List.length_singleton, ← skip_skip, skip_succ_cons hrest,
    if_pos rfl, hline]
  rfl

/-! ## The next token -/

lemma length_trivia_le (cs : List Char) : (trivia cs).length ≤ cs.length :=
  (trivia_isPrefix cs).length_le

lemma skipTrivia_eq (c : Cursor) :
    c.skipTrivia = ⟨c.skipTrivia.rest, c.line, c.column + (trivia c.rest).length⟩ := by
  obtain ⟨hgap, hrest⟩ := c.gap_skipTrivia
  exact skip_of_append hrest hgap.newline_notMem

lemma next_of_cons {x : Char} {cs : List Char} (h : c.skipTrivia.rest = x :: cs) :
    c.next = ((Lexeme.read x cs).toToken c.skipTrivia.position,
      c.skipTrivia.skip (Lexeme.read x cs).text.length) := by
  simp only [next]
  split
  · next hnil =>
    rw [h] at hnil
    cases hnil
  · next hcons =>
    obtain ⟨rfl, rfl⟩ := List.cons.inj (h.symm.trans hcons)
    rfl

/-- The cursor after a token is some characters further on. -/
lemma exists_next_eq_skip (c : Cursor) : ∃ n ≤ c.rest.length, c.next.2 = c.skip n := by
  have htrivia := length_trivia_le c.rest
  cases hrest : c.skipTrivia.rest with
  | nil =>
    rw [next_of_skipTrivia_eq_nil hrest]
    exact ⟨_, htrivia, rfl⟩
  | cons x cs =>
    have hread := (Lexeme.read_text_isPrefix x cs).length_le
    have hlength := congrArg List.length hrest
    rw [rest_skipTrivia, List.length_drop] at hlength
    rw [next_of_cons hrest, skipTrivia, skip_skip]
    exact ⟨_, by omega, rfl⟩

lemma finish_next (c : Cursor) : c.next.2.finish = c.finish := by
  obtain ⟨n, hn, hnext⟩ := c.exists_next_eq_skip
  rw [hnext, finish, finish, skip_skip, rest_skip, List.length_drop, Nat.add_sub_cancel' hn]

lemma next_shift (k : ℕ) (c : Cursor) :
    (c.shift k).next = (c.next.1.shift k, c.next.2.shift k) := by
  have hskip : (c.shift k).skipTrivia = c.skipTrivia.shift k := skip_shift ..
  cases hrest : c.skipTrivia.rest with
  | nil =>
    rw [next_of_skipTrivia_eq_nil hrest,
      next_of_skipTrivia_eq_nil (c := c.shift k) (by rw [hskip, rest_shift, hrest]), hskip]
    rfl
  | cons x cs =>
    rw [next_of_cons hrest, next_of_cons (c := c.shift k) (by rw [hskip, rest_shift, hrest]), hskip,
      skip_shift]
    rfl

/-- Before a line break there is something to read. -/
lemma exists_skipTrivia_eq {cs : List Char} (h : c.rest = cs ++ ['\n']) :
    ∃ ds, c.skipTrivia.rest = ds ++ ['\n'] := by
  obtain ⟨hgap, hrest⟩ := c.gap_skipTrivia
  have hle : (trivia c.rest).length ≤ cs.length := by
    by_contra hlt
    have hwhole : trivia c.rest = c.rest := by
      refine (trivia_isPrefix c.rest).eq_of_length_le ?_
      simp only [h, List.length_append, List.length_singleton] at hlt ⊢
      omega
    exact hgap.newline_notMem (by rw [hwhole, h]; simp)
  exact ⟨cs.drop (trivia c.rest).length, by rw [rest_skipTrivia, h, List.drop_append_of_le_length
    (by rwa [h] at hle)]⟩

lemma next_extend (more : List Char) {cs : List Char} (h : c.rest = cs ++ ['\n']) :
    (c.extend more).next = (c.next.1, c.next.2.extend more) := by
  have htrivia : trivia (c.rest ++ more) = trivia c.rest := by
    rw [h, List.append_assoc]
    exact breakBound_trivia cs more []
  have hskip : (c.extend more).skipTrivia = c.skipTrivia.extend more := by
    rw [skipTrivia, rest_extend, htrivia, skip_extend more (length_trivia_le _)]
    rfl
  obtain ⟨ds, hds⟩ := exists_skipTrivia_eq h
  cases hrest : c.skipTrivia.rest with
  | nil => simp [hrest] at hds
  | cons x es =>
    have hread : Lexeme.read x (es ++ more) = Lexeme.read x es := by
      rw [hrest] at hds
      cases ds with
      | nil =>
        obtain ⟨rfl, rfl⟩ := List.cons.inj hds
        rfl
      | cons d ds =>
        obtain ⟨rfl, hes⟩ := List.cons.inj hds
        rw [hes, List.append_eq, List.append_assoc]
        exact Lexeme.breakBound_read x ds more []
    have hle : (Lexeme.read x es).text.length ≤ c.skipTrivia.rest.length := by
      rw [hrest]
      exact (Lexeme.read_text_isPrefix x es).length_le
    have hrest' : (c.extend more).skipTrivia.rest = x :: (es ++ more) := by
      rw [hskip, rest_extend, hrest, List.cons_append]
    rw [next_of_cons hrest', next_of_cons hrest, hread, hskip, skip_extend more hle]
    rfl

/-! ## All tokens -/

lemma tokens_shift (k : ℕ) (c : Cursor) :
    TokenStream.tokens (c.shift k) = (TokenStream.tokens c).map (Token.shift k) := by
  refine TokenStream.tokens_map (f := Token.shift k) (R := fun c c' : Cursor => c' = c.shift k)
    (fun _ => rfl) ?_ rfl
  rintro c _ rfl
  have hnext : TokenStream.next (c.shift k) = (c.next.1.shift k, c.next.2.shift k) :=
    next_shift k c
  rw [hnext]
  exact ⟨rfl, rfl⟩

/-- The last token before the end of the text is the line break, where the text ends with one. -/
lemma kind_next_of_finished {cs : List Char} (h : c.rest = cs ++ ['\n'])
    (hnext : c.next.2.rest = []) : c.next.1.kind = .endOfLine := by
  obtain ⟨ds, hds⟩ := exists_skipTrivia_eq h
  have hf : c.next.1.kind ≠ .endOfFile := by
    intro hf
    simp [c.rest_skipTrivia_eq_nil hf] at hds
  have htext := c.rest_skipTrivia_eq hf
  rw [hnext, List.append_nil, hds] at htext
  by_contra hl
  exact (keepsLine_next c).2 hl (show '\n' ∈ c.next.1.text.toList by simp [← htext])

/-- A text that ends with a line break, or is empty, is cut from what follows it: its tokens but for
the end of file are taken first, the last of them being the break, and then those of what
follows. -/
lemma tokens_extend (more : List Char) (c : Cursor) (h : ∀ x ∈ c.rest.getLast?, x = '\n') :
    ∃ ts e, TokenStream.tokens c = ts ++ [e] ∧ e.kind = .endOfFile ∧
      (ts = [] → c.rest = []) ∧ (∀ t ∈ ts.getLast?, t.kind = .endOfLine) ∧
      TokenStream.tokens (c.extend more) = ts ++ TokenStream.tokens (c.finish.extend more) := by
  rcases List.eq_nil_or_concat' c.rest with hnil | ⟨cs, x, hrest⟩
  · have hf : (TokenStream.next c).1.kind = .endOfFile := by
      show c.next.1.kind = .endOfFile
      rw [next_of_skipTrivia_eq_nil (by rw [rest_skipTrivia, hnil]; rfl)]
    refine ⟨[], _, TokenStream.tokens_of_endOfFile hf, hf, fun _ => hnil, by simp, ?_⟩
    rw [finish, hnil]
    rfl
  · obtain rfl : x = '\n' := h x (by simp [hrest])
    obtain ⟨n, -, hskip⟩ := c.exists_next_eq_skip
    have hf : (TokenStream.next c).1.kind ≠ .endOfFile := by
      obtain ⟨ds, hds⟩ := exists_skipTrivia_eq hrest
      intro hf
      simp [c.rest_skipTrivia_eq_nil hf] at hds
    have hlt := TokenStream.remaining_next_lt c hf
    have hterminated : ∀ x ∈ c.next.2.rest.getLast?, x = '\n' := by
      intro x hx
      rw [hskip, rest_skip, List.getLast?_drop] at hx
      split at hx
      · cases hx
      · exact h x hx
    obtain ⟨ts, e, htokens, he, hnil, hlast, hextend⟩ := tokens_extend more c.next.2 hterminated
    have hextended := next_extend more hrest
    refine ⟨c.next.1 :: ts, e, ?_, he, by simp, ?_, ?_⟩
    · rw [TokenStream.tokens_of_ne_endOfFile hf]
      exact congrArg (c.next.1 :: ·) htokens
    · intro t ht
      cases ts with
      | nil =>
        obtain rfl : c.next.1 = t := by simpa using ht
        exact kind_next_of_finished hrest (hnil rfl)
      | cons u us => exact hlast t (by simpa [List.getLast?_cons_cons] using ht)
    · have hf' : (TokenStream.next (c.extend more)).1.kind ≠ .endOfFile := by
        show (c.extend more).next.1.kind ≠ _
        rw [hextended]
        exact hf
      rw [TokenStream.tokens_of_ne_endOfFile hf']
      show (c.extend more).next.1 :: TokenStream.tokens (c.extend more).next.2 = _
      rw [hextended, hextend, finish_next]
      rfl
termination_by TokenStream.remaining c

end Cursor

/-- The number of lines of the text: a text after it, with a line break between them, starts so many
lines further down. -/
def lineCount (text : String) : ℕ :=
  1 + text.toList.count '\n'

/-- The tokens of two texts with a line break between them. -/
lemma tokenize_append (a b : String) :
    ∃ before last, tokenize (a ++ "\n") = before ++ [last] ∧ last.kind = .endOfFile ∧
      (∃ ts t, before = ts ++ [t] ∧ t.endsStatement) ∧
      tokenize (a ++ "\n" ++ b) =
        before ++ (tokenize b).map (Token.shift (lineCount a)) := by
  have hrest : (Cursor.ofSource (a ++ "\n")).rest = a.toList ++ ['\n'] := by
    simp [Cursor.ofSource]
  obtain ⟨ts, e, htokens, he, hnil, hlast, hextend⟩ :=
    Cursor.tokens_extend b.toList (Cursor.ofSource (a ++ "\n")) (by simp [hrest])
  have hsource : Cursor.ofSource (a ++ "\n" ++ b) =
      (Cursor.ofSource (a ++ "\n")).extend b.toList := by
    simp [Cursor.ofSource, Cursor.extend]
  have hfinish : (Cursor.ofSource (a ++ "\n")).finish.extend b.toList =
      (Cursor.ofSource b).shift (lineCount a) := by
    rw [Cursor.finish_of_break hrest]
    simp [Cursor.extend, Cursor.shift, Cursor.ofSource, lineCount, Nat.add_comm]
  refine ⟨ts, e, htokens, he, ?_, ?_⟩
  · rcases List.eq_nil_or_concat' ts with hts | ⟨us, t, rfl⟩
    · simp [hnil hts] at hrest
    · refine ⟨us, t, rfl, ?_⟩
      simp [Token.endsStatement, hlast t (by simp), Kind.endsStatement]
  · rw [tokenize, hsource, hextend, hfinish, Cursor.tokens_shift]
    rfl

/-! ## Outcomes of lines -/

/-- The outcome of a line that stands so many lines further down. -/
def Outcome.shift (k : ℕ) : Outcome → Outcome
  | .ok s => .ok (s.shift k)
  | .error d => .error (d.shift k)

lemma Moves.eq_shift {k : ℕ} {ts : List Token} {x y : Outcome}
    (h : Moves (Token.shift k) (Statement.mapTokens (Token.shift k)) ts x y) : y = x.shift k := by
  cases h with
  | ok s => rfl
  | error mem cause => rfl

/-- A line further down has the same outcome further down. -/
lemma Line.outcome_map_shift (k : ℕ) {line : Line} (h : line.ending.Barrier) :
    (line.map (Token.shift k)).outcome = line.outcome.shift k :=
  (line.outcome_moves (Token.unplaced_shift k) h).eq_shift

lemma Program.ofOutcomes_append (xs ys : List Outcome) :
    ofOutcomes (xs ++ ys) = ⟨(ofOutcomes xs).statements ++ (ofOutcomes ys).statements,
      (ofOutcomes xs).diagnostics ++ (ofOutcomes ys).diagnostics⟩ := by
  induction xs with
  | nil => rfl
  | cons x xs ih => cases x <;> simp [ofOutcomes, ih]

lemma Program.ofOutcomes_shift (k : ℕ) (xs : List Outcome) :
    ofOutcomes (xs.map (Outcome.shift k)) = ⟨(ofOutcomes xs).statements.map (Statement.shift k),
      (ofOutcomes xs).diagnostics.map (Diagnostic.shift k)⟩ := by
  induction xs with
  | nil => rfl
  | cons x xs ih => cases x <;> simp [ofOutcomes, Outcome.shift, ih]

lemma tokenLines_append {t : Token} (ht : t.endsStatement) (ts us : List Token) :
    tokenLines (ts ++ t :: us) = tokenLines (ts ++ [t]) ++ tokenLines us := by
  rw [tokenLines, splitStatements_append ht, List.filter_append]
  rfl

/-- The token after a line of a source text is a barrier. -/
lemma barrier_of_mem_tokenLines {ts : List Token} (hp : ∀ t ∈ ts, t.Plain) {line : Line}
    (h : line ∈ tokenLines ts) : line.ending.Barrier := by
  obtain ⟨hends, -, hsublist⟩ := of_mem_splitStatements (List.mem_of_mem_filter h)
  exact (hp _ (hsublist.subset (by simp [Line.all]))).barrier hends

/-- The outcomes of two texts with a line break between them. -/
lemma outcomesOf_append (a b : String) :
    outcomesOf (a ++ "\n" ++ b) = outcomesOf (a ++ "\n") ++
      (outcomesOf b).map (Outcome.shift (lineCount a)) := by
  obtain ⟨-, last, htokens, hlast, ⟨ts, t, rfl, ht⟩, hwhole⟩ := tokenize_append a b
  have hends : last.endsStatement := by simp [Token.endsStatement, hlast, Kind.endsStatement]
  have hfirst : tokenLines (tokenize (a ++ "\n")) = tokenLines (ts ++ [t]) := by
    rw [htokens, List.append_assoc, List.singleton_append, tokenLines_append ht,
      tokenLines_cons_of_ends hends]
    exact List.append_nil _
  have hsecond : ∀ line ∈ tokenLines (tokenize b), line.ending.Barrier := fun line =>
    barrier_of_mem_tokenLines (forall_mem_tokenize Cursor.plain_next b)
  rw [outcomesOf_eq_map, outcomesOf_eq_map, outcomesOf_eq_map, hwhole, hfirst, List.append_assoc,
    List.singleton_append, tokenLines_append ht, tokenLines_map (Token.unplaced_shift _),
    List.map_append, List.map_map, List.map_map]
  congr 1
  exact List.map_congr_left fun line hline => Line.outcome_map_shift _ (hsecond line hline)

/-- **Lines are independent.**  A text may be cut at any line break: the tokens of the whole are
those of the first part, without the end of file, and then those of the second part, moved down by
the lines of the first.  The same holds of the statements and of the diagnostics. -/
theorem parse_append (a b : String) :
    (∃ before last, tokenize (a ++ "\n") = before ++ [last] ∧ last.kind = .endOfFile ∧
      tokenize (a ++ "\n" ++ b) = before ++ (tokenize b).map (Token.shift (lineCount a))) ∧
    (parse (a ++ "\n" ++ b)).statements = (parse (a ++ "\n")).statements ++
      (parse b).statements.map (Statement.shift (lineCount a)) ∧
    (parse (a ++ "\n" ++ b)).diagnostics = (parse (a ++ "\n")).diagnostics ++
      (parse b).diagnostics.map (Diagnostic.shift (lineCount a)) := by
  obtain ⟨before, last, htokens, hlast, -, hwhole⟩ := tokenize_append a b
  have hparse : parse (a ++ "\n" ++ b) =
      Program.ofOutcomes (outcomesOf (a ++ "\n") ++
        (outcomesOf b).map (Outcome.shift (lineCount a))) := by
    rw [parse_eq_ofOutcomes, outcomesOf_append]
  rw [Program.ofOutcomes_append, Program.ofOutcomes_shift] at hparse
  refine ⟨⟨before, last, htokens, hlast, hwhole⟩, ?_, ?_⟩
  · rw [hparse]
    rfl
  · rw [hparse]
    rfl

end Pseudolang
