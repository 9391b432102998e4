import Pseudolang.Proofs.Lexing
import Pseudolang.Proofs.Lookahead

/-!
# The layout of a source text

Between the tokens of a source text stand only blanks and comments.  `Gap` says what may be skipped
before a given text, a comment being skipped up to the end of its line and no further, and `Layout`
cuts a text into tokens with gaps before, between and after them.  Every source text is laid out so
by its tokens (`tokenize_layout`): no character is lost, none is read twice, and the line breaks of
the text are the tokens that end lines.
-/

namespace Pseudolang

/-! ## Gaps -/

/-- The first text may be skipped before the second one. -/
inductive Gap : List Char → List Char → Prop
  | nil {rest : List Char} : Gap [] rest
  | blank {c : Char} {gap rest : List Char} : c = ' ' ∨ c = '\t' ∨ c = '\r' → Gap gap rest →
      Gap (c :: gap) rest
  /-- A comment ends where its line does. -/
  | comment {body gap rest : List Char} : '\n' ∉ body → (∀ c ∈ (gap ++ rest).head?, c = '\n') →
      Gap gap rest → Gap ('/' :: '/' :: (body ++ gap)) rest

namespace Gap

variable {gap rest : List Char}

lemma append {blanks : List Char} (hblanks : ∀ c ∈ blanks, isBlank c) (h : Gap gap rest) :
    Gap (blanks ++ gap) rest := by
  induction blanks with
  | nil => exact h
  | cons c blanks ih =>
    rw [List.forall_mem_cons] at hblanks
    refine .blank ?_ (ih hblanks.2)
    simpa [isBlank, or_assoc] using hblanks.1

lemma newline_notMem (h : Gap gap rest) : '\n' ∉ gap := by
  induction h with
  | nil => simp
  | blank hc _ ih =>
    rcases hc with rfl | rfl | rfl
    all_goals simpa using ih
  | comment hbody _ _ ih => simp [hbody, ih]

end Gap

/-- The trivia at the front of a text may be skipped before what is left of it. -/
lemma gap_trivia (cs : List Char) : Gap (trivia cs) (cs.drop (trivia cs).length) := by
  rw [drop_trivia]
  refine .append (fun c hc => List.mem_takeWhile_imp hc) ?_
  rcases comment_cases (cs.dropWhile isBlank) with hnone | ⟨body, hcomment, hbody, hhead⟩
  · rw [hnone]
    exact .nil
  · have hgap : Gap ('/' :: '/' :: (body ++ [])) _ := .comment hbody hhead .nil
    rwa [List.append_nil, ← hcomment] at hgap

/-! ## Layouts -/

/-- The text consists of the texts of the tokens, in their order, with a gap before each of them and
one at the end. -/
inductive Layout : List Token → List Char → Prop
  | done {gap : List Char} : Gap gap [] → Layout [] gap
  | token {gap rest : List Char} {t : Token} {ts : List Token} :
      Gap gap (t.text.toList ++ rest) → Layout ts rest →
      Layout (t :: ts) (gap ++ (t.text.toList ++ rest))

/-! ## Line breaks -/

namespace Lexeme

lemma kind_ne_endOfFile (c : Char) (cs : List Char) : (read c cs).kind ≠ .endOfFile := by
  intro h
  exact read_text_ne_nil c cs (text_eq_of_kind h (by simp) (by simp) (by simp [Kind.isNative]))

lemma newline_notMem_readString (cs : List Char) : '\n' ∉ (readString cs).text := by
  have hline := newline_notMem_firstLine cs
  unfold readString
  split
  · next body h =>
    have hbody : '\n' ∉ body := fun hmem => hline ((throughQuote?_isPrefix h).subset hmem)
    simpa using hbody
  · simpa using hline

lemma newline_notMem_readMalformedChar (cs : List Char) : '\n' ∉ (readMalformedChar cs).text := by
  have hline := newline_notMem_firstLine cs
  cases h : throughQuote? '\'' (firstLine cs) with
  | none => simpa [readMalformedChar, h] using hline
  | some body =>
    have hbody : '\n' ∉ body := fun hmem => hline ((throughQuote?_isPrefix h).subset hmem)
    simpa [readMalformedChar, h] using hbody

lemma newline_notMem_readChar (cs : List Char) : '\n' ∉ (readChar cs).text := by
  unfold readChar
  split
  · simp
  · split
    · exact newline_notMem_readMalformedChar _
    · next hc => simpa using Ne.symm hc
  · exact newline_notMem_readMalformedChar _

/-- No lexeme but the line break itself holds a line break. -/
lemma newline_notMem_read {c : Char} (cs : List Char) (hc : c ≠ '\n') :
    '\n' ∉ (read c cs).text := by
  have single : '\n' ∉ [c] := by simpa using Ne.symm hc
  have run {p : Char → Bool} (hp : ¬p '\n') : '\n' ∉ c :: cs.takeWhile p := by
    rw [List.mem_cons, not_or]
    exact ⟨Ne.symm hc, fun h => hp (List.mem_takeWhile_imp h)⟩
  refine read_cases (P := fun l => '\n' ∉ l.text) c cs (fun _ _ => single) ?_ ?_
    (fun _ => newline_notMem_readString cs) (fun _ => newline_notMem_readChar cs) ?_ ?_ single
  · intro _
    unfold readLess
    split <;> simp
  · intro _
    unfold readGreater
    split <;> simp
  · intro _
    rw [ofNumber_text]
    exact run (by decide)
  · intro _
    rw [ofWord_text]
    exact run (by decide)

end Lexeme

/-- The token is a line break, or holds none. -/
def Token.KeepsLine (t : Token) : Prop :=
  (t.kind = .endOfLine → t.text = "\n") ∧ (t.kind ≠ .endOfLine → '\n' ∉ t.text.toList)

lemma Lexeme.keepsLine_toToken (c : Char) (cs : List Char) (p : Position) :
    ((read c cs).toToken p).KeepsLine := by
  by_cases hc : c = '\n'
  · subst hc
    exact ⟨fun _ => rfl, fun h => absurd rfl h⟩
  · have htext := newline_notMem_read cs hc
    constructor
    · intro hk
      have htext' : (read c cs).text = ['\n'] :=
        text_eq_of_kind hk (by simp) (by simp) (by simp [Kind.isNative])
      simp [htext'] at htext
    · intro _
      simpa [toToken] using htext

lemma Cursor.keepsLine_next (c : Cursor) : (TokenStream.next c).1.KeepsLine := by
  show c.next.1.KeepsLine
  simp only [next]
  split
  · exact ⟨fun h => Kind.noConfusion h, fun _ => List.not_mem_nil⟩
  · exact Lexeme.keepsLine_toToken ..

/-- In a text that is laid out by such tokens, the line breaks are the tokens that end lines. -/
lemma Layout.count_newline {ts : List Token} {cs : List Char} (h : Layout ts cs)
    (hts : ∀ t ∈ ts, t.KeepsLine) : cs.count '\n' = ts.countP (·.kind = .endOfLine) := by
  induction h with
  | done hgap => simp [List.count_eq_zero.2 hgap.newline_notMem]
  | @token gap rest t ts hgap _ ih =>
    rw [List.forall_mem_cons] at hts
    rw [List.count_append, List.count_append, List.count_eq_zero.2 hgap.newline_notMem,
      ih hts.2, List.countP_cons]
    by_cases hk : t.kind = .endOfLine
    · simp [hk, hts.1.1 hk, Nat.add_comm]
    · simp [hk, List.count_eq_zero.2 (hts.1.2 hk)]

/-! ## The layout of the tokens -/

namespace Cursor

/-- The unread text is a gap and what the cursor finds after the trivia. -/
lemma gap_skipTrivia (c : Cursor) :
    Gap (trivia c.rest) c.skipTrivia.rest ∧ c.rest = trivia c.rest ++ c.skipTrivia.rest := by
  rw [rest_skipTrivia]
  exact ⟨gap_trivia c.rest, (List.prefix_iff_eq_append.1 (trivia_isPrefix c.rest)).symm⟩

/-- What is found there is the text of the next token and the rest. -/
lemma rest_skipTrivia_eq (c : Cursor) (h : c.next.1.kind ≠ .endOfFile) :
    c.skipTrivia.rest = c.next.1.text.toList ++ c.next.2.rest := by
  cases hrest : c.skipTrivia.rest with
  | nil => exact absurd (by rw [next_of_skipTrivia_eq_nil hrest]) h
  | cons first cs =>
    obtain ⟨htoken, hdrop⟩ := next_of_skipTrivia hrest
    have htext : c.next.1.text = String.ofList (Lexeme.read first cs).text :=
      congrArg Token.text htoken
    rw [htext, hdrop, String.toList_ofList]
    exact (List.prefix_iff_eq_append.1 (Lexeme.read_text_isPrefix first cs)).symm

/-- Before the end of file nothing is found there. -/
lemma rest_skipTrivia_eq_nil (c : Cursor) (h : c.next.1.kind = .endOfFile) :
    c.skipTrivia.rest = [] := by
  cases hrest : c.skipTrivia.rest with
  | nil => rfl
  | cons first cs =>
    have hkind : c.next.1.kind = (Lexeme.read first cs).kind :=
      congrArg Token.kind (next_of_skipTrivia hrest).1
    exact absurd (hkind.symm.trans h) (Lexeme.kind_ne_endOfFile first cs)

end Cursor

/-- The tokens lay out the unread text: each step takes a gap and a token, and only a gap is left at
the end. -/
lemma layout_tokens (c : Cursor) :
    Layout ((TokenStream.tokens c).filter (·.kind ≠ .endOfFile)) c.rest := by
  fun_induction TokenStream.tokens c with
  | case1 c h =>
    obtain ⟨hgap, hrest⟩ := c.gap_skipTrivia
    rw [c.rest_skipTrivia_eq_nil h] at hgap hrest
    rw [List.filter_cons_of_neg (by simpa using h), List.filter_nil, hrest, List.append_nil]
    exact .done hgap
  | case2 c h _ ih =>
    obtain ⟨hgap, hrest⟩ := c.gap_skipTrivia
    rw [c.rest_skipTrivia_eq h] at hgap hrest
    rw [List.filter_cons_of_pos (by simpa using h), hrest]
    exact .token hgap ih

/-- **Nothing is lost between the tokens.**  A source text consists of the texts of its tokens, in
their order, with only blanks and comments before, between and after them.  A token that ends a line
is a line break, and no other token holds one, so that the line breaks of the text are these
tokens. -/
theorem tokenize_layout (source : String) :
    Layout ((tokenize source).filter (·.kind ≠ .endOfFile)) source.toList ∧
      (∀ t ∈ tokenize source, (t.kind = .endOfLine → t.text = "\n") ∧
        (t.kind ≠ .endOfLine → '\n' ∉ t.text.toList)) ∧
      source.toList.count '\n' = (tokenize source).countP (·.kind = .endOfLine) := by
  have hlayout : Layout _ source.toList := layout_tokens (Cursor.ofSource source)
  have hkeeps : ∀ t ∈ tokenize source, t.KeepsLine :=
    (Window.shows_tokens (Cursor.ofSource source)).forall_mem Cursor.keepsLine_next
  refine ⟨hlayout, hkeeps, ?_⟩
  rw [hlayout.count_newline fun t ht => hkeeps t (List.mem_filter.1 ht).1, List.countP_filter]
  refine List.countP_congr fun t _ => ?_
  by_cases hk : t.kind = .endOfLine
  · simp [hk]
  · simp [hk]

/-- A comment up to the end of its line, and a string that the text leaves open. -/
theorem tokenize_layout_comment :
    (tokenize "a\t// b\r\n\"c").map Token.text = ["a", "\n", "\"c", ""] ∧
      Layout ((tokenize "a\t// b\r\n\"c").filter (·.kind ≠ .endOfFile)) "a\t// b\r\n\"c".toList ∧
      ∀ t ∈ tokenize "a\t// b\r\n\"c", t.kind ≠ .endOfLine → '\n' ∉ t.text.toList :=
  ⟨by decide +kernel, (tokenize_layout _).1, fun t ht => ((tokenize_layout _).2.1 t ht).2⟩

end Pseudolang
