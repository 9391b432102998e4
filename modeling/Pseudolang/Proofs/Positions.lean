import Mathlib.Data.List.Nodup
import Mathlib.Data.Prod.Lex
import Pseudolang.Proofs.Isolation

/-!
# Positions of tokens

The tokens of a text stand in the order of their positions (`Cursor.pairwise_key`), so that a
position belongs to one token at most (`eq_of_position_eq`).  A token stands on the line of the
cursor that reads it, and moves the cursor down by the line breaks of its own text
(`Cursor.line_next_eq`).  Hence the lines into which the tokens fall are the lines of the text: all
tokens of one of them, the token that ends it included, stand on the line of its number
(`Cursor.line_of_mem_zipIdx`).
-/

namespace Pseudolang

/-! ## The order of positions -/

/-- The position in the order of reading. -/
def Position.key (p : Position) : ℕ ×ₗ ℕ :=
  toLex (p.line, p.column)

lemma Position.order_of_key_lt {p q : Position} (h : p.key < q.key) : p.order q = .lt := by
  rcases Prod.Lex.toLex_lt_toLex.1 h with hline | ⟨hline, hcolumn⟩
  · rw [order, Nat.compare_eq_lt.2 hline]
    rfl
  · rw [order, Nat.compare_eq_eq.2 hline, Nat.compare_eq_lt.2 hcolumn]
    rfl

namespace Cursor

variable {c : Cursor}

lemma key_lt_of_skip_succ {x : Char} {cs : List Char} (h : c.rest = x :: cs) (n : ℕ)
    (ih : ∀ c : Cursor, c.position.key ≤ (c.skip n).position.key) :
    c.position.key < (c.skip (n + 1)).position.key := by
  rw [skip_succ_cons h]
  split
  · refine lt_of_lt_of_le ?_ (ih _)
    exact Prod.Lex.toLex_lt_toLex.2 (.inl (Nat.lt_succ_self _))
  · refine lt_of_lt_of_le ?_ (ih _)
    exact Prod.Lex.toLex_lt_toLex.2 (.inr ⟨rfl, Nat.lt_succ_self _⟩)

/-- A cursor does not move back. -/
lemma key_le_skip (n : ℕ) (c : Cursor) : c.position.key ≤ (c.skip n).position.key := by
  induction n generalizing c with
  | zero => exact le_refl _
  | succ n ih =>
    cases hrest : c.rest with
    | nil => rw [skip_of_rest_eq_nil hrest]
    | cons x cs => exact (key_lt_of_skip_succ hrest n ih).le

lemma key_lt_skip {n : ℕ} (hn : 0 < n) (h : c.rest ≠ []) :
    c.position.key < (c.skip n).position.key := by
  obtain ⟨x, cs, hrest⟩ := List.exists_cons_of_ne_nil h
  obtain ⟨m, rfl⟩ := Nat.exists_eq_succ_of_ne_zero hn.ne'
  exact key_lt_of_skip_succ hrest m (key_le_skip m)

/-- The next token stands where the trivia end. -/
lemma position_next (c : Cursor) : c.next.1.position = c.skipTrivia.position := by
  cases hrest : c.skipTrivia.rest with
  | nil => rw [next_of_skipTrivia_eq_nil hrest]
  | cons x cs =>
    rw [next_of_cons hrest]
    rfl

lemma key_next_lt (h : c.next.1.kind ≠ .endOfFile) :
    c.next.1.position.key < c.next.2.position.key := by
  rw [position_next]
  cases hrest : c.skipTrivia.rest with
  | nil => exact absurd (by rw [next_of_skipTrivia_eq_nil hrest]) h
  | cons x cs =>
    rw [next_of_cons hrest]
    exact key_lt_skip (List.length_pos_iff.2 (Lexeme.read_text_ne_nil x cs)) (by simp [hrest])

/-- The tokens stand in the order of their positions, none of them before the cursor. -/
lemma pairwise_key (c : Cursor) :
    (TokenStream.tokens c).Pairwise (fun t u => t.position.key < u.position.key) ∧
      ∀ t ∈ TokenStream.tokens c, c.position.key ≤ t.position.key := by
  have hfirst : c.position.key ≤ (TokenStream.next c).1.position.key := by
    show c.position.key ≤ c.next.1.position.key
    rw [position_next]
    exact key_le_skip _ c
  by_cases hf : (TokenStream.next c).1.kind = .endOfFile
  · rw [TokenStream.tokens_of_endOfFile hf]
    simpa using hfirst
  · have hremaining := TokenStream.remaining_next_lt c hf
    have hlt : (TokenStream.next c).1.position.key < (TokenStream.next c).2.position.key :=
      key_next_lt hf
    obtain ⟨hpairwise, hle⟩ := pairwise_key (TokenStream.next c).2
    rw [TokenStream.tokens_of_ne_endOfFile hf, List.pairwise_cons, List.forall_mem_cons]
    exact ⟨⟨fun t ht => hlt.trans_le (hle t ht), hpairwise⟩, hfirst,
      fun t ht => (hfirst.trans hlt.le).trans (hle t ht)⟩
termination_by TokenStream.remaining c

/-- Columns count from one. -/
lemma column_pos_next (c : Cursor) : 0 < (TokenStream.next c).1.position.column := by
  show 0 < c.next.1.position.column
  rw [position_next]
  exact Nat.succ_pos _

end Cursor

/-- The positions of the tokens of a text are all different. -/
lemma eq_of_position_eq {source : String} {t u : Token} (ht : t ∈ tokenize source)
    (hu : u ∈ tokenize source) (h : t.position = u.position) : t = u := by
  have hnodup : ((tokenize source).map fun t => t.position.key).Nodup :=
    List.pairwise_map.2 ((Cursor.pairwise_key (Cursor.ofSource source)).1.imp ne_of_lt)
  exact List.inj_on_of_nodup_map hnodup ht hu (congrArg Position.key h)

lemma nodup_tokenize (source : String) : (tokenize source).Nodup :=
  (Cursor.pairwise_key (Cursor.ofSource source)).1.imp fun hlt heq =>
    absurd (congrArg (fun t : Token => t.position.key) heq) hlt.ne

/-! ## Lines -/

namespace Cursor

variable {c c' : Cursor} {ts : List Token}

lemma line_skipTrivia (c : Cursor) : c.skipTrivia.line = c.line := by
  rw [skipTrivia_eq]

/-- The next token stands on the line of the cursor. -/
lemma line_position_next (c : Cursor) : c.next.1.position.line = c.line := by
  rw [position_next]
  exact line_skipTrivia c

/-- The cursor moves down by the line breaks of the token. -/
lemma line_next_eq (c : Cursor) :
    c.next.2.line = c.line + c.next.1.text.toList.count '\n' := by
  cases hrest : c.skipTrivia.rest with
  | nil =>
    rw [next_of_skipTrivia_eq_nil hrest]
    exact line_skipTrivia c
  | cons x cs =>
    rw [next_of_cons hrest, line_skip, hrest,
      ← List.prefix_iff_eq_take.1 (Lexeme.read_text_isPrefix x cs), line_skipTrivia]
    simp [Lexeme.toToken]

/-- A token that does not end the line leaves the cursor on it. -/
lemma line_next (h : c.next.1.kind ≠ .endOfLine) : c.next.2.line = c.line := by
  have htext : '\n' ∉ c.next.1.text.toList := (keepsLine_next c).2 h
  rw [line_next_eq, List.count_eq_zero.2 htext, Nat.add_zero]

lemma line_next_of_endOfLine (h : c.next.1.kind = .endOfLine) :
    c.next.2.line = c.line + 1 := by
  have htext : c.next.1.text = "\n" := (keepsLine_next c).1 h
  rw [line_next_eq, htext]
  simp

lemma line_of_yields (h : TokenStream.Yields c ts c') (hts : ∀ t ∈ ts, ¬t.endsStatement) :
    c'.line = c.line ∧ ∀ t ∈ ts, t.position.line = c.line := by
  induction ts generalizing c with
  | nil =>
    obtain rfl : c = c' := h
    exact ⟨rfl, by simp⟩
  | cons t ts ih =>
    obtain ⟨rfl, h⟩ := h
    rw [List.forall_mem_cons] at hts
    have hline : (TokenStream.next c).2.line = c.line := by
      refine line_next fun hk => hts.1 ?_
      rw [Token.endsStatement, show (TokenStream.next c).1.kind = .endOfLine from hk]
      rfl
    obtain ⟨hc', hrest⟩ := ih h hts.2
    rw [hline] at hc' hrest
    exact ⟨hc', List.forall_mem_cons.2 ⟨line_position_next c, hrest⟩⟩

lemma exists_eq_skip_of_yields (h : TokenStream.Yields c ts c') :
    ∃ n ≤ c.rest.length, c' = c.skip n := by
  induction ts generalizing c with
  | nil => exact ⟨0, Nat.zero_le _, h.symm⟩
  | cons t ts ih =>
    obtain ⟨m, hm, hnext⟩ := c.exists_next_eq_skip
    obtain ⟨n, hn, hc'⟩ := ih h.2
    change n ≤ c.next.2.rest.length at hn
    change c' = c.next.2.skip n at hc'
    rw [hnext, rest_skip, List.length_drop] at hn
    exact ⟨m + n, by omega, by rw [hc', hnext, skip_skip]⟩

/-- The lines of the tokens are numbered from the line of the cursor on, and all tokens of a line
stand on the line of its number. -/
lemma line_of_mem_zipIdx (c : Cursor) :
    ∀ x ∈ (splitStatements (TokenStream.tokens c)).zipIdx c.line,
      ∀ t ∈ x.1.all, t.position.line = x.2 := by
  have hfirst : (TokenStream.next c).1.position.line = c.line := line_position_next c
  by_cases hf : (TokenStream.next c).1.kind = .endOfFile
  · have hends : (TokenStream.next c).1.endsStatement := by rw [Token.endsStatement, hf]; rfl
    rw [TokenStream.tokens_of_endOfFile hf, splitStatements, if_pos hends]
    simpa [splitStatements, Line.all] using hfirst
  have hremaining := TokenStream.remaining_next_lt c hf
  have ih := line_of_mem_zipIdx (TokenStream.next c).2
  rw [TokenStream.tokens_of_ne_endOfFile hf, splitStatements]
  by_cases hends : (TokenStream.next c).1.endsStatement
  · have hl : (TokenStream.next c).1.kind = .endOfLine :=
      (Kind.eq_of_endsStatement hends).resolve_right hf
    have hline : (TokenStream.next c).2.line = c.line + 1 := line_next_of_endOfLine hl
    rw [hline] at ih
    rw [if_pos hends, List.zipIdx_cons, List.forall_mem_cons]
    exact ⟨by simpa [Line.all] using hfirst, ih⟩
  · have hline : (TokenStream.next c).2.line = c.line := by
      refine line_next fun hl => hends ?_
      rw [Token.endsStatement, show (TokenStream.next c).1.kind = .endOfLine from hl]
      rfl
    rw [hline] at ih
    rw [if_neg hends]
    split
    · simp
    · next line lines hlines =>
      -- the token joins the line after it, which keeps its number
      rw [hlines, List.zipIdx_cons, List.forall_mem_cons] at ih
      rw [List.zipIdx_cons, List.forall_mem_cons]
      exact ⟨List.forall_mem_cons.2 ⟨hfirst, ih.1⟩, ih.2⟩
termination_by TokenStream.remaining c

end Cursor

end Pseudolang
