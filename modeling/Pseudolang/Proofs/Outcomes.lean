import Mathlib.Data.List.Dedup
import Mathlib.Data.List.Sort
import Pseudolang.Proofs.Diagnosis
import Pseudolang.Proofs.ExactPositions
import Pseudolang.Proofs.Statements.Printing

/-!
# One outcome for each line

A line of a text is filled if it holds a token other than the one that ends it (`filledLines`).
Every filled line comes to one outcome and no other line does: a statement whose tokens all stand on
the line, or a diagnostic at one of its tokens.  So the statements and the diagnostics stand in the
order of their lines, together they are as many as the filled lines, and the listing of a program
has one line for each of them (`parse_outcome_per_line`).

The lines into which the tokens fall are numbered from one on, and the numbers are those of the
text (`Cursor.line_of_mem_zipIdx`); without the blank lines they are the filled lines
(`filledLines_eq_map`).  What a line comes to is made from the tokens of that line alone, since that
is all a statement meets there (`Grammar.answers_statement`).  The same fact keeps line breaks out
of the listing: whatever a diagnostic quotes are texts of tokens that it met, and the end of a line
is quoted by name.
-/

namespace Pseudolang

open Pseudolang.Grammar

/-! ## Texts without line breaks -/

lemma newline_notMem_append {a b : String} :
    '\n' ∉ (a ++ b).toList ↔ '\n' ∉ a.toList ∧ '\n' ∉ b.toList := by
  rw [String.toList_append, List.mem_append, not_or]

lemma newline_notMem_toDigits (n : ℕ) : '\n' ∉ Nat.toDigits 10 n := fun h =>
  absurd (Nat.isDigit_of_mem_toDigits (by decide) (by decide) h) (by decide)

namespace Expr

mutual

lemma newline_notMem_text : ∀ e : Expr, (∀ t ∈ e.tokens, '\n' ∉ t.text.toList) →
    '\n' ∉ e.text.toList
  | atom token, h => h token (by simp [tokens])
  | unary operator operand, h => by
      rw [tokens, List.forall_mem_cons] at h
      have hoperand := newline_notMem_text operand h.2
      rw [text]
      split <;> simp [h.1, hoperand]
  | binary operator left right, h => by
      rw [tokens, List.forall_mem_append, List.forall_mem_cons] at h
      simp [text, h.2.1, newline_notMem_text left h.1, newline_notMem_text right h.2.2]
  | suffix operator operand, h => by
      rw [tokens, List.forall_mem_append, List.forall_mem_singleton] at h
      simp [text, h.2, newline_notMem_text operand h.1]
  | call callee arguments, h => by
      rw [tokens, List.forall_mem_cons] at h
      simp [text, h.1, (newline_notMem_listText arguments h.2).1]
  | index callee indexes, h => by
      rw [tokens, List.forall_mem_cons] at h
      simp [text, h.1, (newline_notMem_listText indexes h.2).1]

lemma newline_notMem_listText : ∀ es : List Expr,
    (∀ t ∈ allTokens es, '\n' ∉ t.text.toList) →
    '\n' ∉ (listText es).toList ∧ '\n' ∉ (tailText es).toList
  | [], _ => by simp [listText, tailText]
  | e :: es, h => by
      rw [allTokens, List.forall_mem_append] at h
      have he := newline_notMem_text e h.1
      simp [listText, tailText, he, (newline_notMem_listText es h.2).2]

end

end Expr

/-- What every token of a source text satisfies, the end of file after a line included: only the end
of a line holds a line break. -/
structure Token.Tidy (t : Token) : Prop where
  plain : t.Plain
  keepsLine : t.KeepsLine
  legal : t.fault = none ↔ t.kind ≠ .illegal

lemma Token.tidy_afterAll : afterAll.Tidy where
  plain h := by cases h
  keepsLine := ⟨fun h => Kind.noConfusion h, fun _ => List.not_mem_nil⟩
  legal := by simp [afterAll]

lemma Cursor.tidy_next (c : Cursor) : (TokenStream.next c).1.Tidy :=
  ⟨plain_next c, keepsLine_next c, fault_next c⟩

namespace Token.Tidy

variable {t : Token}

lemma newline_notMem_describe (h : t.Tidy) : '\n' ∉ t.describe.toList := by
  rw [describe]
  split
  · exact Kind.newline_notMem_describe t.kind
  · next hends =>
    refine h.keepsLine.2 fun hk => hends ?_
    rw [hk]
    rfl

/-- A token that can be taken does not end a line. -/
lemma newline_notMem_of_passable (h : t.Passable Tidy) : '\n' ∉ t.text.toList :=
  h.1.keepsLine.2 fun hk => h.2 (h.1.plain.barrier (by rw [endsStatement, hk]; rfl))

end Token.Tidy

/-- A cause at such a token quotes no line break. -/
lemma Cause.Describes.newline_notMem {c : Cause} {t : Token} (ht : t.Tidy)
    (h : c.Describes Token.Tidy t) : '\n' ∉ c.expected.toList ∧ '\n' ∉ c.found.toList := by
  cases h with
  | unexpectedToken expected line _ => exact ⟨line, ht.newline_notMem_describe⟩
  | invalidStatement _ =>
    exact ⟨show '\n' ∉ "a statement".toList by decide, ht.newline_notMem_describe⟩
  | illegalToken fault hfault =>
    have hexpected : '\n' ∉ fault.expected.toList := by cases fault <;> decide
    refine ⟨hexpected, ht.keepsLine.2 fun hk => ?_⟩
    rw [ht.legal.2 (by simp [hk])] at hfault
    cases hfault
  | invalidCallee left grouped hbracket htokens =>
    have hleft := left.newline_notMem_text fun u hu =>
      Token.Tidy.newline_notMem_of_passable (htokens u hu)
    have htext : '\n' ∉ t.text.toList := ht.keepsLine.2 <| by
      rcases hbracket with hk | hk
      · simp [hk]
      · simp [hk]
    refine ⟨newline_notMem_append.2 ⟨newline_notMem_append.2 ⟨by decide, htext⟩, by decide⟩, ?_⟩
    rw [Cause.found, calleeText]
    split
    · exact newline_notMem_append.2 ⟨newline_notMem_append.2 ⟨by decide, hleft⟩, by decide⟩
    · exact hleft
  | invalidLowerBound hliteral =>
    refine ⟨show '\n' ∉ "lower bound 1".toList by decide, ht.keepsLine.2 fun hk => ?_⟩
    simpa [hk, Kind.isNative] using ht.plain hliteral
  | nestingTooDeep =>
    refine ⟨newline_notMem_append.2 ⟨newline_notMem_append.2 ⟨by decide, ?_⟩, by decide⟩,
      ht.newline_notMem_describe⟩
    rw [Nat.toList_repr]
    exact newline_notMem_toDigits _

lemma Diagnostic.newline_notMem_text {d : Diagnostic} (h : d.Reports Token.Tidy) :
    '\n' ∉ d.text.toList := by
  obtain ⟨t, ht, -, hcause⟩ := h
  obtain ⟨hexpected, hfound⟩ := hcause.newline_notMem ht
  simp [text, Position.text, newline_notMem_toDigits, hexpected, hfound]

lemma Statement.newline_notMem_listing {s : Statement} (h : s.WellFormed) :
    '\n' ∉ s.listing.toList := by
  have hname : '\n' ∉ s.name.toList := by cases s <;> simp [name]
  simp [listing, hname, (exists_line h).1]

/-! ## What a line comes to -/

/-- All that is met from the start of a list are its tokens, and the end of file after them. -/
lemma Window.all_ofList {P : Token → Prop} {ts : List Token} (h : ∀ t ∈ ts, P t)
    (hend : P .afterAll) : (ofStream ts).All P := by
  intro j
  induction j generalizing ts with
  | zero =>
    cases ts with
    | nil => exact hend
    | cons t ts => exact h t (List.mem_cons_self ..)
  | succ j ih =>
    rw [← ahead_advance, advance_ofStream]
    refine ih fun t ht => ?_
    cases ts with
    | nil => cases ht
    | cons u us => exact h t (List.mem_cons_of_mem _ ht)

namespace Line

variable {line : Line} {s : Statement} {d : Diagnostic}

/-- The tokens of a statement are tokens of its line. -/
lemma mem_tokens_of_outcome (hending : line.ending.Barrier) (h : line.outcome = .ok s)
    {t : Token} (ht : t ∈ s.tokens) : t ∈ line.tokens := by
  have hw : (Window.ofStream line.all).All (fun t => t ∈ line.all ∨ t = .afterAll) :=
    Window.all_ofList (fun _ => .inl) (.inr rfl)
  obtain ⟨hmem, hclear⟩ := (answers_statement hw).ok h t ht
  rcases hmem with hmem | rfl
  · rcases List.mem_append.1 hmem with hmem | hmem
    · exact hmem
    · exact absurd (List.mem_singleton.1 hmem ▸ hending) hclear
  · exact absurd ⟨rfl, .inl rfl⟩ hclear

/-- What is wrong with a line is said in one line. -/
lemma newline_notMem_of_outcome (hline : ∀ t ∈ line.all, t.Tidy) (h : line.outcome = .error d) :
    '\n' ∉ d.text.toList :=
  d.newline_notMem_text
    ((answers_statement (Window.all_ofList hline Token.tidy_afterAll)).error h)

end Line

/-! ## The lines of a text by their numbers -/

/-- The numbers of the lines that hold a token other than the one that ends them. -/
def filledLines (source : String) : List ℕ :=
  (((tokenize source).filter fun t => !t.endsStatement).map fun t => t.position.line).dedup

/-- The lines that are not blank, each with its number. -/
def numberedLines (source : String) : List (Line × ℕ) :=
  ((splitStatements (tokenize source)).zipIdx 1).filter fun x => !x.1.tokens.isEmpty

/-- The lines of a stream hold all its tokens. -/
lemma TokenStream.flatMap_splitStatements {σ : Type} [TokenStream σ] (s : σ) :
    (splitStatements (tokens s)).flatMap Line.all = tokens s := by
  fun_induction tokens s with
  | case1 s hf =>
    have hends : (next s).1.endsStatement := by rw [Token.endsStatement, hf]; rfl
    simp [splitStatements, hends, Line.all]
  | case2 s _ _ ih =>
    rw [splitStatements]
    split
    · simp [Line.all, ih]
    · cases hlines : splitStatements (tokens (next s).2) with
      | nil =>
        obtain ⟨t, ht, -⟩ := exists_endsStatement_mem_tokens (next s).2
        rw [← ih, hlines] at ht
        cases ht
      | cons line lines =>
        rw [hlines, List.flatMap_cons] at ih
        rw [List.flatMap_cons, ← ih]
        rfl

section Numbers

variable {source : String}

lemma map_fst_numberedLines (source : String) :
    (numberedLines source).map Prod.fst = tokenLines (tokenize source) := by
  rw [tokenLines, ← List.zipIdx_map_fst 1 (splitStatements (tokenize source)), List.filter_map]
  rfl

lemma mem_tokenLines_of_mem_numberedLines {x : Line × ℕ} (h : x ∈ numberedLines source) :
    x.1 ∈ tokenLines (tokenize source) := by
  rw [← map_fst_numberedLines]
  exact List.mem_map_of_mem h

lemma sublist_of_mem_numberedLines {x : Line × ℕ} (h : x ∈ numberedLines source) :
    x.1.all.Sublist (tokenize source) :=
  (of_mem_splitStatements (List.fst_mem_of_mem_zipIdx (List.mem_of_mem_filter h))).2.2

lemma pairwise_numberedLines (source : String) :
    (numberedLines source).Pairwise fun x y => x.2 < y.2 := by
  refine List.Pairwise.sublist List.filter_sublist (List.pairwise_map.1 ?_)
  rw [List.zipIdx_map_snd]
  exact List.pairwise_lt_range'

/-- A numbered line is a line of the text: its tokens, of which there are some, are tokens of the
text on the line of the number, and the last of them is the only one that ends a statement. -/
lemma of_mem_numberedLines {x : Line × ℕ} (h : x ∈ numberedLines source) :
    x.1.tokens ≠ [] ∧ x.1.ending.Barrier ∧ (∀ t ∈ x.1.tokens, ¬t.endsStatement) ∧
      ∀ t ∈ x.1.all, t ∈ tokenize source ∧ t.position.line = x.2 := by
  obtain ⟨hmem, hfilled⟩ := List.mem_filter.1 h
  obtain ⟨hends, hin, hsublist⟩ := of_mem_splitStatements (List.fst_mem_of_mem_zipIdx hmem)
  have hending : x.1.ending ∈ tokenize source := hsublist.subset (by simp [Line.all])
  refine ⟨by simpa using hfilled,
    (forall_mem_tokenize Cursor.plain_next source _ hending).barrier hends, hin,
    fun t ht => ⟨hsublist.subset ht, ?_⟩⟩
  exact (Cursor.ofSource source).line_of_mem_zipIdx x hmem t ht

/-- Every token that does not end a statement stands on a numbered line. -/
lemma exists_mem_numberedLines {t : Token} (ht : t ∈ tokenize source) (hin : ¬t.endsStatement) :
    ∃ x ∈ numberedLines source, t ∈ x.1.all := by
  rw [tokenize, ← TokenStream.flatMap_splitStatements, List.mem_flatMap] at ht
  obtain ⟨line, hline, ht⟩ := ht
  rw [← List.zipIdx_map_fst 1 (splitStatements _), List.mem_map] at hline
  obtain ⟨x, hx, rfl⟩ := hline
  refine ⟨x, List.mem_filter.2 ⟨hx, ?_⟩, ht⟩
  obtain ⟨hends, -, -⟩ := of_mem_splitStatements (List.fst_mem_of_mem_zipIdx hx)
  rcases List.mem_append.1 ht with ht | ht
  · simpa using List.ne_nil_of_mem ht
  · exact absurd (List.mem_singleton.1 ht ▸ hends) hin

lemma mem_filledLines {n : ℕ} :
    n ∈ filledLines source ↔
      ∃ t ∈ tokenize source, ¬t.endsStatement ∧ t.position.line = n := by
  simp [filledLines, and_assoc]

lemma pairwise_filledLines (source : String) : (filledLines source).Pairwise (· < ·) := by
  have hle : (tokenize source).Pairwise fun t u => t.position.line ≤ u.position.line :=
    (Cursor.pairwise_key (Cursor.ofSource source)).1.imp fun hlt =>
      (Prod.Lex.toLex_lt_toLex.1 hlt).elim le_of_lt fun h => h.1.le
  have hsorted : (filledLines source).Pairwise (· ≤ ·) :=
    (List.pairwise_map.2 (hle.sublist List.filter_sublist)).sublist (List.dedup_sublist _)
  exact (hsorted.and (List.nodup_dedup _)).imp fun h => lt_of_le_of_ne h.1 h.2

/-- The numbers of the lines that are not blank are the lines on which tokens stand.  Both lists are
in order, so that it is enough to compare their members. -/
lemma filledLines_eq_map (source : String) :
    filledLines source = (numberedLines source).map Prod.snd := by
  refine (pairwise_filledLines source).eq_of_mem_iff
    (List.pairwise_map.2 (pairwise_numberedLines source)) fun n => ?_
  rw [mem_filledLines, List.mem_map]
  constructor
  · rintro ⟨t, ht, hin, rfl⟩
    obtain ⟨x, hx, htx⟩ := exists_mem_numberedLines ht hin
    exact ⟨x, hx, ((of_mem_numberedLines hx).2.2.2 t htx).2.symm⟩
  · rintro ⟨x, hx, rfl⟩
    obtain ⟨hne, -, hin, hall⟩ := of_mem_numberedLines hx
    obtain ⟨t, ht⟩ := List.exists_mem_of_ne_nil _ hne
    obtain ⟨hmem, hline⟩ := hall t (List.mem_append_left _ ht)
    exact ⟨t, hmem, hin t ht, hline⟩

end Numbers

/-! ## Outcomes and their lines -/

/-- The outcome belongs to the line of the number: it is a statement that has all its tokens there,
or a diagnostic at one of the tokens there. -/
def Outcome.LiesOn (source : String) (n : ℕ) : Outcome → Prop
  | .ok s => s.tokens ≠ [] ∧ ∀ t ∈ s.tokens, t ∈ tokenize source ∧ t.position.line = n
  | .error d => ∃ t ∈ tokenize source, t.position = d.position ∧ d.position.line = n

lemma Statement.WellFormed.tokens_ne_nil {s : Statement} (h : s.WellFormed) : s.tokens ≠ [] := by
  cases s with
  | output es =>
    obtain ⟨hne, -⟩ := h
    obtain ⟨e, es, rfl⟩ := List.exists_cons_of_ne_nil hne
    cases e <;> simp [tokens, Expr.tokens]
  | _ => simp [tokens]

section Outcomes

variable {source : String}

lemma outcomesOf_eq_map_numberedLines (source : String) :
    outcomesOf source = (numberedLines source).map fun x => x.1.outcome := by
  rw [outcomesOf_eq_map, ← map_fst_numberedLines, List.map_map]
  rfl

/-- A statement of the program is what some line comes to. -/
lemma exists_line_of_mem_statements {s : Statement} (h : s ∈ (parse source).statements) :
    ∃ x ∈ numberedLines source, x.1.outcome = .ok s := by
  have hmem : .ok s ∈ outcomesOf source := Program.mem_statements_ofOutcomes.1 h
  rwa [outcomesOf_eq_map_numberedLines, List.mem_map] at hmem

/-- The diagnostics of the program are those that lines come to. -/
lemma mem_diagnostics_iff {d : Diagnostic} :
    d ∈ (parse source).diagnostics ↔ ∃ x ∈ numberedLines source, x.1.outcome = .error d := by
  have hdiagnostic (o : Outcome) : o.diagnostic? = some d ↔ o = .error d := by
    cases o <;> simp [Outcome.diagnostic?]
  rw [diagnostics_parse, outcomesOf_eq_map_numberedLines]
  simp [hdiagnostic]

/-- No token of a statement ends a line. -/
lemma not_endsStatement_of_mem_statements {s : Statement} (h : s ∈ (parse source).statements) :
    ∀ t ∈ s.tokens, ¬t.endsStatement := by
  obtain ⟨x, hx, houtcome⟩ := exists_line_of_mem_statements h
  obtain ⟨-, hending, hin, -⟩ := of_mem_numberedLines hx
  exact fun t ht => hin t (Line.mem_tokens_of_outcome hending houtcome ht)

/-- What a numbered line comes to belongs to the line of its number. -/
lemma liesOn_of_mem_numberedLines {x : Line × ℕ} (h : x ∈ numberedLines source) :
    Outcome.LiesOn source x.2 x.1.outcome := by
  obtain ⟨-, hending, -, hall⟩ := of_mem_numberedLines h
  cases houtcome : x.1.outcome with
  | ok s =>
    have hok : .ok s ∈ outcomesOf source := by
      rw [outcomesOf_eq_map_numberedLines, ← houtcome]
      exact List.mem_map_of_mem h
    have hmem : s ∈ (parse source).statements := Program.mem_statements_ofOutcomes.2 hok
    refine ⟨(wellFormed_of_mem_parse hmem).tokens_ne_nil, fun t ht => ?_⟩
    exact hall t (List.mem_append_left _ (Line.mem_tokens_of_outcome hending houtcome ht))
  | error d =>
    obtain ⟨t, ht, htd⟩ := Line.exists_mem_position hending houtcome
    obtain ⟨hmem, hline⟩ := hall t ht
    exact ⟨t, hmem, htd, htd ▸ hline⟩

/-- The outcomes stand in the order of their lines. -/
lemma pairwise_outcomesOf (source : String) :
    (outcomesOf source).Pairwise fun o o' =>
      ∃ n n', n < n' ∧ Outcome.LiesOn source n o ∧ Outcome.LiesOn source n' o' := by
  rw [outcomesOf_eq_map_numberedLines, List.pairwise_map]
  refine (List.Pairwise.and_mem.1 (pairwise_numberedLines source)).imp ?_
  rintro x y ⟨hx, hy, hlt⟩
  exact ⟨x.2, y.2, hlt, liesOn_of_mem_numberedLines hx, liesOn_of_mem_numberedLines hy⟩

lemma pairwise_statements (source : String) :
    (parse source).statements.Pairwise fun s s' =>
      ∀ t ∈ s.tokens, ∀ t' ∈ s'.tokens, t.position.line < t'.position.line := by
  rw [statements_parse]
  refine (pairwise_outcomesOf source).filterMap _ ?_
  rintro (d | s) (d' | s') ⟨n, n', hlt, ho, ho'⟩ r ⟨⟩ r' ⟨⟩ t ht t' ht'
  rw [(ho.2 t ht).2, (ho'.2 t' ht').2]
  exact hlt

lemma pairwise_diagnostics (source : String) :
    (parse source).diagnostics.Pairwise fun d d' => d.position.line < d'.position.line := by
  rw [diagnostics_parse]
  refine (pairwise_outcomesOf source).filterMap _ ?_
  rintro (d | s) (d' | s') ⟨n, n', hlt, ho, ho'⟩ r ⟨⟩ r' ⟨⟩
  obtain ⟨-, -, -, hline⟩ := ho
  obtain ⟨-, -, -, hline'⟩ := ho'
  rw [hline, hline']
  exact hlt

/-- A diagnostic stands at a token. -/
lemma exists_mem_tokenize_of_mem_diagnostics {d : Diagnostic}
    (h : d ∈ (parse source).diagnostics) : ∃ t ∈ tokenize source, t.position = d.position := by
  obtain ⟨x, hx, houtcome⟩ := mem_diagnostics_iff.1 h
  have hlies := liesOn_of_mem_numberedLines hx
  rw [houtcome] at hlies
  obtain ⟨t, ht, hposition, -⟩ := hlies
  exact ⟨t, ht, hposition⟩

/-- The tokens of a statement are tokens of the text. -/
lemma mem_tokenize_of_mem_statements {s : Statement} (h : s ∈ (parse source).statements)
    {t : Token} (ht : t ∈ s.tokens) : t ∈ tokenize source := by
  obtain ⟨x, hx, houtcome⟩ := exists_line_of_mem_statements h
  have hlies := liesOn_of_mem_numberedLines hx
  rw [houtcome] at hlies
  exact (hlies.2 t ht).1

/-- In a text that is not too long a diagnostic is kept with its position. -/
lemma kept_position_of_mem_diagnostics {d : Diagnostic} (hlength : source.length + 1 < UInt32.size)
    (h : d ∈ (parse source).diagnostics) : d.position.kept = d.position := by
  obtain ⟨t, ht, hposition⟩ := exists_mem_tokenize_of_mem_diagnostics h
  rw [← hposition, kept_position hlength ht]

/-- What is wrong with a text is said in lines. -/
lemma newline_notMem_of_mem_diagnostics {d : Diagnostic} (h : d ∈ (parse source).diagnostics) :
    '\n' ∉ d.text.toList := by
  obtain ⟨x, hx, houtcome⟩ := mem_diagnostics_iff.1 h
  obtain ⟨-, -, -, hall⟩ := of_mem_numberedLines hx
  exact Line.newline_notMem_of_outcome
    (fun t ht => forall_mem_tokenize Cursor.tidy_next source t (hall t ht).1) houtcome

end Outcomes

end Pseudolang
