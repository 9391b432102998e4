import Pseudolang.Proofs.Outcomes
import Pseudolang.Source

/-!
# Line endings

A text whose lines end with `\n` is read like the one whose lines end with `\r\n`.  The tokens of
the two are the same, and stand at the same positions, but for the line breaks, which stand one
column further to the right (`parse_crlf`).

A carriage return before a line break is a blank where tokens are looked for, part of a comment,
and part of the end of the line for what is quoted.  In the trivia it is the last character, if the
line ends there (`trivia_withReturns`).  The readers of lexemes do not notice it: they find the
same in both texts (`ReturnBlind`).  So the cursors of the two texts go along, with the same line
and column before each token (`Cursor.next_crlf`), and what is read moves along with the
tokens.
-/

namespace Pseudolang

/-! ## Carriage returns before line breaks -/

/-- The text with a carriage return before every line break. -/
def withReturns (cs : List Char) : List Char :=
  cs.flatMap fun c => if c = '\n' then ['\r', '\n'] else [c]

/-- The source text with a carriage return before every line break. -/
def crlf (source : String) : String :=
  String.ofList (withReturns source.toList)

/-- The carriage return that is put at the front of the text. -/
def returnAt (cs : List Char) : List Char :=
  if cs.head? = some '\n' then ['\r'] else []

section Returns

variable {c : Char} {cs rest : List Char}

@[simp] lemma withReturns_nil : withReturns [] = [] := rfl

@[simp] lemma withReturns_newline (cs : List Char) :
    withReturns ('\n' :: cs) = '\r' :: '\n' :: withReturns cs := rfl

lemma withReturns_cons (hc : c ≠ '\n') (cs : List Char) :
    withReturns (c :: cs) = c :: withReturns cs := by
  rw [withReturns, List.flatMap_cons, if_neg hc]
  rfl

/-- The first character stays in place, behind the carriage return that it gets. -/
lemma withReturns_cons_eq (c : Char) (cs : List Char) :
    withReturns (c :: cs) = returnAt (c :: cs) ++ c :: withReturns cs := by
  by_cases hc : c = '\n'
  · rw [hc]
    rfl
  · rw [withReturns_cons hc, returnAt, if_neg (by simpa using hc)]
    rfl

/-- A text without line breaks stays as it is. -/
lemma withReturns_append (h : '\n' ∉ cs) (rest : List Char) :
    withReturns (cs ++ rest) = cs ++ withReturns rest := by
  induction cs with
  | nil => rfl
  | cons c cs ih =>
    rw [List.mem_cons, not_or] at h
    rw [List.cons_append, withReturns_cons (Ne.symm h.1), ih h.2, List.cons_append]

lemma newline_notMem_returnAt (cs : List Char) : '\n' ∉ returnAt cs := by
  rw [returnAt]
  split <;> simp

end Returns

/-! ## Readers -/

/-- The function finds the same in a text without carriage returns and in the one with them. -/
def ReturnBlind {α : Type} (f : List Char → α) : Prop :=
  ∀ cs, '\r' ∉ cs → f (withReturns cs) = f cs

section Readers

variable {p : Char → Bool}

lemma returnBlind_takeWhile (hr : ¬p '\r') (hn : ¬p '\n') : ReturnBlind (List.takeWhile p) := by
  intro cs _
  induction cs with
  | nil => rfl
  | cons c cs ih =>
    by_cases hc : c = '\n'
    · simp [hc, hr, hn]
    · rw [withReturns_cons hc, List.takeWhile_cons, List.takeWhile_cons, ih (by simp_all)]

lemma returnBlind_any_head? (hr : ¬p '\r') (hn : ¬p '\n') :
    ReturnBlind fun cs => cs.head?.any p := by
  intro cs _
  cases cs with
  | nil => rfl
  | cons c cs =>
    by_cases hc : c = '\n'
    · simp [hc, hr, hn]
    · rw [withReturns_cons hc]
      rfl

lemma returnBlind_firstLine : ReturnBlind firstLine := by
  intro cs h
  induction cs with
  | nil => rfl
  | cons c cs ih =>
    rw [List.mem_cons, not_or] at h
    by_cases hc : c = '\n'
    · simp [hc, firstLine]
    · have hr : c ≠ '\r' := Ne.symm h.1
      rw [withReturns_cons hc, firstLine_cons, firstLine_cons, ih h.2]
      simp [hc, hr]

end Readers

namespace Lexeme

lemma returnBlind_readLess : ReturnBlind readLess := by
  intro cs _
  cases cs with
  | nil => rfl
  | cons c cs =>
    by_cases hc : c = '\n'
    · simp [hc, readLess]
    · rw [withReturns_cons hc]
      unfold readLess
      split <;> simp_all

lemma returnBlind_readGreater : ReturnBlind readGreater := by
  intro cs _
  cases cs with
  | nil => rfl
  | cons c cs =>
    by_cases hc : c = '\n'
    · simp [hc, readGreater]
    · rw [withReturns_cons hc]
      unfold readGreater
      split <;> simp_all

lemma returnBlind_readString : ReturnBlind readString := by
  intro cs h
  rw [readString, readString, returnBlind_firstLine cs h]

lemma returnBlind_readMalformedChar : ReturnBlind readMalformedChar := by
  intro cs h
  rw [readMalformedChar, readMalformedChar, returnBlind_firstLine cs h]

/-- A quote may stand right before the line break, or one character before it: in both cases the
carriage return is not the character that is quoted. -/
lemma returnBlind_readChar : ReturnBlind readChar := by
  intro cs h
  have hmalformed := returnBlind_readMalformedChar cs h
  cases cs with
  | nil => rfl
  | cons c cs =>
    by_cases hc : c = '\n'
    · subst hc
      rw [readChar_break, ← hmalformed]
      rfl
    rw [withReturns_cons hc] at hmalformed ⊢
    by_cases hquote : c = '\''
    · rw [hquote, readChar, readChar]
    cases cs with
    | nil => rfl
    | cons d cs =>
      by_cases hd : d = '\n'
      · subst hd
        simpa [readChar, hquote] using hmalformed
      · rw [withReturns_cons hd] at hmalformed ⊢
        by_cases hquote' : d = '\''
        · simp [readChar, hquote', hc]
        · simpa [readChar, hquote, hquote'] using hmalformed

lemma returnBlind_read (c : Char) : ReturnBlind (read c) := by
  intro cs h
  have hnumber := returnBlind_takeWhile (p := isNumberPart) (by decide) (by decide) cs h
  have hword := returnBlind_takeWhile (p := isWordPart) (by decide) (by decide) cs h
  have hdigit : (withReturns cs).head?.any Char.isDigit = cs.head?.any Char.isDigit :=
    returnBlind_any_head? (by decide) (by decide) cs h
  have hstarts : startsNumber c (withReturns cs) = startsNumber c cs := by
    rw [startsNumber, startsNumber, hdigit]
  rw [read, read, returnBlind_readLess cs h, returnBlind_readGreater cs h,
    returnBlind_readString cs h, returnBlind_readChar cs h, hstarts, hnumber, hword]

end Lexeme

/-! ## Trivia -/

/-- A comment takes the carriage return at the end of its line. -/
lemma takeWhile_withReturns (cs : List Char) :
    (withReturns cs).takeWhile (· ≠ '\n') =
      cs.takeWhile (· ≠ '\n') ++ returnAt (cs.dropWhile (· ≠ '\n')) := by
  induction cs with
  | nil => rfl
  | cons c cs ih =>
    by_cases hc : c = '\n'
    · simp [hc, returnAt]
    · simpa [withReturns_cons hc, hc] using ih

lemma head?_of_head?_withReturns {cs : List Char} {c : Char} (hc : c ≠ '\r')
    (h : (withReturns cs).head? = some c) : cs.head? = some c := by
  cases cs with
  | nil => cases h
  | cons d cs =>
    by_cases hd : d = '\n'
    · simp [hd, Ne.symm hc] at h
    · rwa [withReturns_cons hd] at h

lemma trivia_withReturns_of_not_isBlank {cs : List Char} (h : ∀ c ∈ cs.head?, ¬isBlank c) :
    trivia (withReturns cs) = trivia cs ++ returnAt (cs.drop (trivia cs).length) := by
  cases cs with
  | nil => rfl
  | cons c cs =>
    by_cases hc : c = '\n'
    · simp [hc, trivia, isBlank, comment, returnAt]
    rw [withReturns_cons hc]
    by_cases hslash : c = '/' ∧ cs.head? = some '/'
    · obtain ⟨rfl, hhead⟩ := hslash
      obtain ⟨cs, rfl⟩ := List.head?_eq_some_iff.1 hhead
      have hcomment (ds : List Char) :
          trivia ('/' :: '/' :: ds) = '/' :: '/' :: ds.takeWhile (· ≠ '\n') := by
        simp [trivia, isBlank, comment]
      rw [withReturns_cons (by decide), hcomment, hcomment, takeWhile_withReturns,
        ← drop_length_takeWhile]
      rfl
    · have hnone {ds : List Char} (hds : ds.head? = some '/' → cs.head? = some '/') :
          trivia (c :: ds) = [] :=
        trivia_eq_nil_iff.2 ⟨by simpa using h, comment_eq_nil fun hcs hhead =>
          hslash ⟨hcs, hds hhead⟩⟩
      rw [hnone id, hnone (head?_of_head?_withReturns (by decide))]
      simp [returnAt, hc]

/-- What is skipped ends with the carriage return, if what follows it is the line break. -/
lemma trivia_withReturns (cs : List Char) :
    trivia (withReturns cs) = trivia cs ++ returnAt (cs.drop (trivia cs).length) := by
  have hblank : ∀ c ∈ cs.takeWhile isBlank, isBlank c := fun c => List.mem_takeWhile_imp
  have hline : '\n' ∉ cs.takeWhile isBlank := fun hn => absurd (hblank _ hn) (by decide)
  conv_lhs => rw [← List.takeWhile_append_dropWhile (p := isBlank) (l := cs)]
  rw [withReturns_append hline, trivia_blanks_append hblank,
    trivia_withReturns_of_not_isBlank (not_of_head?_dropWhile isBlank cs)]
  conv_rhs => rw [← List.takeWhile_append_dropWhile (p := isBlank) (l := cs)]
  rw [trivia_blanks_append hblank, List.length_append, List.drop_length_add_append,
    List.append_assoc]

/-! ## Cursors -/

/-- The position one column further to the right. -/
def Position.right (p : Position) : Position :=
  { p with column := p.column + 1 }

/-- The token where it stands when a carriage return is put before every line break. -/
def Token.afterReturn (t : Token) : Token :=
  if t.kind = .endOfLine then { t with position := t.position.right } else t

lemma Token.afterReturn_of_ne {t : Token} (h : t.kind ≠ .endOfLine) : t.afterReturn = t :=
  if_neg h

lemma Token.unplaced_afterReturn (t : Token) : t.afterReturn.unplaced = t.unplaced := by
  rw [afterReturn]
  split <;> rfl

namespace Cursor

variable {c : Cursor}

/-- The cursor at the same place, with a carriage return before every line break to come. -/
def crlf (c : Cursor) : Cursor :=
  { c with rest := withReturns c.rest }

/-- Behind the trivia the two cursors stand at the same character, one of them behind the carriage
return before it. -/
lemma skipTrivia_crlf {x : Char} {cs : List Char} (h : c.skipTrivia.rest = x :: cs) :
    c.crlf.skipTrivia = ⟨x :: withReturns cs, c.skipTrivia.line,
      c.skipTrivia.column + (returnAt (x :: cs)).length⟩ := by
  obtain ⟨hgap, hrest⟩ := c.gap_skipTrivia
  have hdrop : c.rest.drop (trivia c.rest).length = x :: cs := by rw [← rest_skipTrivia, h]
  have htrivia : trivia c.crlf.rest = trivia c.rest ++ returnAt (x :: cs) := by
    rw [← hdrop]
    exact trivia_withReturns c.rest
  have hcrlf : c.crlf.rest = trivia c.crlf.rest ++ x :: withReturns cs := by
    rw [htrivia, List.append_assoc, ← withReturns_cons_eq, ← withReturns_append hgap.newline_notMem,
      ← h, ← hrest]
    rfl
  have hline : '\n' ∉ trivia c.crlf.rest := by
    rw [htrivia, List.mem_append, not_or]
    exact ⟨hgap.newline_notMem, newline_notMem_returnAt _⟩
  rw [skipTrivia, skip_of_append hcrlf hline, htrivia, c.skipTrivia_eq, List.length_append,
    ← Nat.add_assoc]
  rfl

lemma skipTrivia_crlf_of_nil (h : c.skipTrivia.rest = []) : c.crlf.skipTrivia = c.skipTrivia := by
  obtain ⟨hgap, hrest⟩ := c.gap_skipTrivia
  rw [h, List.append_nil] at hrest
  have hline : '\n' ∉ c.rest := hrest ▸ hgap.newline_notMem
  have hsame : c.crlf = c := by
    have hreturns := withReturns_append hline []
    rw [List.append_nil, withReturns_nil, List.append_nil] at hreturns
    rw [crlf, hreturns]
  rw [hsame]

/-- The two cursors give the same token, but that a line break stands one column further to the
right, and go on from the same place. -/
lemma next_crlf (hr : '\r' ∉ c.rest) : c.crlf.next = (c.next.1.afterReturn, c.next.2.crlf) := by
  cases hrest : c.skipTrivia.rest with
  | nil =>
    have hcrlf := skipTrivia_crlf_of_nil hrest
    rw [next_of_skipTrivia_eq_nil hrest, next_of_skipTrivia_eq_nil (by rw [hcrlf, hrest]), hcrlf,
      crlf, hrest, withReturns_nil, ← hrest]
    rfl
  | cons x cs =>
    have hcrlf := skipTrivia_crlf hrest
    have hmem : '\r' ∉ cs := fun hmem => hr <| by
      rw [c.gap_skipTrivia.2, hrest]
      exact List.mem_append_right _ (List.mem_cons_of_mem _ hmem)
    rw [next_of_cons hrest, next_of_cons (c := c.crlf) (by rw [hcrlf]),
      Lexeme.returnBlind_read x cs hmem, hcrlf]
    by_cases hx : x = '\n'
    · subst hx
      have hread : Lexeme.read '\n' cs = ⟨.endOfLine, ['\n'], false, none⟩ := rfl
      rw [hread, List.length_singleton, skip_succ_cons hrest, if_pos rfl, skip_succ_cons rfl,
        if_pos rfl]
      rfl
    · have htext := Lexeme.newline_notMem_read cs hx
      obtain ⟨ds, hds⟩ := Lexeme.read_text_isPrefix x cs
      have hsame : x :: withReturns cs = (Lexeme.read x cs).text ++ withReturns ds := by
        rw [← withReturns_cons hx, ← hds, withReturns_append htext]
      have hkind : (Lexeme.read x cs).kind ≠ .endOfLine := by
        intro hk
        have hbreak : String.ofList (Lexeme.read x cs).text = "\n" :=
          (Lexeme.keepsLine_toToken x cs ⟨0, 0⟩).1 hk
        rw [← String.toList_inj, String.toList_ofList] at hbreak
        simp [hbreak] at htext
      have hreturn : returnAt (x :: cs) = [] := by simp [returnAt, hx]
      have htoken : ((Lexeme.read x cs).toToken c.skipTrivia.position).afterReturn =
          (Lexeme.read x cs).toToken c.skipTrivia.position := Token.afterReturn_of_ne hkind
      rw [skip_of_append (hrest.trans hds.symm) htext, skip_of_append hsame htext, hreturn, htoken]
      rfl

end Cursor

/-- The tokens of the text with carriage returns. -/
lemma tokenize_crlf {source : String} (h : '\r' ∉ source.toList) :
    tokenize (crlf source) = (tokenize source).map Token.afterReturn := by
  refine TokenStream.tokens_map (R := fun c c' : Cursor => '\r' ∉ c.rest ∧ c' = c.crlf)
    (fun t => Token.kind_eq_of_unplaced t.unplaced_afterReturn) ?_ ⟨h, ?_⟩
  · rintro c _ ⟨hr, rfl⟩
    have hnext : TokenStream.next c.crlf = (c.next.1.afterReturn, c.next.2.crlf) :=
      Cursor.next_crlf hr
    rw [hnext]
    refine ⟨rfl, fun hmem => hr ?_, rfl⟩
    obtain ⟨n, -, hskip⟩ := c.exists_next_eq_skip
    change '\r' ∈ c.next.2.rest at hmem
    rw [hskip, Cursor.rest_skip] at hmem
    exact List.mem_of_mem_drop hmem
  · simp [Cursor.ofSource, Cursor.crlf, crlf]

/-! ## Lines of the source -/

lemma dropReturn_cons {c : Char} (hc : c ≠ '\r') (line : List Char) :
    dropReturn (c :: line) = c :: dropReturn line := by
  rw [dropReturn, dropReturn, List.getLast?_cons]
  cases line with
  | nil => simp [hc]
  | cons d line =>
    rw [List.getLast?_eq_some_getLast (List.cons_ne_nil d line)]
    simp only [Option.getD_some, Option.some.injEq]
    split <;> simp

/-- A character that ends no line goes to the front of the first one. -/
lemma map_dropReturn_splitLines_cons {c : Char} (hn : c ≠ '\n') (hr : c ≠ '\r') {cs ds : List Char}
    (h : (splitLines ds).map dropReturn = splitLines cs) :
    (splitLines (c :: ds)).map dropReturn = splitLines (c :: cs) := by
  rw [splitLines, if_neg hn, splitLines, if_neg hn, ← h]
  cases splitLines ds with
  | nil => simp [dropReturn, hr]
  | cons line lines => simp [dropReturn_cons hr]

lemma map_dropReturn_splitLines {cs : List Char} (h : '\r' ∉ cs) :
    (splitLines cs).map dropReturn = splitLines cs := by
  induction cs with
  | nil => rfl
  | cons c cs ih =>
    rw [List.mem_cons, not_or] at h
    by_cases hc : c = '\n'
    · rw [hc, splitLines, if_pos rfl, List.map_cons, ih h.2]
      rfl
    · exact map_dropReturn_splitLines_cons hc (Ne.symm h.1) (ih h.2)

/-- What the carriage returns add to the lines is dropped. -/
lemma map_dropReturn_splitLines_withReturns {cs : List Char} (h : '\r' ∉ cs) :
    (splitLines (withReturns cs)).map dropReturn = splitLines cs := by
  induction cs with
  | nil => rfl
  | cons c cs ih =>
    rw [List.mem_cons, not_or] at h
    by_cases hc : c = '\n'
    · have hlines : splitLines ('\r' :: '\n' :: withReturns cs) =
          ['\r'] :: splitLines (withReturns cs) := by
        simp [splitLines]
      rw [hc, withReturns_newline, hlines, List.map_cons, ih h.2, splitLines, if_pos rfl]
      rfl
    · rw [withReturns_cons hc]
      exact map_dropReturn_splitLines_cons hc (Ne.symm h.1) (ih h.2)

lemma sourceLine?_crlf {source : String} (h : '\r' ∉ source.toList) (n : ℕ) :
    sourceLine? (crlf source) n = sourceLine? source n := by
  cases n with
  | zero => rfl
  | succ n =>
    have hline (cs : List Char) :
        (splitLines cs)[n]?.map (fun line => String.ofList (dropReturn line)) =
          ((splitLines cs).map dropReturn)[n]?.map String.ofList := by
      rw [List.getElem?_map, Option.map_map]
      rfl
    rw [sourceLine?, sourceLine?, hline, hline, map_dropReturn_splitLines h, crlf,
      String.toList_ofList, map_dropReturn_splitLines_withReturns h]

/-! ## Programs -/

/-- The diagnostic in a text with carriage returns, given the tokens without them: it moves where it
points at a line break. -/
def Diagnostic.afterReturn (ts : List Token) (d : Diagnostic) : Diagnostic :=
  if ∃ t ∈ ts, t.kind = .endOfLine ∧ t.position = d.position then
    { d with position := d.position.right }
  else d

/-- A position belongs to one token, so a diagnostic moves as the token does that it points at. -/
lemma Diagnostic.afterReturn_eq {source : String} {d d' : Diagnostic} {t : Token}
    (ht : t ∈ tokenize source) (hcause : d'.cause = d.cause) (hd : d.position = t.position)
    (hd' : d'.position = t.afterReturn.position) : d' = d.afterReturn (tokenize source) := by
  obtain ⟨cause, position⟩ := d
  obtain ⟨cause', position'⟩ := d'
  obtain rfl : cause' = cause := hcause
  obtain rfl : position = t.position := hd
  obtain rfl : position' = t.afterReturn.position := hd'
  by_cases hk : t.kind = .endOfLine
  · rw [afterReturn, if_pos ⟨t, ht, hk, rfl⟩, Token.afterReturn, if_pos hk]
  · rw [afterReturn, if_neg, Token.afterReturn_of_ne hk]
    rintro ⟨u, hu, huk, hposition⟩
    exact hk (eq_of_position_eq hu ht hposition ▸ huk)

/-- **Line endings do not matter.**  Let a text have no carriage returns, and put one before every
line break.  The tokens stay the same one by one, with their kinds, texts and faults, and so do
their positions, but that every line break stands one column further to the right.  The statements
are the same, with all their positions; the diagnostics are the same, but that one which points at a
line break points one column further to the right; and every line is shown by the same text. -/
theorem parse_crlf {source : String} (h : '\r' ∉ source.toList) :
    tokenize (crlf source) = (tokenize source).map Token.afterReturn ∧
    (parse (crlf source)).statements = (parse source).statements ∧
    (parse (crlf source)).diagnostics =
      (parse source).diagnostics.map (Diagnostic.afterReturn (tokenize source)) ∧
    ∀ n, sourceLine? (crlf source) n = sourceLine? source n := by
  have htokens := tokenize_crlf h
  have hmoves := outcomesOf_moves Token.unplaced_afterReturn htokens
  refine ⟨htokens, ?_, ?_, sourceLine?_crlf h⟩
  · rw [parse_eq_ofOutcomes (crlf source), Program.statements_of_moves hmoves]
    conv_rhs => rw [← List.map_id (parse source).statements]
    refine List.map_congr_left fun s hs => Statement.mapTokens_eq_self fun t ht => ?_
    refine Token.afterReturn_of_ne fun hk => not_endsStatement_of_mem_statements hs t ht ?_
    rw [Token.endsStatement, hk]
    rfl
  · have hsame : List.Forall₂ (fun d d' => d.afterReturn (tokenize source) = d')
        (parse source).diagnostics (parse (crlf source)).diagnostics := by
      refine (Program.diagnostics_of_moves hmoves).imp ?_
      rintro d d' ⟨hcause, t, ht, hd, hd'⟩
      exact (Diagnostic.afterReturn_eq ht hcause hd hd').symm
    rw [← List.forall₂_map_left_iff, List.forall₂_eq_eq_eq] at hsame
    exact hsame.symm

/-- A string and a character literal are left open before line breaks, and a name is missing before
one. -/
theorem parse_crlf_open_quotes :
    '\r' ∉ "x <- \"a // b\nOUTPUT 'b\nINPUT\nINPUT y".toList ∧
    tokenize (crlf "x <- \"a // b\nOUTPUT 'b\nINPUT\nINPUT y") =
      (tokenize "x <- \"a // b\nOUTPUT 'b\nINPUT\nINPUT y").map Token.afterReturn ∧
    (parse (crlf "x <- \"a // b\nOUTPUT 'b\nINPUT\nINPUT y")).statements =
      (parse "x <- \"a // b\nOUTPUT 'b\nINPUT\nINPUT y").statements ∧
    (parse "x <- \"a // b\nOUTPUT 'b\nINPUT\nINPUT y").diagnostics.map Diagnostic.position =
      [⟨1, 6⟩, ⟨2, 8⟩, ⟨3, 6⟩] ∧
    (parse (crlf "x <- \"a // b\nOUTPUT 'b\nINPUT\nINPUT y")).diagnostics.map Diagnostic.position =
      [⟨1, 6⟩, ⟨2, 8⟩, ⟨3, 7⟩] ∧
    sourceLine? (crlf "x <- \"a // b\nOUTPUT 'b\nINPUT\nINPUT y") 2 = some "OUTPUT 'b" := by
  have h : '\r' ∉ "x <- \"a // b\nOUTPUT 'b\nINPUT\nINPUT y".toList := by decide +kernel
  obtain ⟨htokens, hstatements, hdiagnostics, hline⟩ := parse_crlf h
  refine ⟨h, htokens, hstatements, by decide +kernel, ?_, (hline 2).trans (by decide +kernel)⟩
  rw [hdiagnostics]
  decide +kernel

end Pseudolang
