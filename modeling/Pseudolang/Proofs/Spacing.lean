import Pseudolang.Proofs.Classification

/-!
# Spaced writing of tokens

A `Piece` is a text that is a token by itself: it has one of the forms that carry no fault, with
nothing behind it.  The form decides the token (`Piece.token`).  Pieces are all that the language is
written in: every token of a source text that has no fault is one (`exists_piece_of_mem`).

Pieces that are written one after the other, with blanks between them, are read back as they were
written (`tokenize_pieces`).  Each step reads one piece: nothing can be skipped at its start
(`Form.Fits.trivia_eq_nil`), so that it is read from its own text (`Piece.lexed`), and what stands
behind it, a blank or the end of the text, cannot belong to it.
-/

namespace Pseudolang

/-! ## Texts with a form -/

namespace Form.Fits

variable {f : Form} {x : Char} {xs text rest : List Char}

/-- No token starts with a blank. -/
lemma not_isBlank (h : f.Fits (x :: xs) rest) : ¬isBlank x := by
  intro hblank
  have hread : Lexeme.read x (xs ++ rest) = .illegal .unrecognisedCharacter [x] := by
    rcases (by simpa [isBlank, or_assoc] using hblank : x = ' ' ∨ x = '\t' ∨ x = '\r') with
      rfl | rfl | rfl
    · rfl
    · rfl
    · rfl
  have hmarks := h.read_eq.symm.trans hread
  obtain rfl : f = unrecognisedCharacter := eq_of_marks (congrArg Lexeme.kind hmarks)
    (congrArg Lexeme.isLiteral hmarks) (congrArg Lexeme.fault hmarks)
  obtain ⟨y, htext, hy⟩ := h
  obtain ⟨rfl, rfl⟩ := List.cons.inj htext
  simp [isBlank, hy.blank] at hblank

/-- No token starts with a comment. -/
lemma comment_eq_nil (h : f.Fits (x :: xs) rest) : comment (x :: (xs ++ rest)) = [] := by
  refine Pseudolang.comment_eq_nil ?_
  rintro rfl hhead
  have hmarks : (⟨f.kind, '/' :: xs, f.isLiteral, f.fault⟩ : Lexeme) =
      ⟨.symbol .slash, ['/'], false, none⟩ := h.read_eq.symm
  obtain rfl : f = symbol .slash := eq_of_marks (congrArg Lexeme.kind hmarks)
    (congrArg Lexeme.isLiteral hmarks) (congrArg Lexeme.fault hmarks)
  obtain ⟨htext, -, -, hrest⟩ := h
  obtain rfl : xs = [] := (List.cons.inj htext).2
  exact hrest '/' hhead rfl

/-- Nothing can be skipped at the start of a token. -/
lemma trivia_eq_nil (h : f.Fits (x :: xs) rest) : trivia (x :: (xs ++ rest)) = [] :=
  trivia_eq_nil_iff.2 ⟨by rintro y ⟨⟩; exact h.not_isBlank, h.comment_eq_nil⟩

/-- A text without fault has its form by itself as well. -/
lemma alone (h : f.Fits text rest) (hfault : f.fault = none) (hend : f ≠ endOfFile) :
    f.Fits text [] := by
  cases f with
  | identifier => exact ⟨⟨h.1.begins, h.1.continues, by simp⟩, h.2⟩
  | keyword => exact ⟨h.1, by simp⟩
  | datatype => exact ⟨h.1, by simp⟩
  | boolean => exact ⟨h.1, by simp⟩
  | integer => exact ⟨h.1, h.2.1, by simp⟩
  | real => exact ⟨h.1, by simp⟩
  | string => exact h
  | char => exact h
  | symbol => exact ⟨h.1, h.2.1, h.2.2.1, by simp⟩
  | endOfLine => exact h
  | endOfFile => exact absurd rfl hend
  | _ => cases hfault

end Form.Fits

/-! ## Pieces -/

/-- A text that is a token by itself. -/
structure Piece where
  text : List Char
  form : Form
  legal : form.fault = none
  inText : form ≠ .endOfFile
  fits : form.Fits text []

namespace Piece

/-- The token that the piece is read as, but for its position. -/
def token (p : Piece) : Token :=
  ⟨p.form.kind, String.ofList p.text, ⟨0, 0⟩, p.form.isLiteral, none⟩

/-- It is what its own text is read as. -/
lemma lexed (p : Piece) : p.token.Lexed := by
  obtain ⟨x, xs, htext⟩ : ∃ x xs, p.text = x :: xs :=
    List.exists_cons_of_ne_nil fun hnil => p.inText (hnil ▸ p.fits).eq_endOfFile
  have hfits : p.form.Fits (x :: xs) [] := htext ▸ p.fits
  have htrivia := hfits.trivia_eq_nil
  have hread := hfits.read_eq
  rw [List.append_nil] at htrivia hread
  have hrest : (Cursor.ofSource p.token.text).rest = [] ++ x :: xs := by
    simp [Cursor.ofSource, token, htext]
  rw [Token.Lexed, (Cursor.next_of_gap (by simp) hrest htrivia).1, hread, p.legal, ← htext]
  rfl

lemma kind_ne_illegal (p : Piece) : p.token.kind ≠ .illegal := by
  show ¬p.form.kind = .illegal
  rw [← p.form.isSome_fault_iff, p.legal]
  simp

lemma kind_ne_endOfFile (p : Piece) : p.token.kind ≠ .endOfFile := by
  have hend := p.inText
  show p.form.kind ≠ .endOfFile
  cases hform : p.form with
  | endOfFile => exact absurd hform hend
  | _ => simp [Form.kind]

end Piece

/-- Every token of a source text is a piece, unless it has a fault or is the end of file. -/
theorem exists_piece_of_mem {source : String} {t : Token} (h : t ∈ tokenize source)
    (hfault : t.fault = none) (hend : t.kind ≠ .endOfFile) : ∃ p : Piece, t.unplaced = p.token := by
  obtain ⟨rest, f, hf⟩ := exists_form_of_mem h
  have hlegal : f.fault = none := hf.fault ▸ hfault
  have hinText : f ≠ .endOfFile := by
    rintro rfl
    exact hend hf.kind
  refine ⟨⟨t.text.toList, f, hlegal, hinText, hf.fits.alone hlegal hinText⟩, ?_⟩
  rw [Piece.token, String.ofList_toList, ← hf.kind, ← hf.isLiteral, ← hfault]
  rfl

/-! ## Reading pieces -/

section Reading

variable {first : List Char} {items : List (Piece × List Char)}

/-- The text of pieces with something behind each of them. -/
def written (items : List (Piece × List Char)) : List Char :=
  items.flatMap fun item => item.1.text ++ item.2

lemma written_cons (p : Piece) (after : List Char) (items : List (Piece × List Char)) :
    written ((p, after) :: items) = p.token.text.toList ++ (after ++ written items) := by
  simp [written, Piece.token]

/-- Blanks behind a piece cannot belong to it, and there are none only at the end of the text. -/
lemma endsLexeme_written {p : Piece} {after : List Char} (hafter : ∀ x ∈ after, isBlank x)
    (hgap : ∀ item ∈ ((p, after) :: items).dropLast, item.2 ≠ []) :
    EndsLexeme (after ++ written items) := by
  cases after with
  | nil =>
    cases items with
    | nil => exact endsLexeme_nil
    | cons item items => exact absurd rfl (hgap (p, []) (List.mem_cons_self ..))
  | cons x xs =>
    rw [List.cons_append, endsLexeme_cons]
    have hx : isBlank x := hafter x (List.mem_cons_self ..)
    rcases (by simpa [isBlank, or_assoc] using hx : x = ' ' ∨ x = '\t' ∨ x = '\r') with
      rfl | rfl | rfl
    · decide
    · decide
    · decide

/-- The tokens are read one by one: what is left to read is the blanks behind a piece and the pieces
after it. -/
lemma map_unplaced_tokens {c : Cursor} (hfirst : ∀ x ∈ first, isBlank x)
    (hblank : ∀ item ∈ items, ∀ x ∈ item.2, isBlank x)
    (hgap : ∀ item ∈ items.dropLast, item.2 ≠ []) (hc : c.rest = first ++ written items) :
    (TokenStream.tokens c).map Token.unplaced =
      items.map (fun item => item.1.token) ++ [⟨.endOfFile, "", ⟨0, 0⟩, false, none⟩] := by
  induction items generalizing c first with
  | nil =>
    have hskip : c.skipTrivia.rest = [] := by
      rw [Cursor.rest_skipTrivia, hc, trivia_append hfirst rfl]
      simp [written]
    have hnext : TokenStream.next c = _ := Cursor.next_of_skipTrivia_eq_nil hskip
    rw [TokenStream.tokens_of_endOfFile (by rw [hnext]), hnext]
    rfl
  | cons item items ih =>
    obtain ⟨p, after⟩ := item
    rw [List.forall_mem_cons] at hblank
    rw [written_cons] at hc
    obtain ⟨hnext, hrest⟩ : (TokenStream.next c).1.unplaced = p.token.unplaced ∧
        (TokenStream.next c).2.rest = after ++ written items :=
      Cursor.next_of_lexed p.lexed p.kind_ne_illegal p.kind_ne_endOfFile hfirst hc
        (endsLexeme_written hblank.1 hgap)
    have hkind : (TokenStream.next c).1.kind ≠ .endOfFile := by
      rw [Token.kind_eq_of_unplaced hnext]
      exact p.kind_ne_endOfFile
    have hgap' : ∀ item ∈ items.dropLast, item.2 ≠ [] := fun item hitem => by
      refine hgap item ?_
      cases items with
      | nil => cases hitem
      | cons => exact List.mem_cons_of_mem _ hitem
    rw [TokenStream.tokens_of_ne_endOfFile hkind, List.map_cons, hnext,
      ih hblank.1 hblank.2 hgap' hrest]
    rfl

end Reading

/-- **Pieces are read back as they were written.**  A text of pieces with blanks before the first of
them, between any two and behind the last is read as exactly these pieces in their order, each with
its kind, its text and its literal flag and without a fault, and then as one end of file.  Between
two pieces there has to be a blank, and any spaces, tabs and carriage returns will do. -/
theorem tokenize_pieces (first : List Char) (items : List (Piece × List Char))
    (hfirst : ∀ x ∈ first, x = ' ' ∨ x = '\t' ∨ x = '\r')
    (hblank : ∀ item ∈ items, ∀ x ∈ item.2, x = ' ' ∨ x = '\t' ∨ x = '\r')
    (hgap : ∀ item ∈ items.dropLast, item.2 ≠ []) :
    (tokenize (String.ofList (first ++ written items))).map Token.unplaced =
      items.map (fun item => item.1.token) ++ [⟨.endOfFile, "", ⟨0, 0⟩, false, none⟩] := by
  have hrest : (Cursor.ofSource (String.ofList (first ++ written items))).rest =
      first ++ written items := by simp [Cursor.ofSource]
  refine map_unplaced_tokens ?_ ?_ hgap hrest
  · simpa [isBlank, or_assoc] using hfirst
  · simpa [isBlank, or_assoc] using hblank

/-- Two slashes with a blank between them start no comment, and neither do those in a string; a
carriage return before a line break is a blank like any other. -/
theorem tokenize_pieces_slashes :
    (tokenize "\r/ /\t\"//'\" \r\n").map Token.unplaced =
      [⟨.symbol .slash, "/", ⟨0, 0⟩, false, none⟩, ⟨.symbol .slash, "/", ⟨0, 0⟩, false, none⟩,
        ⟨.native .string, "\"//'\"", ⟨0, 0⟩, true, none⟩, ⟨.endOfLine, "\n", ⟨0, 0⟩, false, none⟩,
        ⟨.endOfFile, "", ⟨0, 0⟩, false, none⟩] :=
  tokenize_pieces ['\r']
    [(⟨['/'], .symbol .slash, rfl, nofun, rfl, by decide, by decide, by simp⟩, [' ']),
      (⟨['/'], .symbol .slash, rfl, nofun, rfl, by decide, by decide, by simp⟩, ['\t']),
      (⟨"\"//'\"".toList, .string, rfl, nofun, ['/', '/', '\''], rfl, by decide, by decide⟩,
        [' ', '\r']),
      (⟨['\n'], .endOfLine, rfl, nofun, rfl⟩, [])]
    (by simp) (by simp) (by simp)

end Pseudolang
