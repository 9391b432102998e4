import Pseudolang.Cursor
import Pseudolang.Proofs.Lexeme
import Pseudolang.Proofs.Placement

/-!
# Tokens and their texts

A token is `Token.Lexed` if it is what its own text is read as.  Every token of a source text is,
unless it is illegal (`Cursor.lexed_next`), and such a token is read wherever its text stands after
blanks and before the end of a lexeme (`Cursor.next_of_lexed`).  Keywords and symbols have one text
each, so that being read from its own text means to have the text of its kind (`Token.Canonical`).
-/

namespace Pseudolang

/-! ## The next token -/

namespace Cursor

variable {c : Cursor} {first : Char} {cs gap rest : List Char}

lemma rest_skipTrivia (c : Cursor) :
    c.skipTrivia.rest = c.rest.drop (trivia c.rest).length := by
  simp [skipTrivia]

/-- Where nothing but trivia is left, the next token is the end of file. -/
lemma next_of_skipTrivia_eq_nil (h : c.skipTrivia.rest = []) :
    c.next = (⟨.endOfFile, "", c.skipTrivia.position, false, none⟩, c.skipTrivia) := by
  simp only [next]
  split
  · rfl
  · next hcons =>
    rw [h] at hcons
    cases hcons

lemma next_of_skipTrivia (h : c.skipTrivia.rest = first :: cs) :
    c.next.1.unplaced = (Lexeme.read first cs).toToken ⟨0, 0⟩ ∧
      c.next.2.rest = (first :: cs).drop (Lexeme.read first cs).text.length := by
  simp only [next]
  split
  · next hnil =>
    rw [h] at hnil
    cases hnil
  · next first' cs' hcons =>
    obtain ⟨rfl, rfl⟩ : first = first' ∧ cs = cs' := by simpa [h] using hcons
    rw [rest_skip, h]
    exact ⟨rfl, rfl⟩

/-- After blanks the next token is the lexeme that stands there. -/
lemma next_of_gap (hgap : ∀ x ∈ gap, isBlank x) (hrest : c.rest = gap ++ first :: cs)
    (htrivia : trivia (first :: cs) = []) :
    c.next.1.unplaced = (Lexeme.read first cs).toToken ⟨0, 0⟩ ∧
      c.next.2.rest = (first :: cs).drop (Lexeme.read first cs).text.length := by
  apply next_of_skipTrivia
  rw [rest_skipTrivia, hrest, trivia_append hgap htrivia]
  exact List.drop_left

lemma ofChar?_eq_none_of_isBlank (h : isBlank first) : Kind.ofChar? first = none := by
  rcases (by simpa [isBlank, or_assoc] using h : first = ' ' ∨ first = '\t' ∨ first = '\r') with
    rfl | rfl | rfl
  · rfl
  · rfl
  · rfl

/-- A character that is a token by itself is read whatever follows. -/
lemma next_of_ofChar? {kind : Kind} (hk : Kind.ofChar? first = some kind)
    (hgap : ∀ x ∈ gap, isBlank x) (hrest : c.rest = gap ++ first :: rest) :
    c.next.1.unplaced = ⟨kind, kind.text, ⟨0, 0⟩, false, none⟩ ∧ c.next.2.rest = rest := by
  have htrivia : trivia (first :: rest) = [] := by
    refine trivia_eq_nil_iff.2 ⟨?_, comment_eq_nil ?_⟩
    · rintro x ⟨⟩ hblank
      rw [ofChar?_eq_none_of_isBlank hblank] at hk
      cases hk
    · rintro rfl
      simp [Kind.ofChar?] at hk
  have hread : Lexeme.read first rest = ⟨kind, [first], false, none⟩ := by simp [Lexeme.read, hk]
  have hnext := next_of_gap hgap hrest htrivia
  rw [hread] at hnext
  rw [Kind.text_of_ofChar? hk]
  exact hnext

lemma next_of_ofChar?_cons {kind : Kind} (hk : Kind.ofChar? first = some kind)
    (hrest : c.rest = first :: rest) :
    c.next.1.unplaced = ⟨kind, kind.text, ⟨0, 0⟩, false, none⟩ ∧ c.next.2.rest = rest :=
  next_of_ofChar? hk (List.forall_mem_nil _) hrest

/-- The trivia before a lexeme end where it starts, also when the lexeme is put before another
text. -/
lemma trivia_read_append (h : trivia (first :: cs) = []) (hrest : EndsLexeme rest) :
    trivia (first :: ((Lexeme.read first cs).text.tail ++ rest)) = [] := by
  refine trivia_eq_nil_iff.2 ⟨(trivia_eq_nil_iff.1 h).1, comment_eq_nil ?_⟩
  rintro rfl hhead
  have htail : (Lexeme.read '/' cs).text.tail = [] := rfl
  rw [htail, List.nil_append] at hhead
  have hslash := hrest '/' hhead
  simp [isLexemeEnd] at hslash

/-- A lexeme without fault is the next token wherever it stands after blanks and before a text that
cannot belong to it. -/
lemma next_of_read (htrivia : trivia (first :: cs) = [])
    (hfault : (Lexeme.read first cs).fault = none) (hgap : ∀ x ∈ gap, isBlank x)
    (hrest : c.rest = gap ++ ((Lexeme.read first cs).text ++ rest)) (hend : EndsLexeme rest) :
    c.next.1.unplaced = (Lexeme.read first cs).toToken ⟨0, 0⟩ ∧ c.next.2.rest = rest := by
  have htext := Lexeme.text_eq_cons first cs
  rw [htext, List.cons_append] at hrest
  have hnext := next_of_gap hgap hrest (trivia_read_append htrivia hend)
  rw [Lexeme.read_tail_append hfault hend, ← List.cons_append, ← htext, List.drop_left] at hnext
  exact hnext

end Cursor

/-! ## Tokens and their texts -/

namespace Token

/-- The token is a literal only if its kind is a built-in datatype. -/
def Plain (t : Token) : Prop :=
  t.isLiteral → t.kind.isNative

lemma Plain.kind_of_isAtom {t : Token} (h : t.Plain) (ha : t.isAtom) :
    t.kind = .identifier ∨ t.kind.isNative := by
  rcases (by simpa [isAtom] using ha : t.kind = .identifier ∨ t.isLiteral) with hi | hl
  · exact .inl hi
  · exact .inr (h hl)

/-- The token is what its own text is read as. -/
def Lexed (t : Token) : Prop :=
  (Cursor.ofSource t.text).next.1.unplaced = t.unplaced

lemma Lexed.exists_read {t : Token} (h : t.Lexed) (hk : t.kind ≠ .endOfFile) :
    ∃ c cs, t.text.toList = (Lexeme.read c cs).text ∧ trivia (c :: cs) = [] ∧
      t.unplaced = (Lexeme.read c cs).toToken ⟨0, 0⟩ := by
  have hskip := Cursor.rest_skipTrivia (Cursor.ofSource t.text)
  change _ = t.text.toList.drop (trivia t.text.toList).length at hskip
  cases hdrop : t.text.toList.drop (trivia t.text.toList).length with
  | nil =>
    rw [Lexed, Cursor.next_of_skipTrivia_eq_nil (hskip.trans hdrop)] at h
    exact absurd (congrArg kind h).symm hk
  | cons c cs =>
    have hread := h.symm.trans (Cursor.next_of_skipTrivia (hskip.trans hdrop)).1
    have htext : t.text.toList = (Lexeme.read c cs).text := by
      have := congrArg Token.text hread
      simpa [unplaced, Lexeme.toToken] using congrArg String.toList this
    have hlength := (Lexeme.read_text_isPrefix c cs).length_le
    have hdropped := congrArg List.length hdrop
    rw [← htext, ← hdropped, List.length_drop] at hlength
    have hnil : trivia t.text.toList = [] := by
      have hpos := List.length_pos_iff.2 (Lexeme.read_text_ne_nil c cs)
      rw [← htext] at hpos
      exact List.length_eq_zero_iff.1 (by omega)
    rw [hnil] at hdrop
    exact ⟨c, cs, htext, hdrop ▸ hnil, hread⟩

/-- The token has the one text of its kind. -/
def Canonical (t : Token) : Prop :=
  t.text = t.kind.text ∧ t.isLiteral = false ∧ t.fault = none

/-- A keyword or a symbol that is what its own text is read as has the canonical text. -/
lemma Lexed.canonical {t : Token} (h : t.Lexed)
    (hk : (∃ k, t.kind = .keyword k) ∨ ∃ s, t.kind = .symbol s) : t.Canonical := by
  have hne : t.kind ≠ .endOfFile ∧ t.kind ≠ .illegal ∧ t.kind ≠ .identifier ∧
      ¬t.kind.isNative := by
    rcases hk with ⟨_, hk⟩ | ⟨_, hk⟩ <;> simp [hk, Kind.isNative]
  obtain ⟨he, hi, hid, hn⟩ := hne
  obtain ⟨c, cs, htext, -, hread⟩ := h.exists_read he
  have hkind : t.kind = (Lexeme.read c cs).kind := congrArg Token.kind hread
  have hliteral : t.isLiteral = (Lexeme.read c cs).isLiteral := congrArg Token.isLiteral hread
  have hfault : t.fault = (Lexeme.read c cs).fault := congrArg Token.fault hread
  refine ⟨?_, ?_, ?_⟩
  · rw [← String.toList_inj, htext, Lexeme.text_eq_of_kind hkind.symm hi hid hn]
  · rw [hliteral, Bool.eq_false_iff]
    intro hl
    rw [hkind] at hn
    exact hn ((Lexeme.regular_read c cs).isLiteral hl)
  · rw [hfault, Lexeme.fault_eq_none_of_kind (hkind ▸ hi)]

lemma Canonical.unplaced_eq {t : Token} (h : t.Canonical) :
    t.unplaced = ⟨t.kind, t.kind.text, ⟨0, 0⟩, false, none⟩ := by
  obtain ⟨htext, hliteral, hfault⟩ := h
  rw [unplaced, htext, hliteral, hfault]

/-- The kinds with one text are what this text is read as. -/
lemma Canonical.lexed {t : Token} (h : t.Canonical) (hi : t.kind ≠ .illegal)
    (hid : t.kind ≠ .identifier) (hd : t.kind ≠ .symbol .doubleQuote)
    (hs : t.kind ≠ .symbol .singleQuote) : t.Lexed := by
  have hread : ∀ k ∈ Kind.all, k ≠ .illegal → k ≠ .identifier → k ≠ .symbol .doubleQuote →
      k ≠ .symbol .singleQuote →
      (Cursor.ofSource k.text).next.1.unplaced = ⟨k, k.text, ⟨0, 0⟩, false, none⟩ := by
    decide +kernel
  rw [Lexed, h.1, hread _ t.kind.mem_all hi hid hd hs, h.unplaced_eq]

end Token

namespace Cursor

lemma plain_next (c : Cursor) : (TokenStream.next c).1.Plain := by
  show c.next.1.Plain
  simp only [next]
  split
  · intro h
    cases h
  · intro h
    exact (Lexeme.regular_read ..).isLiteral h

/-- The illegal tokens are those with a fault. -/
lemma fault_next (c : Cursor) : c.next.1.fault = none ↔ c.next.1.kind ≠ .illegal := by
  simp only [next]
  split
  · simp
  · exact (Lexeme.regular_read ..).fault

lemma plain_of_lexed {t : Token} (h : t.Lexed) : t.Plain := by
  intro hl
  have hplain := plain_next (ofSource t.text)
  obtain ⟨hkind, -, hliteral, -⟩ := Token.unplaced_eq_iff.1 h
  exact hkind ▸ hplain (hliteral.trans hl)

/-- Every token of a source text that is not illegal is what its own text is read as. -/
lemma lexed_next (c : Cursor) (h : c.next.1.kind ≠ .illegal) : c.next.1.Lexed := by
  cases hrest : c.skipTrivia.rest with
  | nil =>
    rw [next_of_skipTrivia_eq_nil hrest]
    rfl
  | cons first cs =>
    have hnext := (next_of_skipTrivia hrest).1
    have htrivia : trivia (first :: cs) = [] := by
      rw [← hrest, rest_skipTrivia]
      exact trivia_drop_trivia c.rest
    have hkind : c.next.1.kind = (Lexeme.read first cs).kind := congrArg Token.kind hnext
    have htext : c.next.1.text = String.ofList (Lexeme.read first cs).text :=
      congrArg Token.text hnext
    have hfault := Lexeme.fault_eq_none_of_kind (hkind ▸ h)
    have hsource : (ofSource c.next.1.text).rest = [] ++ ((Lexeme.read first cs).text ++ []) := by
      rw [htext]
      simp [ofSource]
    exact (next_of_read htrivia hfault (by simp) hsource (by simp)).1.trans hnext.symm

/-- A token that is what its own text is read as is the next token wherever this text stands after
blanks and before a text that cannot belong to it. -/
lemma next_of_lexed {t : Token} {c : Cursor} {gap rest : List Char} (ht : t.Lexed)
    (hi : t.kind ≠ .illegal) (hk : t.kind ≠ .endOfFile) (hgap : ∀ x ∈ gap, isBlank x)
    (hrest : c.rest = gap ++ (t.text.toList ++ rest)) (hend : EndsLexeme rest) :
    c.next.1.unplaced = t.unplaced ∧ c.next.2.rest = rest := by
  obtain ⟨first, cs, htext, htrivia, hread⟩ := ht.exists_read hk
  have hkind : t.kind = (Lexeme.read first cs).kind := congrArg Token.kind hread
  rw [htext] at hrest
  rw [hread]
  exact next_of_read htrivia (Lexeme.fault_eq_none_of_kind (hkind ▸ hi)) hgap hrest hend

/-- Identifiers and literals are read so. -/
lemma next_of_atom {t : Token} {c : Cursor} {gap rest : List Char} (ha : t.isAtom) (ht : t.Lexed)
    (hgap : ∀ x ∈ gap, isBlank x) (hrest : c.rest = gap ++ (t.text.toList ++ rest))
    (hend : EndsLexeme rest) : c.next.1.unplaced = t.unplaced ∧ c.next.2.rest = rest := by
  have hkind := (plain_of_lexed ht).kind_of_isAtom ha
  refine next_of_lexed ht ?_ ?_ hgap hrest hend
  · intro hi
    simp [hi, Kind.isNative] at hkind
  · intro he
    simp [he, Kind.isNative] at hkind

end Cursor

end Pseudolang
