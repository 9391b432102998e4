import Mathlib.Data.List.TakeWhile
import Pseudolang.Lexeme

/-!
# Reading lexemes again

The lexeme at the front of a text is found by looking at what follows it: a word goes on while there
are letters, a `<` may be the start of `<=`.  Cut out of its text and put before another one, a
lexeme without fault is read the same as long as what follows cannot belong to it
(`Lexeme.read_tail_append`); a text that starts with a character for which `isLexemeEnd` holds never
can, and no text can belong to a character that is a token by itself.

What every lexeme satisfies, whatever text it stands in, is stated once (`Lexeme.Regular`) and
proved reader by reader, by the case rule `Lexeme.read_cases`.  The last section is about what is
skipped before a lexeme.
-/

namespace Pseudolang

/-! ## Ends of lexemes -/

/-- A character that belongs to no lexeme before it, and to no comment after a slash. -/
def isLexemeEnd (c : Char) : Bool :=
  !isWordPart c && !isNumberPart c && c ≠ '-' && c ≠ '=' && c ≠ '>' && c ≠ '/'

/-- Nothing at the front of the text could belong to a lexeme before it. -/
def EndsLexeme (rest : List Char) : Prop :=
  ∀ c ∈ rest.head?, isLexemeEnd c

@[simp] lemma endsLexeme_nil : EndsLexeme [] := by simp [EndsLexeme]

@[simp] lemma endsLexeme_cons (c : Char) (cs : List Char) :
    EndsLexeme (c :: cs) ↔ isLexemeEnd c := by simp [EndsLexeme]

lemma EndsLexeme.not_isWordPart {rest : List Char} (h : EndsLexeme rest) :
    ∀ c ∈ rest.head?, ¬isWordPart c := by
  intro c hc
  have := h c hc
  simp_all [isLexemeEnd]

lemma EndsLexeme.not_isNumberPart {rest : List Char} (h : EndsLexeme rest) :
    ∀ c ∈ rest.head?, ¬isNumberPart c := by
  intro c hc
  have := h c hc
  simp_all [isLexemeEnd]

/-- A run of characters of one class, followed by one outside the class, is taken again. -/
lemma takeWhile_takeWhile_append {α : Type} {p : α → Bool} {cs rest : List α}
    (h : ∀ c ∈ rest.head?, ¬p c) : (cs.takeWhile p ++ rest).takeWhile p = cs.takeWhile p := by
  rw [List.takeWhile_append_of_pos fun c hc => List.mem_takeWhile_imp hc]
  cases rest with
  | nil => simp
  | cons c rest => simpa using h

/-- What is left after a run of characters of one class starts with one outside the class. -/
lemma not_of_head?_dropWhile {α : Type} (p : α → Bool) (cs : List α) :
    ∀ c ∈ (cs.dropWhile p).head?, ¬p c := by
  intro c hc
  have hnot := List.head?_dropWhile_not p cs
  rw [Option.mem_def.1 hc] at hnot
  simpa using hnot

/-- What is left after such a run is what stands after as many characters. -/
lemma drop_length_takeWhile {α : Type} (p : α → Bool) (cs : List α) :
    cs.drop (cs.takeWhile p).length = cs.dropWhile p := by
  conv => lhs; arg 2; rw [← List.takeWhile_append_dropWhile (p := p) (l := cs)]
  exact List.drop_left

/-! ## Strings -/

lemma newline_notMem_firstLine (cs : List Char) : '\n' ∉ firstLine cs := by
  fun_induction firstLine cs with
  | case4 c cs hn _ ih =>
    rw [List.mem_cons, not_or]
    exact ⟨fun h => hn h.symm, ih⟩
  | _ => simp

/-- A line goes on past a text that holds no line break, unless the text ends in the first half of
one. -/
lemma firstLine_append {cs rest : List Char} (hn : '\n' ∉ cs)
    (hr : rest.head? = some '\n' → cs.getLast? ≠ some '\r') :
    firstLine (cs ++ rest) = cs ++ firstLine rest := by
  induction cs with
  | nil => rfl
  | cons c cs ih =>
    rw [List.mem_cons, not_or] at hn
    rw [List.cons_append, firstLine]
    · rw [ih hn.2, List.cons_append]
      intro hrest hlast
      exact hr hrest (by simp [List.getLast?_cons, hlast])
    · exact fun h => hn.1 h.symm
    · rintro cs' rfl hcs'
      cases cs with
      | nil => exact hr (by simpa using congrArg List.head? hcs') rfl
      | cons d cs => simp_all

lemma throughQuote?_eq_none_iff {quote : Char} {cs : List Char} :
    throughQuote? quote cs = none ↔ quote ∉ cs := by
  induction cs with
  | nil => simp [throughQuote?]
  | cons c cs ih =>
    by_cases hc : c = quote
    · simp [throughQuote?, hc]
    · simp [throughQuote?, hc, ih, Ne.symm hc]

/-- A text up to its first quote is one without quotes and then the quote. -/
lemma throughQuote?_eq_some_iff {quote : Char} {cs t : List Char} :
    throughQuote? quote cs = some t ↔
      ∃ body rest, quote ∉ body ∧ t = body ++ [quote] ∧ cs = t ++ rest := by
  constructor
  · intro h
    induction cs generalizing t with
    | nil => simp [throughQuote?] at h
    | cons c cs ih =>
      rw [throughQuote?] at h
      split at h
      · next hc =>
        obtain rfl : [c] = t := by simpa using h
        exact ⟨[], cs, by simp, by simp [hc], by simp⟩
      · next hc =>
        obtain ⟨u, hu, rfl⟩ := Option.map_eq_some_iff.1 h
        obtain ⟨body, rest, hbody, rfl, rfl⟩ := ih hu
        exact ⟨c :: body, rest, by simp [hbody, Ne.symm hc], by simp, by simp⟩
  · rintro ⟨body, rest, hbody, rfl, rfl⟩
    induction body with
    | nil => simp [throughQuote?]
    | cons c body ih =>
      rw [List.mem_cons, not_or] at hbody
      simpa [throughQuote?, Ne.symm hbody.1] using ih hbody.2

/-- What a quoted text takes of a line is taken again, whatever the line goes on with. -/
lemma throughQuote?_firstLine_append {quote : Char} (hr : quote ≠ '\r') {cs t : List Char}
    (rest : List Char) (h : throughQuote? quote (firstLine cs) = some t) :
    throughQuote? quote (firstLine (t ++ rest)) = some t := by
  have hn : '\n' ∉ t := fun hmem =>
    newline_notMem_firstLine cs ((throughQuote?_isPrefix h).subset hmem)
  obtain ⟨body, _, hbody, rfl, -⟩ := throughQuote?_eq_some_iff.1 h
  rw [firstLine_append hn fun _ => by simpa using hr]
  exact throughQuote?_eq_some_iff.2 ⟨body, _, hbody, rfl, rfl⟩

/-! ## Lexemes -/

/-- A reserved word is the canonical text of its kind, a built-in datatype or a keyword. -/
lemma Kind.text_of_reserved? {s : String} {k : Kind} (h : reserved? s = some k) :
    k.text = s ∧ (k.isNative ∨ ∃ w, k = .keyword w) := by
  have htext : k.text = s := by simpa using List.find?_some h
  have hmem : k ∈ reserved := List.mem_of_find?_eq_some h
  rcases List.mem_append.1 hmem with hn | hw
  · obtain ⟨n, -, rfl⟩ := List.mem_map.1 hn
    exact ⟨htext, .inl rfl⟩
  · obtain ⟨w, -, rfl⟩ := List.mem_map.1 hw
    exact ⟨htext, .inr ⟨w, rfl⟩⟩

namespace Lexeme

variable {c : Char} {cs rest : List Char}

lemma text_eq_cons (c : Char) (cs : List Char) :
    (read c cs).text = c :: (read c cs).text.tail := by
  cases h : (read c cs).text with
  | nil => exact absurd h (read_text_ne_nil c cs)
  | cons d ds =>
    have hprefix := h ▸ read_text_isPrefix c cs
    rw [(List.cons_prefix_cons.1 hprefix).1, List.tail_cons]

lemma readLess_tail_append (cs : List Char) (hrest : EndsLexeme rest) :
    readLess ((readLess cs).text.tail ++ rest) = readLess cs := by
  have hless : readLess rest = ⟨.symbol .less, ['<'], false, none⟩ := by
    unfold readLess
    split
    all_goals simp_all [isLexemeEnd]
  fun_cases readLess cs with
  | case4 => exact hless
  | _ => rfl

lemma readGreater_tail_append (cs : List Char) (hrest : EndsLexeme rest) :
    readGreater ((readGreater cs).text.tail ++ rest) = readGreater cs := by
  have hgreater : readGreater rest = ⟨.symbol .greater, ['>'], false, none⟩ := by
    unfold readGreater
    split
    all_goals simp_all [isLexemeEnd]
  fun_cases readGreater cs with
  | case1 => rfl
  | case2 => exact hgreater

lemma readString_tail_append (rest : List Char) (h : (readString cs).fault = none) :
    readString ((readString cs).text.tail ++ rest) = readString cs := by
  cases hbody : throughQuote? '"' (firstLine cs) with
  | none => simp [readString, hbody, illegal] at h
  | some body =>
    have hagain := throughQuote?_firstLine_append (by decide) rest hbody
    simp [readString, hbody, hagain]

lemma readChar_tail_append (rest : List Char) (h : (readChar cs).fault = none) :
    readChar ((readChar cs).text.tail ++ rest) = readChar cs := by
  revert h
  fun_cases readChar cs with
  | case1 => intro _; rfl
  | case3 c cs _ hn =>
    intro _
    simp [readChar, hn]
  | _ =>
    intro h
    cases h

lemma startsNumber_takeWhile_append (rest : List Char) (h : startsNumber c cs) :
    startsNumber c (cs.takeWhile isNumberPart ++ rest) := by
  cases cs with
  | nil =>
    have hdigit : c.isDigit := by simpa [startsNumber] using h
    simp [startsNumber, hdigit]
  | cons d cs =>
    rcases (by simpa [startsNumber] using h : c.isDigit ∨ c = '.' ∧ d.isDigit) with hc | ⟨rfl, hd⟩
    · simp [startsNumber, hc]
    · simp [startsNumber, isNumberPart, hd]

/-- A lexeme without fault is read again before every text that cannot belong to it. -/
lemma read_tail_append (h : (read c cs).fault = none) (hrest : EndsLexeme rest) :
    read c ((read c cs).text.tail ++ rest) = read c cs := by
  cases hk : Kind.ofChar? c with
  | some kind => simp [read, hk]
  | none =>
    by_cases hslash : c = '/'
    · simp [read, hslash]
    by_cases hless : c = '<'
    · subst hless
      exact readLess_tail_append cs hrest
    by_cases hgreater : c = '>'
    · subst hgreater
      exact readGreater_tail_append cs hrest
    by_cases hstring : c = '"'
    · subst hstring
      exact readString_tail_append rest h
    by_cases hchar : c = '\''
    · subst hchar
      exact readChar_tail_append rest h
    by_cases hnumber : startsNumber c cs
    · have hagain := startsNumber_takeWhile_append rest hnumber
      have htake : (cs.takeWhile isNumberPart ++ rest).takeWhile isNumberPart =
          cs.takeWhile isNumberPart :=
        takeWhile_takeWhile_append hrest.not_isNumberPart
      simp [read, hk, hslash, hless, hgreater, hstring, hchar, hnumber, hagain, htake]
    by_cases hdot : c = '.'
    · subst hdot
      have hagain : startsNumber '.' rest = false := by
        cases rest with
        | nil => rfl
        | cons d rest =>
          have := hrest.not_isNumberPart d rfl
          simp_all [startsNumber, isNumberPart]
      simp [read, hk, hnumber, hagain]
    have hdigit : c.isDigit = false := by
      simpa [startsNumber, hdot] using hnumber
    by_cases hword : isWordStart c
    · have htake : (cs.takeWhile isWordPart ++ rest).takeWhile isWordPart =
          cs.takeWhile isWordPart :=
        takeWhile_takeWhile_append hrest.not_isWordPart
      simp [read, hk, hslash, hless, hgreater, hstring, hchar, startsNumber, hdigit, hdot, hword,
        htake]
    · simp [read, hk, hslash, hless, hgreater, hstring, hchar, hnumber, hdot, hword, illegal] at h

/-- A property of lexemes holds of what is read if it holds of a character that is a token by itself
and of what each of the readers gives. -/
lemma read_cases {P : Lexeme → Prop} (c : Char) (cs : List Char)
    (char : ∀ kind : Kind, kind.text = String.ofList [c] → P ⟨kind, [c], false, none⟩)
    (less : c = '<' → P (readLess cs)) (greater : c = '>' → P (readGreater cs))
    (string : c = '"' → P (readString cs)) (quoted : c = '\'' → P (readChar cs))
    (number : startsNumber c cs → P (ofNumber (c :: cs.takeWhile isNumberPart)))
    (word : isWordStart c → P (ofWord (c :: cs.takeWhile isWordPart)))
    (unknown : P (illegal .unrecognisedCharacter [c])) : P (read c cs) := by
  unfold read
  split
  · next kind hk => exact char kind (Kind.text_of_ofChar? hk)
  split
  · next h => exact char _ (h ▸ rfl)
  split
  · next h => exact less h
  split
  · next h => exact greater h
  split
  · next h => exact string h
  split
  · next h => exact quoted h
  split
  · next h => exact number h
  split
  · next h => exact char _ (h ▸ rfl)
  split
  · next h => exact word h
  · exact unknown

/-- What every lexeme satisfies, whatever text it was read from. -/
structure Regular (l : Lexeme) : Prop where
  /-- Illegal text has a fault and nothing else has. -/
  fault : l.fault = none ↔ l.kind ≠ .illegal
  /-- Only built-in datatypes have literals. -/
  isLiteral : l.isLiteral → l.kind.isNative
  /-- Keywords, symbols and line breaks have the canonical text of their kind. -/
  text : l.kind = .illegal ∨ l.kind = .identifier ∨ l.kind.isNative ∨
    l.text = l.kind.text.toList

lemma regular_literal (type : Native) (text : List Char) : (literal type text).Regular :=
  ⟨by simp [literal], fun _ => rfl, .inr (.inr (.inl rfl))⟩

lemma regular_illegal (fault : Fault) (text : List Char) : (illegal fault text).Regular :=
  ⟨by simp [illegal], by simp [illegal], .inl rfl⟩

lemma regular_canonical {kind : Kind} {text : List Char} (hi : kind ≠ .illegal)
    (h : text = kind.text.toList) : (⟨kind, text, false, none⟩ : Lexeme).Regular :=
  ⟨by simp [hi], by simp, .inr (.inr (.inr h))⟩

lemma regular_readLess (cs : List Char) : (readLess cs).Regular := by
  unfold readLess
  split <;> exact regular_canonical (by simp) rfl

lemma regular_readGreater (cs : List Char) : (readGreater cs).Regular := by
  unfold readGreater
  split <;> exact regular_canonical (by simp) rfl

lemma regular_readString (cs : List Char) : (readString cs).Regular := by
  unfold readString
  split
  · exact regular_literal ..
  · exact regular_illegal ..

lemma regular_readChar (cs : List Char) : (readChar cs).Regular := by
  unfold readChar
  split
  · exact regular_literal ..
  · split
    · exact regular_illegal ..
    · exact regular_literal ..
  · exact regular_illegal ..

lemma regular_ofNumber (text : List Char) : (ofNumber text).Regular := by
  unfold ofNumber
  split
  · exact regular_illegal ..
  · split
    · exact regular_literal ..
    · exact regular_literal ..

lemma regular_ofWord (text : List Char) : (ofWord text).Regular := by
  unfold ofWord
  split
  · exact regular_literal ..
  · cases h : Kind.reserved? (String.ofList text) with
    | none => exact ⟨by simp, by simp, .inr (.inl rfl)⟩
    | some kind =>
      obtain ⟨htext, hkind⟩ := Kind.text_of_reserved? h
      refine regular_canonical ?_ (by simp [htext])
      rcases hkind with hn | ⟨k, rfl⟩
      · rintro rfl
        cases hn
      · simp

lemma regular_read (c : Char) (cs : List Char) : (read c cs).Regular := by
  refine read_cases c cs ?_ (fun _ => regular_readLess cs) (fun _ => regular_readGreater cs)
    (fun _ => regular_readString cs) (fun _ => regular_readChar cs) (fun _ => regular_ofNumber _)
    (fun _ => regular_ofWord _) (regular_illegal ..)
  intro kind htext
  refine regular_canonical ?_ (by simp [htext])
  rintro rfl
  have hlength : "ILLEGAL".length = 1 := by
    simpa [Kind.text] using congrArg String.length htext
  exact absurd hlength (by decide)

lemma fault_eq_none_of_kind (h : (read c cs).kind ≠ .illegal) : (read c cs).fault = none :=
  (regular_read c cs).fault.2 h

lemma text_eq_of_kind {k : Kind} (hk : (read c cs).kind = k) (hi : k ≠ .illegal)
    (hid : k ≠ .identifier) (hn : ¬k.isNative) : (read c cs).text = k.text.toList := by
  have hcanonical := (regular_read c cs).text
  rw [hk] at hcanonical
  rcases hcanonical with h | h | h | h
  · exact absurd h hi
  · exact absurd h hid
  · exact absurd h hn
  · exact h

end Lexeme

/-! ## Trivia -/

/-- Nothing at the front of the text is skipped. -/
lemma trivia_eq_nil_iff {cs : List Char} :
    trivia cs = [] ↔ (∀ c ∈ cs.head?, ¬isBlank c) ∧ comment cs = [] := by
  cases cs with
  | nil => simp [trivia]
  | cons c cs =>
    by_cases hc : isBlank c
    · simp [trivia, hc]
    · simp [trivia, hc]

lemma comment_eq_nil {c : Char} {cs : List Char} (h : c = '/' → cs.head? ≠ some '/') :
    comment (c :: cs) = [] := by
  unfold comment
  split
  · next heq =>
    obtain ⟨rfl, rfl⟩ := List.cons.inj heq
    simp at h
  · rfl

/-- Blanks are skipped, and whatever can be skipped after them. -/
lemma trivia_blanks_append {gap : List Char} (hgap : ∀ c ∈ gap, isBlank c) (cs : List Char) :
    trivia (gap ++ cs) = gap ++ trivia cs := by
  rw [trivia, List.takeWhile_append_of_pos hgap, List.dropWhile_append_of_pos hgap,
    List.append_assoc]
  rfl

/-- Nothing after blanks is skipped when what follows is no trivia. -/
lemma trivia_append {gap cs : List Char} (hgap : ∀ c ∈ gap, isBlank c) (h : trivia cs = []) :
    trivia (gap ++ cs) = gap := by
  rw [trivia_blanks_append hgap, h, List.append_nil]

/-- A comment takes all of its line and leaves the line break. -/
lemma comment_cases (cs : List Char) :
    comment cs = [] ∨ ∃ body, comment cs = '/' :: '/' :: body ∧ '\n' ∉ body ∧
      ∀ c ∈ (cs.drop (comment cs).length).head?, c = '\n' := by
  fun_cases comment cs with
  | case1 cs =>
    refine .inr ⟨_, rfl, fun h => by simpa using List.mem_takeWhile_imp h, ?_⟩
    intro c hc
    simp only [List.length_cons, List.drop_succ_cons, drop_length_takeWhile] at hc
    simpa using not_of_head?_dropWhile _ cs c hc
  | case2 => exact .inl rfl

lemma drop_trivia (cs : List Char) :
    cs.drop (trivia cs).length =
      (cs.dropWhile isBlank).drop (comment (cs.dropWhile isBlank)).length := by
  conv => lhs; arg 2; rw [← List.takeWhile_append_dropWhile (p := isBlank) (l := cs)]
  rw [trivia, List.length_append, List.drop_length_add_append]

/-- Nothing is left to skip after the trivia. -/
lemma trivia_drop_trivia (cs : List Char) : trivia (cs.drop (trivia cs).length) = [] := by
  rw [drop_trivia, trivia_eq_nil_iff]
  rcases comment_cases (cs.dropWhile isBlank) with hnone | ⟨_, -, -, hhead⟩
  · rw [hnone]
    exact ⟨not_of_head?_dropWhile isBlank cs, hnone⟩
  · cases hrest : (cs.dropWhile isBlank).drop (comment (cs.dropWhile isBlank)).length with
    | nil => simp [comment]
    | cons c rest =>
      obtain rfl : c = '\n' := hhead c (by rw [hrest]; rfl)
      simp [isBlank, comment]

end Pseudolang
