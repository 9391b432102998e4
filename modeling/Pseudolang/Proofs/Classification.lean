import Pseudolang.Proofs.Isolation

/-!
# The forms of tokens

Every token has one of a few forms.  `Form.Fits` says, in terms of characters alone, which texts
have a form, given what follows them in the source.  For words and numbers that is a class of
characters for the text and the rule that what follows does not continue it, which makes the text as
long as can be; for a literal that is left open it is that the line ends there.

The forms settle lexing in both directions.  What is read from a text has a form, with the kind, the
literal flag and the fault of that form (`Lexeme.isClassified_read`).  And a text that has a form is
read as it stands, with this kind, flag and fault (`Form.Fits.read_eq`).  So no text has two forms,
since no two of them are marked alike, and every token of a source has exactly one
(`tokenize_forms`).
-/

namespace Pseudolang

/-! ## Classes of characters -/

/-- A character that a word starts with. -/
def BeginsWord (x : Char) : Prop :=
  x = '_' ∨ Text.isAlphabetic x

/-- A character that a word goes on with. -/
def ContinuesWord (x : Char) : Prop :=
  x = '_' ∨ Text.isAlphabetic x ∨ Text.isNumeric x

/-- A character that a number goes on with. -/
def ContinuesNumber (x : Char) : Prop :=
  x.isDigit ∨ x = '.'

/-- What follows a symbol and would make it another one, a comment or a number. -/
def Symbol.Extends : Symbol → Char → Prop
  | less, x => x = '-' ∨ x = '>' ∨ x = '='
  | greater, x => x = '='
  | slash, x => x = '/'
  | dot, x => x.isDigit
  | _, _ => False

/-- A character that no token starts with: no letter, digit or line break, no first character of a
symbol or a quoted literal, and no blank. -/
structure StartsNothing (x : Char) : Prop where
  word : ¬BeginsWord x
  digit : ¬x.isDigit
  symbol : ∀ s : Symbol, s.text.toList.head? ≠ some x
  newline : x ≠ '\n'
  blank : x ≠ ' ' ∧ x ≠ '\t' ∧ x ≠ '\r'

section Classes

variable {x : Char}

lemma isWordStart_iff : isWordStart x ↔ BeginsWord x := by
  simp [isWordStart, BeginsWord]

lemma isWordPart_iff : isWordPart x ↔ ContinuesWord x := by
  simp [isWordPart, isWordStart, ContinuesWord, or_assoc]

lemma isNumberPart_iff : isNumberPart x ↔ ContinuesNumber x := by
  simp [isNumberPart, ContinuesNumber]

lemma BeginsWord.continuesWord (h : BeginsWord x) : ContinuesWord x :=
  h.imp_right .inl

end Classes

/-! ## Forms -/

/-- A word and what follows it: nothing that continues it. -/
structure IsWord (text rest : List Char) : Prop where
  begins : ∃ x ∈ text.head?, BeginsWord x
  continues : ∀ x ∈ text, ContinuesWord x
  ends : ∀ x ∈ rest.head?, ¬ContinuesWord x

/-- A run of digits and points that starts with a digit, which may stand behind a point, and what
follows it: nothing that continues it. -/
structure IsNumber (text rest : List Char) : Prop where
  begins : (∃ x ∈ text.head?, x.isDigit) ∨ ∃ x xs, text = '.' :: x :: xs ∧ x.isDigit
  continues : ∀ x ∈ text, ContinuesNumber x
  ends : ∀ x ∈ rest.head?, ¬ContinuesNumber x

/-- The text goes up to the end of its line, which is a line break with or without a carriage return
before it, or the end of the source. -/
def EndsLine (text rest : List Char) : Prop :=
  rest = [] ∨ (∃ cs, rest = '\n' :: cs) ∧ text.getLast? ≠ some '\r' ∨
    ∃ cs, rest = '\r' :: '\n' :: cs

/-- What a lexeme can be. -/
inductive Form
  | identifier
  | keyword (k : Keyword)
  | datatype (n : Native)
  | boolean | integer | real | malformedNumber
  | string | unterminatedString
  | char | malformedChar
  | symbol (s : Symbol)
  | endOfLine
  | unrecognisedCharacter
  | endOfFile

namespace Form

/-- The kind of the tokens of the form. -/
def kind : Form → Kind
  | identifier => .identifier
  | keyword k => .keyword k
  | datatype n => .native n
  | boolean => .native .boolean
  | integer => .native .integer
  | real => .native .real
  | string => .native .string
  | char => .native .char
  | symbol s => .symbol s
  | endOfLine => .endOfLine
  | endOfFile => .endOfFile
  | malformedNumber | unterminatedString | malformedChar | unrecognisedCharacter => .illegal

/-- Whether the tokens of the form are value literals. -/
def isLiteral : Form → Bool
  | boolean | integer | real | string | char => true
  | _ => false

/-- What is wrong with the tokens of the form. -/
def fault : Form → Option Fault
  | malformedNumber => some .malformedNumber
  | unterminatedString => some .unterminatedString
  | malformedChar => some .malformedChar
  | unrecognisedCharacter => some .unrecognisedCharacter
  | _ => none

/-- The quote around the tokens of the form. -/
def quote? : Form → Option Char
  | string => some '"'
  | char => some '\''
  | _ => none

/-- The text has the form, given what follows it. -/
def Fits : Form → List Char → List Char → Prop
  | identifier, text, rest => IsWord text rest ∧ text ≠ "TRUE".toList ∧ text ≠ "FALSE".toList ∧
      ∀ k ∈ Kind.reserved, text ≠ k.text.toList
  | keyword k, text, rest => text = k.text.toList ∧ ∀ x ∈ rest.head?, ¬ContinuesWord x
  | datatype n, text, rest => text = n.text.toList ∧ ∀ x ∈ rest.head?, ¬ContinuesWord x
  | boolean, text, rest => (text = "TRUE".toList ∨ text = "FALSE".toList) ∧
      ∀ x ∈ rest.head?, ¬ContinuesWord x
  | integer, text, rest => text ≠ [] ∧ (∀ x ∈ text, x.isDigit) ∧
      ∀ x ∈ rest.head?, ¬ContinuesNumber x
  | real, text, rest => (∃ whole part, text = whole ++ '.' :: part ∧ (∀ x ∈ whole, x.isDigit) ∧
      part ≠ [] ∧ ∀ x ∈ part, x.isDigit) ∧ ∀ x ∈ rest.head?, ¬ContinuesNumber x
  | malformedNumber, text, rest => IsNumber text rest ∧
      (2 ≤ text.count '.' ∨ text.getLast? = some '.')
  | string, text, _ => ∃ s, text = '"' :: (s ++ ['"']) ∧ '"' ∉ s ∧ '\n' ∉ s
  | unterminatedString, text, rest => ∃ s, text = '"' :: s ∧ '"' ∉ s ∧ '\n' ∉ s ∧ EndsLine s rest
  | char, text, _ => text = ['\'', '\''] ∨ ∃ x, text = ['\'', x, '\''] ∧ x ≠ '\'' ∧ x ≠ '\n'
  | malformedChar, text, rest => ∃ s, '\'' ∉ s ∧ '\n' ∉ s ∧
      (text = '\'' :: (s ++ ['\'']) ∧ 2 ≤ s.length ∨ text = '\'' :: s ∧ EndsLine s rest)
  | symbol s, text, rest => text = s.text.toList ∧ s ≠ .doubleQuote ∧ s ≠ .singleQuote ∧
      ∀ x ∈ rest.head?, ¬s.Extends x
  | endOfLine, text, _ => text = ['\n']
  | unrecognisedCharacter, text, _ => ∃ x, text = [x] ∧ StartsNothing x
  | endOfFile, text, rest => text = [] ∧ rest = []

/-- No two forms are marked alike. -/
lemma eq_of_marks {f g : Form} (hk : f.kind = g.kind) (hl : f.isLiteral = g.isLiteral)
    (hf : f.fault = g.fault) : f = g := by
  cases f <;> cases g <;> simp_all [kind, isLiteral, fault]

/-- The forms with a fault are those of the illegal tokens. -/
lemma isSome_fault_iff (f : Form) : f.fault.isSome ↔ f.kind = .illegal := by
  cases f <;> simp [fault, kind]

end Form

/-! ## Lexemes with a form -/

namespace Lexeme

/-- The lexeme is marked as the form is, and its text has the form in front of what follows. -/
structure HasForm (l : Lexeme) (rest : List Char) (f : Form) : Prop where
  kind : l.kind = f.kind
  isLiteral : l.isLiteral = f.isLiteral
  fault : l.fault = f.fault
  fits : f.Fits l.text rest

/-- The lexeme is the front of the text and has a form there. -/
def IsClassified (l : Lexeme) (cs : List Char) : Prop :=
  ∃ f rest, cs = l.text ++ rest ∧ l.HasForm rest f

end Lexeme

/-! ## Characters that readers tell apart -/

section Characters

variable {x : Char} {xs text rest : List Char}

/-- The quotes and the symbols that readers look at before anything else. -/
def isSpecial (x : Char) : Bool :=
  (Kind.ofChar? x).isSome || x = '/' || x = '<' || x = '>' || x = '"' || x = '\''

/-- Before any other character, numbers come first, then points and words. -/
lemma Lexeme.read_of_not_isSpecial (h : ¬isSpecial x) (cs : List Char) :
    read x cs =
      if startsNumber x cs then ofNumber (x :: cs.takeWhile isNumberPart)
      else if x = '.' then ⟨.symbol .dot, [x], false, none⟩
      else if isWordStart x then ofWord (x :: cs.takeWhile isWordPart)
      else illegal .unrecognisedCharacter [x] := by
  simp only [isSpecial, Bool.or_eq_true, decide_eq_true_eq, not_or, Option.not_isSome_iff_eq_none]
    at h
  obtain ⟨⟨⟨⟨⟨hk, hslash⟩, hless⟩, hgreater⟩, hdouble⟩, hsingle⟩ := h
  simp [read, hk, hslash, hless, hgreater, hdouble, hsingle]

/-- All of them. -/
def specials : List Char :=
  ['\n', '+', '-', '*', '^', ':', '=', '&', '(', ')', '[', ']', ',', '/', '<', '>', '"', '\'']

lemma mem_specials (h : isSpecial x) : x ∈ specials := by
  simp only [isSpecial, Bool.or_eq_true, decide_eq_true_eq] at h
  obtain ((((h | rfl) | rfl) | rfl) | rfl) | rfl := h
  · unfold Kind.ofChar? at h
    split at h <;> simp [specials] at h ⊢
  all_goals simp [specials]

lemma not_isSpecial_of_beginsWord (h : BeginsWord x) : ¬isSpecial x := by
  intro hs
  have hall : specials.all fun y => !isWordStart y := by decide
  have hstart : isWordStart x = false := by simpa using List.all_eq_true.1 hall x (mem_specials hs)
  exact absurd (isWordStart_iff.2 h) (by simp [hstart])

lemma not_isSpecial_of_continuesNumber (h : ContinuesNumber x) : ¬isSpecial x := by
  intro hs
  have hall : specials.all fun y => !isNumberPart y := by decide
  have hpart : isNumberPart x = false := by simpa using List.all_eq_true.1 hall x (mem_specials hs)
  exact absurd (isNumberPart_iff.2 h) (by simp [hpart])

lemma not_isDigit_of_beginsWord (h : BeginsWord x) : x.isDigit = false := by
  rw [Bool.eq_false_iff]
  intro hd
  rcases h with rfl | h
  · exact absurd hd (by decide)
  · obtain ⟨p, hp, hle, -⟩ := (Text.alphabetic.covers_iff _).1 h
    have hall : ∀ p ∈ Text.alphabetic.list, 58 ≤ p.1 := by decide +kernel
    have hlast : x.toNat ≤ 57 := by
      simp only [Char.isDigit, Bool.and_eq_true, decide_eq_true_eq, UInt32.le_iff_toNat_le] at hd
      exact hd.2
    have := hall p hp
    omega

/-- A run of characters of one class that is followed by none of the class is taken as it stands. -/
lemma takeWhile_append_eq {p : Char → Bool} (hxs : ∀ x ∈ xs, p x) (hrest : ∀ x ∈ rest.head?, ¬p x) :
    (xs ++ rest).takeWhile p = xs := by
  have h : (xs.takeWhile p ++ rest).takeWhile p = xs.takeWhile p := takeWhile_takeWhile_append hrest
  rwa [List.takeWhile_eq_self_iff.2 hxs] at h

end Characters

/-! ## Words -/

section Words

variable {x : Char} {xs text rest cs : List Char}

/-- A word is taken as it stands. -/
lemma IsWord.read_eq (h : IsWord (x :: xs) rest) :
    Lexeme.read x (xs ++ rest) = Lexeme.ofWord (x :: xs) := by
  have hbegins : BeginsWord x := by simpa using h.begins
  have hdigit := not_isDigit_of_beginsWord hbegins
  have hstart := isWordStart_iff.2 hbegins
  have hdot : x ≠ '.' := by
    rintro rfl
    exact absurd hstart (by decide)
  have htake : (xs ++ rest).takeWhile isWordPart = xs :=
    takeWhile_append_eq (fun y hy => isWordPart_iff.2 (h.continues y (List.mem_cons_of_mem _ hy)))
      fun y hy => by simpa [isWordPart_iff] using h.ends y hy
  rw [Lexeme.read_of_not_isSpecial (not_isSpecial_of_beginsWord hbegins), htake]
  simp [Lexeme.startsNumber, hdigit, hdot, hstart]

lemma isWord_takeWhile (h : isWordStart x) (cs : List Char) :
    IsWord (x :: cs.takeWhile isWordPart) (cs.dropWhile isWordPart) where
  begins := ⟨x, rfl, isWordStart_iff.1 h⟩
  continues := by
    rw [List.forall_mem_cons]
    exact ⟨(isWordStart_iff.1 h).continuesWord,
      fun y hy => isWordPart_iff.1 (List.mem_takeWhile_imp hy)⟩
  ends y hy := by
    rw [← isWordPart_iff]
    exact not_of_head?_dropWhile isWordPart cs y hy

/-- Reserved words are words, none of them a truth value, and each is found by its text. -/
lemma reserved_words : ∀ k ∈ Kind.reserved, (k.text.toList.head?.any isWordStart ∧
    k.text.toList.all isWordPart) ∧ k.text.toList ≠ "TRUE".toList ∧
    k.text.toList ≠ "FALSE".toList ∧ Kind.reserved? k.text = some k := by
  decide +kernel

lemma Keyword.mem_reserved (k : Keyword) : Kind.keyword k ∈ Kind.reserved := by
  simp [Kind.reserved, k.mem_all]

lemma Native.mem_reserved (n : Native) : Kind.native n ∈ Kind.reserved := by
  simp [Kind.reserved, n.mem_all]

lemma isWord_reserved {k : Kind} (hk : k ∈ Kind.reserved)
    (hrest : ∀ x ∈ rest.head?, ¬ContinuesWord x) : IsWord k.text.toList rest where
  begins := by
    obtain ⟨x, hx, hstart⟩ := Option.any_eq_true _ _ |>.1 (reserved_words k hk).1.1
    exact ⟨x, hx, isWordStart_iff.1 hstart⟩
  continues x hx := isWordPart_iff.1 (List.all_eq_true.1 (reserved_words k hk).1.2 x hx)
  ends := hrest

lemma ofWord_reserved {k : Kind} (hk : k ∈ Kind.reserved) :
    Lexeme.ofWord k.text.toList = ⟨k, k.text.toList, false, none⟩ := by
  obtain ⟨-, htrue, hfalse, hfound⟩ := reserved_words k hk
  have htruth : ¬(k.text.toList = ['T', 'R', 'U', 'E'] ∨
      k.text.toList = ['F', 'A', 'L', 'S', 'E']) := not_or.2 ⟨htrue, hfalse⟩
  rw [Lexeme.ofWord, if_neg htruth, String.ofList_toList, hfound]
  rfl

/-- A reserved word is taken as it stands. -/
lemma read_reserved {k : Kind} (hk : k ∈ Kind.reserved) (htext : x :: xs = k.text.toList)
    (hrest : ∀ x ∈ rest.head?, ¬ContinuesWord x) :
    Lexeme.read x (xs ++ rest) = ⟨k, x :: xs, false, none⟩ := by
  have hword : IsWord (x :: xs) rest := htext ▸ isWord_reserved hk hrest
  rw [hword.read_eq, htext]
  exact ofWord_reserved hk

lemma isWord_truth (h : text = "TRUE".toList ∨ text = "FALSE".toList)
    (hrest : ∀ x ∈ rest.head?, ¬ContinuesWord x) : IsWord text rest := by
  have hparts : ∀ text ∈ ["TRUE".toList, "FALSE".toList], text.head?.any isWordStart ∧
      text.all isWordPart := by decide
  obtain ⟨hstart, hall⟩ := hparts text (by simpa using h)
  obtain ⟨x, hx, hstart⟩ := Option.any_eq_true _ _ |>.1 hstart
  exact ⟨⟨x, hx, isWordStart_iff.1 hstart⟩,
    fun y hy => isWordPart_iff.1 (List.all_eq_true.1 hall y hy), hrest⟩

lemma ofWord_truth (h : text = "TRUE".toList ∨ text = "FALSE".toList) :
    Lexeme.ofWord text = .literal .boolean text := by
  have htruth : text = ['T', 'R', 'U', 'E'] ∨ text = ['F', 'A', 'L', 'S', 'E'] := h
  rw [Lexeme.ofWord, if_pos htruth]

lemma ofWord_identifier (htrue : text ≠ "TRUE".toList) (hfalse : text ≠ "FALSE".toList)
    (hreserved : ∀ k ∈ Kind.reserved, text ≠ k.text.toList) :
    Lexeme.ofWord text = ⟨.identifier, text, false, none⟩ := by
  have hnone : Kind.reserved? (String.ofList text) = none := by
    rw [Kind.reserved?, List.find?_eq_none]
    intro k hk htext
    refine hreserved k hk ?_
    rw [of_decide_eq_true htext, String.toList_ofList]
  have htruth : ¬(text = ['T', 'R', 'U', 'E'] ∨ text = ['F', 'A', 'L', 'S', 'E']) :=
    not_or.2 ⟨htrue, hfalse⟩
  rw [Lexeme.ofWord, if_neg htruth, hnone]
  rfl

/-- A word is a truth value, a reserved word or an identifier. -/
lemma IsWord.exists_form (h : IsWord text rest) : ∃ f, (Lexeme.ofWord text).HasForm rest f := by
  unfold Lexeme.ofWord
  split
  · next htruth => exact ⟨.boolean, rfl, rfl, rfl, htruth, h.ends⟩
  · next htruth =>
    rw [not_or] at htruth
    cases hfound : Kind.reserved? (String.ofList text) with
    | none =>
      refine ⟨.identifier, rfl, rfl, rfl, h, htruth.1, htruth.2, fun k hk heq => ?_⟩
      have htext : text = k.text.toList := heq
      rw [htext, String.ofList_toList, (reserved_words k hk).2.2.2] at hfound
      cases hfound
    | some k =>
      obtain ⟨htext, hkind⟩ := Kind.text_of_reserved? hfound
      have htext' : text = k.text.toList := by rw [htext, String.toList_ofList]
      cases k with
      | native n => exact ⟨.datatype n, rfl, rfl, rfl, htext', h.ends⟩
      | keyword w => exact ⟨.keyword w, rfl, rfl, rfl, htext', h.ends⟩
      | _ => simp [Kind.isNative] at hkind

end Words

/-! ## Numbers -/

section Numbers

variable {x : Char} {xs text rest cs : List Char}

lemma startsNumber_iff :
    Lexeme.startsNumber x cs ↔ x.isDigit ∨ x = '.' ∧ ∃ y ys, cs = y :: ys ∧ y.isDigit := by
  cases cs <;> simp [Lexeme.startsNumber]

/-- A number is taken as it stands. -/
lemma IsNumber.read_eq (h : IsNumber (x :: xs) rest) :
    Lexeme.read x (xs ++ rest) = Lexeme.ofNumber (x :: xs) := by
  have hstart : Lexeme.startsNumber x (xs ++ rest) := by
    rcases h.begins with ⟨y, hy, hdigit⟩ | ⟨y, ys, heq, hdigit⟩
    · obtain rfl : x = y := by simpa using hy
      exact startsNumber_iff.2 (.inl hdigit)
    · obtain ⟨rfl, rfl⟩ := List.cons.inj heq
      exact startsNumber_iff.2 (.inr ⟨rfl, y, ys ++ rest, rfl, hdigit⟩)
  have htake : (xs ++ rest).takeWhile isNumberPart = xs :=
    takeWhile_append_eq
      (fun y hy => isNumberPart_iff.2 (h.continues y (List.mem_cons_of_mem _ hy)))
      fun y hy => by simpa [isNumberPart_iff] using h.ends y hy
  rw [Lexeme.read_of_not_isSpecial
    (not_isSpecial_of_continuesNumber (h.continues x (List.mem_cons_self ..))), if_pos hstart,
    htake]

lemma isNumber_takeWhile (h : Lexeme.startsNumber x cs) :
    IsNumber (x :: cs.takeWhile isNumberPart) (cs.dropWhile isNumberPart) where
  begins := by
    rcases startsNumber_iff.1 h with hdigit | ⟨rfl, y, ys, rfl, hdigit⟩
    · exact .inl ⟨x, rfl, hdigit⟩
    · exact .inr ⟨y, ys.takeWhile isNumberPart, by simp [isNumberPart, hdigit], hdigit⟩
  continues := by
    rw [List.forall_mem_cons]
    exact ⟨(startsNumber_iff.1 h).imp_right And.left,
      fun y hy => isNumberPart_iff.1 (List.mem_takeWhile_imp hy)⟩
  ends y hy := by
    rw [← isNumberPart_iff]
    exact not_of_head?_dropWhile isNumberPart cs y hy

/-- A run with one point, which is not its last character, is a real number. -/
lemma exists_parts (h : ∀ x ∈ text, ContinuesNumber x) (hcount : text.count '.' = 1)
    (hlast : text.getLast? ≠ some '.') :
    ∃ whole part, text = whole ++ '.' :: part ∧ (∀ x ∈ whole, x.isDigit) ∧ part ≠ [] ∧
      ∀ x ∈ part, x.isDigit := by
  have hmem : '.' ∈ text := List.count_pos_iff.1 (by omega)
  obtain ⟨whole, part, rfl⟩ := List.append_of_mem hmem
  rw [List.count_append, List.count_cons_self] at hcount
  have hwhole : '.' ∉ whole := List.count_eq_zero.1 (by omega)
  have hpart : '.' ∉ part := List.count_eq_zero.1 (by omega)
  rw [List.forall_mem_append, List.forall_mem_cons] at h
  refine ⟨whole, part, rfl, fun x hx => (h.1 x hx).resolve_right fun hdot => hwhole (hdot ▸ hx), ?_,
    fun x hx => (h.2.2 x hx).resolve_right fun hdot => hpart (hdot ▸ hx)⟩
  rintro rfl
  simp at hlast

/-- A run of digits and points is a number or malformed. -/
lemma IsNumber.exists_form (h : IsNumber text rest) :
    ∃ f, (Lexeme.ofNumber text).HasForm rest f := by
  unfold Lexeme.ofNumber
  split
  · next hbad => exact ⟨.malformedNumber, rfl, rfl, rfl, h, hbad⟩
  · next hgood =>
    rw [not_or] at hgood
    split
    · next hone =>
      exact ⟨.real, rfl, rfl, rfl, exists_parts h.continues hone hgood.2, h.ends⟩
    · next hone =>
      have hnone : '.' ∉ text := List.count_eq_zero.1 (by omega)
      refine ⟨.integer, rfl, rfl, rfl, ?_, fun x hx => ?_, h.ends⟩
      · rcases h.begins with ⟨x, hx, -⟩ | ⟨x, xs, rfl, -⟩
        · exact List.ne_nil_of_mem (List.mem_of_mem_head? hx)
        · simp
      · exact (h.continues x hx).resolve_right fun hdot => hnone (hdot ▸ hx)

lemma ofNumber_digits (h : ∀ x ∈ text, x.isDigit) :
    Lexeme.ofNumber text = .literal .integer text := by
  have hdot : '.' ∉ text := fun hmem => absurd (h _ hmem) (by decide)
  have hlast : text.getLast? ≠ some '.' := fun hlast => hdot (List.mem_of_getLast? hlast)
  rw [Lexeme.ofNumber, List.count_eq_zero.2 hdot]
  simp [hlast]

lemma ofNumber_parts {whole part : List Char} (hwhole : ∀ x ∈ whole, x.isDigit) (hne : part ≠ [])
    (hpart : ∀ x ∈ part, x.isDigit) :
    Lexeme.ofNumber (whole ++ '.' :: part) = .literal .real (whole ++ '.' :: part) := by
  have hdot {ds : List Char} (hds : ∀ x ∈ ds, x.isDigit) : '.' ∉ ds := fun hmem =>
    absurd (hds _ hmem) (by decide)
  have hcount : (whole ++ '.' :: part).count '.' = 1 := by
    rw [List.count_append, List.count_cons_self, List.count_eq_zero.2 (hdot hwhole),
      List.count_eq_zero.2 (hdot hpart)]
  have hlast : (whole ++ '.' :: part).getLast? ≠ some '.' := by
    rw [List.getLast?_append_cons, List.getLast?_cons_of_ne_nil hne]
    exact fun hlast => hdot hpart (List.mem_of_getLast? hlast)
  rw [Lexeme.ofNumber, hcount, if_neg (by simpa using hlast), if_pos rfl]

/-- Digits, with or without a point before the last of them, are a number. -/
lemma isNumber_digits (hne : text ≠ []) (h : ∀ x ∈ text, x.isDigit)
    (hrest : ∀ x ∈ rest.head?, ¬ContinuesNumber x) : IsNumber text rest where
  begins := by
    obtain ⟨x, xs, rfl⟩ := List.exists_cons_of_ne_nil hne
    exact .inl ⟨x, rfl, h x (List.mem_cons_self ..)⟩
  continues x hx := .inl (h x hx)
  ends := hrest

lemma isNumber_parts {whole part : List Char} (hwhole : ∀ x ∈ whole, x.isDigit) (hne : part ≠ [])
    (hpart : ∀ x ∈ part, x.isDigit) (hrest : ∀ x ∈ rest.head?, ¬ContinuesNumber x) :
    IsNumber (whole ++ '.' :: part) rest where
  begins := by
    cases whole with
    | nil =>
      obtain ⟨x, xs, rfl⟩ := List.exists_cons_of_ne_nil hne
      exact .inr ⟨x, xs, rfl, hpart x (List.mem_cons_self ..)⟩
    | cons x xs => exact .inl ⟨x, rfl, hwhole x (List.mem_cons_self ..)⟩
  continues := by
    rw [List.forall_mem_append, List.forall_mem_cons]
    exact ⟨fun x hx => .inl (hwhole x hx), .inr rfl, fun x hx => .inl (hpart x hx)⟩
  ends := hrest

end Numbers

/-! ## Quotes -/

section Quotes

variable {x y : Char} {s rest cs : List Char}

/-- Such a text is the first line. -/
lemma EndsLine.firstLine_eq (h : EndsLine s rest) (hn : '\n' ∉ s) : firstLine (s ++ rest) = s := by
  have hrest : firstLine rest = [] := by
    rcases h with rfl | ⟨⟨cs, rfl⟩, -⟩ | ⟨cs, rfl⟩ <;> simp [firstLine]
  rw [firstLine_append hn, hrest, List.append_nil]
  rcases h with rfl | ⟨-, hlast⟩ | ⟨cs, rfl⟩
  · simp
  · exact fun _ => hlast
  · simp

/-- The first line goes up to its end. -/
lemma exists_endsLine (cs : List Char) :
    ∃ rest, cs = firstLine cs ++ rest ∧ EndsLine (firstLine cs) rest := by
  fun_induction firstLine cs with
  | case1 => exact ⟨[], rfl, .inl rfl⟩
  | case2 cs => exact ⟨'\n' :: cs, rfl, .inr (.inl ⟨⟨cs, rfl⟩, by simp⟩)⟩
  | case3 cs => exact ⟨'\r' :: '\n' :: cs, rfl, .inr (.inr ⟨cs, rfl⟩)⟩
  | case4 c cs _ hreturn ih =>
    obtain ⟨rest, heq, hends⟩ := ih
    refine ⟨rest, by rw [List.cons_append, ← heq], ?_⟩
    rcases hends with rfl | ⟨⟨ds, rfl⟩, hlast⟩ | hends
    · exact .inl rfl
    · refine .inr (.inl ⟨⟨ds, rfl⟩, ?_⟩)
      cases hline : firstLine cs with
      | nil =>
        rw [hline] at heq
        simpa using fun hc => hreturn ds hc heq
      | cons d line => rwa [List.getLast?_cons_cons, ← hline]
    · exact .inr (.inr hends)

/-- A quote that a text without line breaks holds is found on the first line. -/
lemma throughQuote?_firstLine {q : Char} (hquote : q ≠ '\n') (hreturn : q ≠ '\r') (hs : q ∉ s)
    (hn : '\n' ∉ s) : throughQuote? q (firstLine (s ++ [q] ++ rest)) = some (s ++ [q]) := by
  have hline : '\n' ∉ s ++ [q] := by
    rw [List.mem_append, List.mem_singleton, not_or]
    exact ⟨hn, Ne.symm hquote⟩
  have hlast : (s ++ [q]).getLast? ≠ some '\r' := by
    rw [List.getLast?_concat, ne_eq, Option.some_inj]
    exact hreturn
  rw [firstLine_append hline fun _ => hlast]
  exact throughQuote?_eq_some_iff.2 ⟨s, _, hs, rfl, rfl⟩

/-- None is found when the line ends before it. -/
lemma EndsLine.throughQuote?_eq_none {q : Char} (h : EndsLine s rest) (hs : q ∉ s)
    (hn : '\n' ∉ s) : throughQuote? q (firstLine (s ++ rest)) = none := by
  rw [h.firstLine_eq hn]
  exact throughQuote?_eq_none_iff.2 hs

namespace Lexeme

lemma isClassified_readString (cs : List Char) : (readString cs).IsClassified ('"' :: cs) := by
  obtain ⟨rest, heq, hends⟩ := exists_endsLine cs
  have hn := newline_notMem_firstLine cs
  cases hbody : throughQuote? '"' (firstLine cs) with
  | some body =>
    obtain ⟨s, more, hs, rfl, hline⟩ := throughQuote?_eq_some_iff.1 hbody
    have hread : readString cs = literal .string ('"' :: (s ++ ['"'])) := by
      simp [readString, hbody]
    rw [hline] at heq hn
    rw [hread, heq]
    have hns : '\n' ∉ s := fun hmem => hn (by simp [hmem])
    exact ⟨.string, more ++ rest, by simp, rfl, rfl, rfl, s, rfl, hs, hns⟩
  | none =>
    have hread : readString cs = illegal .unterminatedString ('"' :: firstLine cs) := by
      simp [readString, hbody]
    rw [hread]
    exact ⟨.unterminatedString, rest, congrArg ('"' :: ·) heq, rfl, rfl, rfl, _, rfl,
      throughQuote?_eq_none_iff.1 hbody, hn, hends⟩

/-- What is read as malformed is closed, but not after fewer than two characters, or goes up to the
end of its line. -/
lemma isClassified_readMalformedChar
    (h : ∀ s rest, cs = s ++ '\'' :: rest → '\n' ∉ s → 2 ≤ s.length) :
    (readMalformedChar cs).IsClassified ('\'' :: cs) := by
  obtain ⟨rest, heq, hends⟩ := exists_endsLine cs
  have hn := newline_notMem_firstLine cs
  cases hbody : throughQuote? '\'' (firstLine cs) with
  | some body =>
    obtain ⟨s, more, hs, rfl, hline⟩ := throughQuote?_eq_some_iff.1 hbody
    have hread : readMalformedChar cs = illegal .malformedChar ('\'' :: (s ++ ['\''])) := by
      simp [readMalformedChar, hbody]
    rw [hline] at heq hn
    have hns : '\n' ∉ s := fun hmem => hn (by simp [hmem])
    have hlength := h s (more ++ rest) (by rw [heq]; simp) hns
    rw [hread, heq]
    exact ⟨.malformedChar, more ++ rest, by simp, rfl, rfl, rfl, s, hs, hns, .inl ⟨rfl, hlength⟩⟩
  | none =>
    have hread : readMalformedChar cs = illegal .malformedChar ('\'' :: firstLine cs) := by
      simp [readMalformedChar, hbody]
    rw [hread]
    exact ⟨.malformedChar, rest, congrArg ('\'' :: ·) heq, rfl, rfl, rfl, _,
      throughQuote?_eq_none_iff.1 hbody, hn, .inr ⟨rfl, hends⟩⟩

lemma isClassified_readChar (cs : List Char) : (readChar cs).IsClassified ('\'' :: cs) := by
  fun_cases readChar cs with
  | case1 cs => exact ⟨.char, cs, rfl, rfl, rfl, rfl, .inl rfl⟩
  | case2 cs =>
    refine isClassified_readMalformedChar fun s rest heq hn => ?_
    cases s with
    | nil => simp at heq
    | cons d s => exact absurd (List.cons.inj heq).1 fun hd => hn (hd ▸ List.mem_cons_self ..)
  | case3 c cs hquote hn =>
    exact ⟨.char, cs, rfl, rfl, rfl, rfl, .inr ⟨c, rfl, fun hc => hquote hc, hn⟩⟩
  | case4 cs hempty hone =>
    refine isClassified_readMalformedChar fun s rest heq _ => ?_
    rcases s with _ | ⟨c, _ | ⟨d, s⟩⟩
    · exact absurd heq (hempty rest)
    · exact absurd heq (hone c rest)
    · simp

/-- A quote with two characters behind it, neither of them a quote, is malformed. -/
lemma readChar_cons_cons (hx : x ≠ '\'') (hy : y ≠ '\'') (cs : List Char) :
    readChar (x :: y :: cs) = readMalformedChar (x :: y :: cs) := by
  simp [readChar, hx, hy]

lemma readChar_of_two_le (hs : '\'' ∉ s) (hlength : 2 ≤ s.length) :
    readChar (s ++ rest) = readMalformedChar (s ++ rest) := by
  rcases s with _ | ⟨x, _ | ⟨y, s⟩⟩
  · simp at hlength
  · simp at hlength
  · rw [List.mem_cons, List.mem_cons, not_or, not_or] at hs
    exact readChar_cons_cons (Ne.symm hs.1) (Ne.symm hs.2.1) _

/-- So is a quote that is not closed on its line. -/
lemma readChar_of_endsLine (h : EndsLine s rest) (hs : '\'' ∉ s) :
    readChar (s ++ rest) = readMalformedChar (s ++ rest) := by
  by_cases hlength : 2 ≤ s.length
  · exact readChar_of_two_le hs hlength
  rcases s with _ | ⟨x, _ | ⟨y, s⟩⟩
  · rcases h with rfl | ⟨⟨cs, rfl⟩, -⟩ | ⟨cs, rfl⟩
    · rfl
    · exact readChar_break cs
    · exact readChar_cons_cons (by decide) (by decide) cs
  · have hx : x ≠ '\'' := fun hx => hs (hx ▸ List.mem_cons_self ..)
    rcases h with rfl | ⟨⟨cs, rfl⟩, -⟩ | ⟨cs, rfl⟩
    · simp [readChar, hx]
    · exact readChar_cons_cons hx (by decide) cs
    · exact readChar_cons_cons hx (by decide) _
  · simp at hlength

end Lexeme

end Quotes

/-! ## Symbols and other characters -/

section Symbols

variable {x : Char} {s : Symbol} {text rest cs : List Char}

namespace Lexeme

lemma hasForm_symbol (htext : text = s.text.toList) (hd : s ≠ .doubleQuote) (hs : s ≠ .singleQuote)
    (hrest : ∀ x ∈ rest.head?, ¬s.Extends x) :
    (⟨.symbol s, text, false, none⟩ : Lexeme).HasForm rest (.symbol s) :=
  ⟨rfl, rfl, rfl, htext, hd, hs, hrest⟩

/-- A character that is a token by itself is so before any text. -/
lemma exists_form_of_ofChar? {k : Kind} (h : Kind.ofChar? x = some k) (rest : List Char) :
    ∃ f, (⟨k, [x], false, none⟩ : Lexeme).HasForm rest f := by
  unfold Kind.ofChar? at h
  split at h
  · cases h
    exact ⟨.endOfLine, rfl, rfl, rfl, rfl⟩
  all_goals
    cases h
    try exact ⟨_, hasForm_symbol rfl (by decide) (by decide) (by simp [Symbol.Extends])⟩

lemma isClassified_readLess (cs : List Char) : (readLess cs).IsClassified ('<' :: cs) := by
  fun_cases readLess cs with
  | case4 cs hminus hgreater hequals =>
    refine ⟨_, cs, rfl, hasForm_symbol rfl (by decide) (by decide) fun x hx => ?_⟩
    obtain ⟨ds, rfl⟩ := List.head?_eq_some_iff.1 hx
    rintro (rfl | rfl | rfl)
    · exact hminus ds rfl
    · exact hgreater ds rfl
    · exact hequals ds rfl
  | _ cs =>
    exact ⟨_, cs, rfl, hasForm_symbol rfl (by decide) (by decide) (by simp [Symbol.Extends])⟩

lemma isClassified_readGreater (cs : List Char) : (readGreater cs).IsClassified ('>' :: cs) := by
  fun_cases readGreater cs with
  | case1 cs =>
    exact ⟨_, cs, rfl, hasForm_symbol rfl (by decide) (by decide) (by simp [Symbol.Extends])⟩
  | case2 cs hequals =>
    refine ⟨_, cs, rfl, hasForm_symbol rfl (by decide) (by decide) fun x hx => ?_⟩
    obtain ⟨ds, rfl⟩ := List.head?_eq_some_iff.1 hx
    rintro rfl
    exact hequals ds rfl

lemma readLess_eq_less (h : ∀ x ∈ rest.head?, ¬Symbol.less.Extends x) :
    readLess rest = ⟨.symbol .less, ['<'], false, none⟩ := by
  unfold readLess
  split <;> simp_all [Symbol.Extends]

lemma readGreater_eq_greater (h : ∀ x ∈ rest.head?, ¬Symbol.greater.Extends x) :
    readGreater rest = ⟨.symbol .greater, ['>'], false, none⟩ := by
  unfold readGreater
  split <;> simp_all [Symbol.Extends]

lemma read_dot (h : ∀ x ∈ rest.head?, ¬Symbol.dot.Extends x) :
    read '.' rest = ⟨.symbol .dot, ['.'], false, none⟩ := by
  have hstart : ¬startsNumber '.' rest := by
    rw [startsNumber_iff]
    rintro (hdigit | ⟨-, y, ys, rfl, hdigit⟩)
    · exact absurd hdigit (by decide)
    · exact h y rfl hdigit
  rw [read_of_not_isSpecial (by decide), if_neg hstart, if_pos rfl]

/-- A symbol is taken as it stands, where nothing follows that makes it another one. -/
lemma read_symbol {xs : List Char} (h : (Form.symbol s).Fits (x :: xs) rest) :
    read x (xs ++ rest) = ⟨.symbol s, x :: xs, false, none⟩ := by
  obtain ⟨htext, hd, hs, hrest⟩ := h
  cases s with
  | less =>
    obtain ⟨rfl, rfl⟩ : x = '<' ∧ xs = [] := List.cons.inj htext
    exact readLess_eq_less hrest
  | greater =>
    obtain ⟨rfl, rfl⟩ : x = '>' ∧ xs = [] := List.cons.inj htext
    exact readGreater_eq_greater hrest
  | dot =>
    obtain ⟨rfl, rfl⟩ : x = '.' ∧ xs = [] := List.cons.inj htext
    exact read_dot hrest
  | doubleQuote => exact absurd rfl hd
  | singleQuote => exact absurd rfl hs
  | _ =>
    obtain ⟨rfl, rfl⟩ := List.cons.inj htext
    rfl

end Lexeme

/-- A character that no token starts with is none that readers look for. -/
lemma StartsNothing.not_isSpecial (h : StartsNothing x) : ¬isSpecial x := by
  intro hs
  have hall : specials.all fun y => y = '\n' ∨ ∃ s ∈ Symbol.all, s.text.toList.head? = some y := by
    decide
  rcases of_decide_eq_true (List.all_eq_true.1 hall x (mem_specials hs)) with hn | ⟨s, -, hs⟩
  · exact h.newline hn
  · exact h.symbol s hs

lemma StartsNothing.read_eq (h : StartsNothing x) (cs : List Char) :
    Lexeme.read x cs = .illegal .unrecognisedCharacter [x] := by
  have hdot : x ≠ '.' := by
    rintro rfl
    exact h.symbol .dot rfl
  have hstart : ¬Lexeme.startsNumber x cs := by
    rw [startsNumber_iff]
    rintro (hdigit | ⟨hx, -⟩)
    · exact h.digit hdigit
    · exact hdot hx
  rw [Lexeme.read_of_not_isSpecial h.not_isSpecial, if_neg hstart, if_neg hdot,
    if_neg (isWordStart_iff.not.2 h.word)]

/-- What remains when a character is none that readers look for, starts no number and no word, and
is no blank. -/
lemma startsNothing_of_not (hs : ¬isSpecial x) (hnumber : ¬Lexeme.startsNumber x cs)
    (hdot : x ≠ '.') (hword : ¬isWordStart x) (hblank : ¬isBlank x) : StartsNothing x where
  word := isWordStart_iff.not.1 hword
  digit hdigit := hnumber (startsNumber_iff.2 (.inl hdigit))
  symbol s hhead := by
    have hall : ∀ s ∈ Symbol.all, s.text.toList.head?.all fun y => isSpecial y ∨ y = '.' := by
      decide
    have hx := hall s s.mem_all
    rw [hhead, Option.all_some, decide_eq_true_eq] at hx
    exact hx.elim hs hdot
  newline := by
    rintro rfl
    exact hs rfl
  blank := by simpa [isBlank, not_or, and_assoc] using hblank

end Symbols

/-! ## Both directions -/

/-- What is read from a text that starts with no trivia is its front, and has a form there. -/
lemma Lexeme.isClassified_read {x : Char} {cs : List Char} (h : trivia (x :: cs) = []) :
    (read x cs).IsClassified (x :: cs) := by
  by_cases hs : isSpecial x
  · cases hk : Kind.ofChar? x with
    | some k =>
      obtain ⟨f, hf⟩ := exists_form_of_ofChar? hk cs
      have hread : read x cs = ⟨k, [x], false, none⟩ := by rw [read, hk]
      rw [hread]
      exact ⟨f, cs, rfl, hf⟩
    | none =>
      simp only [isSpecial, hk, Option.isSome_none, Bool.false_eq_true, false_or, Bool.or_eq_true,
        decide_eq_true_eq] at hs
      obtain (((rfl | rfl) | rfl) | rfl) | rfl := hs
      · refine ⟨.symbol .slash, cs, rfl, hasForm_symbol rfl (by decide) (by decide) ?_⟩
        intro y hy
        obtain ⟨ds, rfl⟩ := List.head?_eq_some_iff.1 hy
        rintro rfl
        simp [trivia, isBlank, comment] at h
      · exact isClassified_readLess cs
      · exact isClassified_readGreater cs
      · exact isClassified_readString cs
      · exact isClassified_readChar cs
  · have hblank : ¬isBlank x := fun hb => by simpa [hb] using (trivia_eq_nil_iff.1 h).1 x rfl
    rw [read_of_not_isSpecial hs]
    split
    · next hnumber =>
      obtain ⟨f, hf⟩ := (isNumber_takeWhile hnumber).exists_form
      exact ⟨f, _, by simp, hf⟩
    split
    · next hnumber hdot =>
      subst hdot
      refine ⟨.symbol .dot, cs, rfl,
        hasForm_symbol rfl (by decide) (by decide) fun y hy hdigit => ?_⟩
      obtain ⟨ys, rfl⟩ := List.head?_eq_some_iff.1 hy
      exact hnumber (startsNumber_iff.2 (.inr ⟨rfl, y, ys, rfl, hdigit⟩))
    split
    · next hword =>
      obtain ⟨f, hf⟩ := (isWord_takeWhile hword cs).exists_form
      exact ⟨f, _, by simp, hf⟩
    · next hnumber hdot hword =>
      exact ⟨.unrecognisedCharacter, cs, rfl, rfl, rfl, rfl, x, rfl,
        startsNothing_of_not hs hnumber hdot hword hblank⟩

namespace Form

variable {f g : Form} {x : Char} {xs text rest : List Char}

/-- A text that has a form is read as it stands, and marked as the form is. -/
lemma Fits.read_eq (h : f.Fits (x :: xs) rest) :
    Lexeme.read x (xs ++ rest) = ⟨f.kind, x :: xs, f.isLiteral, f.fault⟩ := by
  cases f with
  | identifier =>
    obtain ⟨hword, htrue, hfalse, hreserved⟩ := h
    exact hword.read_eq.trans (ofWord_identifier htrue hfalse hreserved)
  | keyword k =>
    obtain ⟨htext, hrest⟩ := h
    exact read_reserved k.mem_reserved htext hrest
  | datatype n =>
    obtain ⟨htext, hrest⟩ := h
    exact read_reserved n.mem_reserved htext hrest
  | boolean =>
    obtain ⟨htruth, hrest⟩ := h
    exact (isWord_truth htruth hrest).read_eq.trans (ofWord_truth htruth)
  | integer =>
    obtain ⟨hne, hdigits, hrest⟩ := h
    exact (isNumber_digits hne hdigits hrest).read_eq.trans (ofNumber_digits hdigits)
  | real =>
    obtain ⟨⟨whole, part, htext, hwhole, hne, hpart⟩, hrest⟩ := h
    have hnumber := isNumber_parts hwhole hne hpart hrest
    rw [← htext] at hnumber
    rw [hnumber.read_eq, htext]
    exact ofNumber_parts hwhole hne hpart
  | malformedNumber =>
    obtain ⟨hnumber, hbad⟩ := h
    have hbad' : 1 < (x :: xs).count '.' ∨ (x :: xs).getLast? = some '.' := hbad
    rw [hnumber.read_eq, Lexeme.ofNumber, if_pos hbad']
    rfl
  | string =>
    obtain ⟨s, htext, hs, hn⟩ := h
    obtain ⟨rfl, rfl⟩ := List.cons.inj htext
    show Lexeme.readString _ = _
    rw [Lexeme.readString, throughQuote?_firstLine (by decide) (by decide) hs hn]
    rfl
  | unterminatedString =>
    obtain ⟨s, htext, hs, hn, hends⟩ := h
    obtain ⟨rfl, rfl⟩ := List.cons.inj htext
    show Lexeme.readString _ = _
    rw [Lexeme.readString, hends.throughQuote?_eq_none hs hn, hends.firstLine_eq hn]
    rfl
  | char =>
    rcases h with htext | ⟨y, htext, hquote, hn⟩
    · obtain ⟨rfl, rfl⟩ := List.cons.inj htext
      rfl
    · obtain ⟨rfl, rfl⟩ := List.cons.inj htext
      show Lexeme.readChar (y :: '\'' :: rest) = _
      simp [Lexeme.readChar, hn, Lexeme.literal, kind, isLiteral, fault]
  | malformedChar =>
    obtain ⟨s, hs, hn, ⟨htext, hlength⟩ | ⟨htext, hends⟩⟩ := h
    · obtain ⟨rfl, rfl⟩ := List.cons.inj htext
      show Lexeme.readChar (s ++ ['\''] ++ rest) = _
      rw [List.append_assoc, Lexeme.readChar_of_two_le hs hlength, ← List.append_assoc,
        Lexeme.readMalformedChar, throughQuote?_firstLine (by decide) (by decide) hs hn]
      rfl
    · obtain ⟨rfl, rfl⟩ := List.cons.inj htext
      show Lexeme.readChar _ = _
      rw [Lexeme.readChar_of_endsLine hends hs, Lexeme.readMalformedChar,
        hends.throughQuote?_eq_none hs hn, hends.firstLine_eq hn]
      rfl
  | symbol s => exact Lexeme.read_symbol h
  | endOfLine =>
    obtain ⟨rfl, rfl⟩ := List.cons.inj h
    rfl
  | unrecognisedCharacter =>
    obtain ⟨y, htext, hy⟩ := h
    obtain ⟨rfl, rfl⟩ := List.cons.inj htext
    exact hy.read_eq _
  | endOfFile => exact absurd h.1 (List.cons_ne_nil x xs)

/-- Only the end of file has no text. -/
lemma Fits.eq_endOfFile (h : f.Fits [] rest) : f = endOfFile := by
  have hword : ¬IsWord [] rest := fun hword => by simpa using hword.begins
  cases f with
  | endOfFile => rfl
  | identifier => exact absurd h.1 hword
  | keyword k =>
    exact absurd (h.1 ▸ isWord_reserved k.mem_reserved h.2 : IsWord [] rest) hword
  | datatype n =>
    exact absurd (h.1 ▸ isWord_reserved n.mem_reserved h.2 : IsWord [] rest) hword
  | malformedNumber => simpa using h.1.begins
  | symbol s =>
    have hne : ∀ s ∈ Symbol.all, [] ≠ s.text.toList := by decide
    exact absurd h.1 (hne s s.mem_all)
  | _ => simp [Fits] at h

/-- No text has two forms. -/
lemma Fits.unique (hf : f.Fits text rest) (hg : g.Fits text rest) : f = g := by
  cases text with
  | nil => rw [hf.eq_endOfFile, hg.eq_endOfFile]
  | cons x xs =>
    have hread := hf.read_eq.symm.trans hg.read_eq
    exact eq_of_marks (congrArg Lexeme.kind hread) (congrArg Lexeme.isLiteral hread)
      (congrArg Lexeme.fault hread)

/-- The quotes of a form stand around the text. -/
lemma Fits.exists_quoted {q : Char} (h : f.Fits text rest) (hq : f.quote? = some q) :
    ∃ s, text = q :: (s ++ [q]) := by
  cases f with
  | string =>
    cases hq
    obtain ⟨s, htext, -⟩ := h
    exact ⟨s, htext⟩
  | char =>
    cases hq
    rcases h with htext | ⟨x, htext, -⟩
    · exact ⟨[], htext⟩
    · exact ⟨[x], htext⟩
  | _ => cases hq

end Form

/-! ## Tokens -/

/-- The token is marked as the form is, and its text has this form in front of what follows, and no
other.  Cutting off its quotes leaves what stands between the quotes of the form. -/
structure Token.HasForm (t : Token) (rest : List Char) (f : Form) : Prop where
  kind : t.kind = f.kind
  isLiteral : t.isLiteral = f.isLiteral
  fault : t.fault = f.fault
  fits : f.Fits t.text.toList rest
  only : ∀ g : Form, g.Fits t.text.toList rest → g = f
  unquoted : match f.quote? with
    | some q => ∃ s, t.text.toList = q :: (s ++ [q]) ∧ t.unquoted? = some (String.ofList s)
    | none => t.unquoted? = some t.text

/-- The text consists of the texts of the tokens, in their order, with a gap before each of them,
and the tokens have the property in front of what follows them. -/
inductive LaidOut (P : Token → List Char → Prop) : List Token → List Char → Prop
  | nil : LaidOut P [] []
  | cons {gap rest : List Char} {t : Token} {ts : List Token} :
      Gap gap (t.text.toList ++ rest) → P t rest → LaidOut P ts rest →
      LaidOut P (t :: ts) (gap ++ (t.text.toList ++ rest))

section Tokens

variable {t : Token} {f : Form} {rest : List Char}

lemma unquoted?_of_quote?_eq_none (hk : t.kind = f.kind) (hl : t.isLiteral = f.isLiteral)
    (hq : f.quote? = none) : t.unquoted? = some t.text := by
  unfold Token.unquoted?
  rw [hk, hl, if_neg]
  cases f <;> simp_all [Form.kind, Form.isLiteral, Form.quote?]

lemma unquoted?_of_quote?_eq_some {q : Char} {s : List Char} (hk : t.kind = f.kind)
    (hl : t.isLiteral = f.isLiteral) (hq : f.quote? = some q)
    (htext : t.text.toList = q :: (s ++ [q])) :
    t.unquoted? = some (String.ofList s) := by
  have hliteral : f.isLiteral ∧ (f.kind = .native .string ∨ f.kind = .native .char) := by
    cases f <;> simp_all [Form.kind, Form.isLiteral, Form.quote?]
  have hsize : q.utf8Size = 1 := by
    cases f <;> cases hq <;> rfl
  unfold Token.unquoted?
  rw [hk, hl, if_pos hliteral, Text.unquoted?, htext]
  simp [hsize]

/-- Being marked as a form that the text has is enough. -/
lemma Token.hasForm (hk : t.kind = f.kind) (hl : t.isLiteral = f.isLiteral) (hf : t.fault = f.fault)
    (hfits : f.Fits t.text.toList rest) : t.HasForm rest f where
  kind := hk
  isLiteral := hl
  fault := hf
  fits := hfits
  only _ hg := hg.unique hfits
  unquoted := by
    cases hq : f.quote? with
    | none => exact unquoted?_of_quote?_eq_none hk hl hq
    | some q =>
      obtain ⟨s, htext⟩ := hfits.exists_quoted hq
      exact ⟨s, htext, unquoted?_of_quote?_eq_some hk hl hq htext⟩

/-- The next token of a cursor has a form in front of what the cursor has not read then. -/
lemma Cursor.exists_form_next (c : Cursor) : ∃ f, c.next.1.HasForm c.next.2.rest f := by
  cases hrest : c.skipTrivia.rest with
  | nil =>
    rw [next_of_skipTrivia_eq_nil hrest]
    exact ⟨.endOfFile, Token.hasForm rfl rfl rfl ⟨rfl, hrest⟩⟩
  | cons x cs =>
    have htrivia : trivia (x :: cs) = [] := by
      rw [← hrest, rest_skipTrivia]
      exact trivia_drop_trivia c.rest
    obtain ⟨htoken, hafter⟩ := next_of_skipTrivia hrest
    obtain ⟨f, rest, heq, hf⟩ := Lexeme.isClassified_read htrivia
    have htext : c.next.1.text.toList = (Lexeme.read x cs).text := by
      have htext := congrArg Token.text htoken
      simpa [Token.unplaced, Lexeme.toToken] using congrArg String.toList htext
    have hrest' : c.next.2.rest = rest := by
      rw [hafter, heq, List.drop_left]
    refine ⟨f, Token.hasForm ?_ ?_ ?_ ?_⟩
    · exact (congrArg Token.kind htoken).trans hf.kind
    · exact (congrArg Token.isLiteral htoken).trans hf.isLiteral
    · exact (congrArg Token.fault htoken).trans hf.fault
    · rw [htext, hrest']
      exact hf.fits

lemma exists_form_of_mem {source : String} (h : t ∈ tokenize source) :
    ∃ rest f, t.HasForm rest f :=
  forall_mem_tokenize (P := fun t => ∃ rest f, t.HasForm rest f) (fun c => ⟨_, c.exists_form_next⟩)
    source t h

/-- The text of the next token is what is found behind the trivia, and there is none at the end. -/
lemma Cursor.rest_skipTrivia_eq_append (c : Cursor) :
    c.skipTrivia.rest = c.next.1.text.toList ++ c.next.2.rest := by
  by_cases h : c.next.1.kind = .endOfFile
  · rw [next_of_skipTrivia_eq_nil (c.rest_skipTrivia_eq_nil h)]
    rfl
  · exact c.rest_skipTrivia_eq h

/-- What holds of the next token of every cursor that keeps an invariant holds of all tokens: each
step lays out one. -/
lemma laidOut_tokens_of_invariant {I : Cursor → Prop} {P : Token → List Char → Prop}
    (hI : ∀ c, I c → I c.next.2) (hP : ∀ c, I c → P c.next.1 c.next.2.rest) {c : Cursor}
    (hc : I c) : LaidOut P (TokenStream.tokens c) c.rest := by
  fun_induction TokenStream.tokens c with
  | case1 c h =>
    obtain ⟨hgap, hrest⟩ := c.gap_skipTrivia
    have hafter : c.next.2.rest = [] := by
      rw [Cursor.next_of_skipTrivia_eq_nil (c.rest_skipTrivia_eq_nil h), c.rest_skipTrivia_eq_nil h]
    rw [c.rest_skipTrivia_eq_append] at hgap hrest
    rw [hrest]
    refine .cons hgap (hP c hc) ?_
    rw [hafter]
    exact .nil
  | case2 c h _ ih =>
    obtain ⟨hgap, hrest⟩ := c.gap_skipTrivia
    rw [c.rest_skipTrivia_eq_append] at hgap hrest
    rw [hrest]
    exact .cons hgap (hP c hc) (ih (hI c hc))

lemma LaidOut.exists_of_mem {P : Token → List Char → Prop} {ts : List Token} {cs : List Char}
    (h : LaidOut P ts cs) {t : Token} (ht : t ∈ ts) : ∃ rest, P t rest := by
  induction h with
  | nil => cases ht
  | @cons gap rest u ts _ hu _ ih =>
    rcases List.mem_cons.1 ht with rfl | ht
    · exact ⟨rest, hu⟩
    · exact ih ht

/-- So does what holds of the next token of every cursor. -/
lemma laidOut_tokens {P : Token → List Char → Prop} (hP : ∀ c : Cursor, P c.next.1 c.next.2.rest)
    (c : Cursor) : LaidOut P (TokenStream.tokens c) c.rest :=
  laidOut_tokens_of_invariant (I := fun _ => True) (fun _ _ => trivial) (fun c _ => hP c) trivial

end Tokens

/-- **Every token has exactly one form.**  A source text consists of the texts of its tokens with
gaps between them.  Each token has a form, which decides its kind, whether it is a literal and what
is wrong with it: its text has this form in front of the text that follows, where it could not go
on, and it has no other form.  A token has a fault exactly when it is illegal, and the quotes of a
literal can always be cut off. -/
theorem tokenize_forms (source : String) :
    LaidOut (fun t rest => (t.fault.isSome ↔ t.kind = .illegal) ∧ ∃ f : Form, t.HasForm rest f)
      (tokenize source) source.toList := by
  refine laidOut_tokens (fun c => ?_) (Cursor.ofSource source)
  obtain ⟨f, hf⟩ := c.exists_form_next
  refine ⟨?_, f, hf⟩
  rw [hf.fault, hf.kind]
  exact f.isSome_fault_iff

/-- Two quotes close the empty character literal, and a third one opens another, which the line end
leaves open. -/
example : (tokenize "x<-.5'''\n").map (fun t => (t.kind, t.text)) =
    [(.identifier, "x"), (.symbol .assign, "<-"), (.native .real, ".5"),
      (.native .char, "''"), (.illegal, "'"), (.endOfLine, "\n"), (.endOfFile, "")] := by
  decide +kernel

end Pseudolang
