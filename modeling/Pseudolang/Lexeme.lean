import Pseudolang.Text.Alphabetic
import Pseudolang.Text.Numeric
import Pseudolang.Token

/-!
# Lexemes

A source text is a sequence of lexemes with trivia before each of them.  Trivia are blanks and
comments; a comment runs from `//` to the end of its line and leaves the line break standing, since
the line break is a token.

`Lexeme.read` gives the lexeme at the front of a non-empty text that starts with no trivia.  It
never fails: text that is no token becomes an illegal lexeme with its fault.  What it takes is a
non-empty part of the front of the text (`Lexeme.read_text_isPrefix`, `Lexeme.read_text_ne_nil`).
-/

namespace Pseudolang

/-! ## Classes of characters -/

/-- A character that separates tokens within a line. -/
def isBlank (c : Char) : Bool :=
  c = ' ' || c = '\t' || c = '\r'

/-- A character that an identifier or a reserved word may start with. -/
def isWordStart (c : Char) : Bool :=
  c = '_' || Text.isAlphabetic c

/-- A character that an identifier or a reserved word may go on with. -/
def isWordPart (c : Char) : Bool :=
  isWordStart c || Text.isNumeric c

/-- A character that a number may go on with.  A number with too many points is still one lexeme. -/
def isNumberPart (c : Char) : Bool :=
  c.isDigit || c = '.'

/-! ## Trivia -/

/-- The comment at the front of a text, if there is one. -/
def comment : List Char → List Char
  | '/' :: '/' :: cs => '/' :: '/' :: cs.takeWhile (· ≠ '\n')
  | _ => []

/-- The blanks and the comment at the front of a text.  Nothing that can be skipped follows a
comment on its line. -/
def trivia (cs : List Char) : List Char :=
  cs.takeWhile isBlank ++ comment (cs.dropWhile isBlank)

theorem comment_isPrefix (cs : List Char) : comment cs <+: cs := by
  unfold comment
  split
  · next cs =>
    exact (List.prefix_append_right_inj ['/', '/']).2 <| List.takeWhile_prefix _
  · exact List.nil_prefix

theorem trivia_isPrefix (cs : List Char) : trivia cs <+: cs := by
  conv => rhs; rw [← List.takeWhile_append_dropWhile (p := isBlank) (l := cs)]
  exact (List.prefix_append_right_inj _).2 (comment_isPrefix _)

/-! ## Lines and quotes -/

/-- The part of a text before the end of its first line.  A line ends with `\n`, with `\r\n` or with
the text; a carriage return elsewhere is part of the line. -/
def firstLine : List Char → List Char
  | [] => []
  | '\n' :: _ => []
  | '\r' :: '\n' :: _ => []
  | c :: cs => c :: firstLine cs

/-- The part of a text up to and including the first `quote`, if there is one. -/
def throughQuote? (quote : Char) : List Char → Option (List Char)
  | [] => none
  | c :: cs => if c = quote then some [c] else (throughQuote? quote cs).map (c :: ·)

theorem firstLine_isPrefix (cs : List Char) : firstLine cs <+: cs := by
  fun_induction firstLine cs with
  | case4 c cs _ _ ih => exact List.cons_prefix_cons.2 ⟨rfl, ih⟩
  | _ => exact List.nil_prefix

theorem throughQuote?_isPrefix {quote : Char} {cs t : List Char}
    (h : throughQuote? quote cs = some t) : t <+: cs := by
  induction cs generalizing t with
  | nil => simp [throughQuote?] at h
  | cons c cs ih =>
    simp only [throughQuote?] at h
    split at h
    · obtain rfl := Option.some.inj h
      exact List.cons_prefix_cons.2 ⟨rfl, List.nil_prefix⟩
    · obtain ⟨u, hu, rfl⟩ := Option.map_eq_some_iff.1 h
      exact List.cons_prefix_cons.2 ⟨rfl, ih hu⟩

/-! ## Lexemes -/

/-- A token without its position. -/
structure Lexeme where
  kind : Kind
  text : List Char
  isLiteral : Bool := false
  fault : Option Fault := none

namespace Lexeme

/-- The token of the lexeme at a position. -/
def toToken (l : Lexeme) (position : Position) : Token where
  kind := l.kind
  text := String.ofList l.text
  position := position
  isLiteral := l.isLiteral
  fault := l.fault

/-- A literal of a built-in datatype. -/
def literal (type : Native) (text : List Char) : Lexeme where
  kind := .native type
  text := text
  isLiteral := true

/-- Text that is no token of the language. -/
def illegal (fault : Fault) (text : List Char) : Lexeme where
  kind := .illegal
  text := text
  fault := some fault

/-- The lexeme that starts with `<`, given what follows. -/
def readLess : List Char → Lexeme
  | '-' :: _ => ⟨.symbol .assign, ['<', '-'], false, none⟩
  | '>' :: _ => ⟨.symbol .notEquals, ['<', '>'], false, none⟩
  | '=' :: _ => ⟨.symbol .lessEquals, ['<', '='], false, none⟩
  | _ => ⟨.symbol .less, ['<'], false, none⟩

/-- The lexeme that starts with `>`, given what follows. -/
def readGreater : List Char → Lexeme
  | '=' :: _ => ⟨.symbol .greaterEquals, ['>', '='], false, none⟩
  | _ => ⟨.symbol .greater, ['>'], false, none⟩

/-- The lexeme that starts with a double quote, given what follows: a string when it is closed on
its line, and otherwise the rest of the line. -/
def readString (cs : List Char) : Lexeme :=
  match throughQuote? '"' (firstLine cs) with
  | some body => literal .string ('"' :: body)
  | none => illegal .unterminatedString ('"' :: firstLine cs)

/-- The illegal lexeme that starts with a single quote, given what follows: it ends with the next
single quote, or with the line. -/
def readMalformedChar (cs : List Char) : Lexeme :=
  illegal .malformedChar ('\'' :: (throughQuote? '\'' (firstLine cs)).getD (firstLine cs))

/-- The lexeme that starts with a single quote, given what follows: at most one character up to the
closing quote. -/
def readChar : List Char → Lexeme
  | '\'' :: _ => literal .char ['\'', '\'']
  | c :: '\'' :: cs =>
    if c = '\n' then readMalformedChar (c :: '\'' :: cs) else literal .char ['\'', c, '\'']
  | cs => readMalformedChar cs

/-- The lexeme of a run of digits and points. -/
def ofNumber (text : List Char) : Lexeme :=
  if 1 < text.count '.' ∨ text.getLast? = some '.' then illegal .malformedNumber text
  else if text.count '.' = 1 then literal .real text
  else literal .integer text

/-- The lexeme of a word: a truth value, a reserved word or an identifier. -/
def ofWord (text : List Char) : Lexeme :=
  if text = ['T', 'R', 'U', 'E'] ∨ text = ['F', 'A', 'L', 'S', 'E'] then literal .boolean text
  else ⟨(Kind.reserved? (String.ofList text)).getD .identifier, text, false, none⟩

/-- Whether a number starts with `c`, given what follows: a point starts one before a digit. -/
def startsNumber (c : Char) (cs : List Char) : Bool :=
  c.isDigit || (c = '.' && cs.head?.any Char.isDigit)

/-- The lexeme at the front of a text, given as its first character and what follows. -/
def read (c : Char) (cs : List Char) : Lexeme :=
  match Kind.ofChar? c with
  | some kind => ⟨kind, [c], false, none⟩
  | none =>
    if c = '/' then ⟨.symbol .slash, [c], false, none⟩
    else if c = '<' then readLess cs
    else if c = '>' then readGreater cs
    else if c = '"' then readString cs
    else if c = '\'' then readChar cs
    else if startsNumber c cs then ofNumber (c :: cs.takeWhile isNumberPart)
    else if c = '.' then ⟨.symbol .dot, [c], false, none⟩
    else if isWordStart c then ofWord (c :: cs.takeWhile isWordPart)
    else illegal .unrecognisedCharacter [c]

/-! ## What a lexeme takes -/

@[simp]
theorem literal_text (type : Native) (text : List Char) : (literal type text).text = text := rfl

@[simp]
theorem illegal_text (fault : Fault) (text : List Char) : (illegal fault text).text = text := rfl

@[simp]
theorem ofNumber_text (text : List Char) : (ofNumber text).text = text := by
  unfold ofNumber
  split
  · rfl
  · split <;> rfl

@[simp]
theorem ofWord_text (text : List Char) : (ofWord text).text = text := by
  unfold ofWord
  split <;> rfl

theorem readLess_text_isPrefix (cs : List Char) : (readLess cs).text <+: '<' :: cs := by
  unfold readLess
  split <;> simp [List.cons_prefix_cons]

theorem readGreater_text_isPrefix (cs : List Char) : (readGreater cs).text <+: '>' :: cs := by
  unfold readGreater
  split <;> simp [List.cons_prefix_cons]

theorem readString_text_isPrefix (cs : List Char) : (readString cs).text <+: '"' :: cs := by
  unfold readString
  split
  · next h =>
    exact List.cons_prefix_cons.2
      ⟨rfl, (throughQuote?_isPrefix h).trans (firstLine_isPrefix cs)⟩
  · exact List.cons_prefix_cons.2 ⟨rfl, firstLine_isPrefix cs⟩

theorem readMalformedChar_text_isPrefix (cs : List Char) :
    (readMalformedChar cs).text <+: '\'' :: cs := by
  refine List.cons_prefix_cons.2 ⟨rfl, ?_⟩
  cases h : throughQuote? '\'' (firstLine cs) with
  | none => exact firstLine_isPrefix cs
  | some t => exact (throughQuote?_isPrefix h).trans (firstLine_isPrefix cs)

theorem readChar_text_isPrefix (cs : List Char) : (readChar cs).text <+: '\'' :: cs := by
  unfold readChar
  split
  · simp [List.cons_prefix_cons]
  · split
    · exact readMalformedChar_text_isPrefix _
    · simp [List.cons_prefix_cons]
  · exact readMalformedChar_text_isPrefix _

/-- A lexeme is the front of the text that it was read from. -/
theorem read_text_isPrefix (c : Char) (cs : List Char) : (read c cs).text <+: c :: cs := by
  have single : [c] <+: c :: cs := List.cons_prefix_cons.2 ⟨rfl, List.nil_prefix⟩
  unfold read
  split
  · exact single
  · split
    · exact single
    split
    · next h => exact h ▸ readLess_text_isPrefix cs
    split
    · next h => exact h ▸ readGreater_text_isPrefix cs
    split
    · next h => exact h ▸ readString_text_isPrefix cs
    split
    · next h => exact h ▸ readChar_text_isPrefix cs
    split
    · rw [ofNumber_text]
      exact List.cons_prefix_cons.2 ⟨rfl, List.takeWhile_prefix _⟩
    split
    · exact single
    split
    · rw [ofWord_text]
      exact List.cons_prefix_cons.2 ⟨rfl, List.takeWhile_prefix _⟩
    · exact single

theorem readLess_text_ne_nil (cs : List Char) : (readLess cs).text ≠ [] := by
  unfold readLess
  split <;> simp

theorem readGreater_text_ne_nil (cs : List Char) : (readGreater cs).text ≠ [] := by
  unfold readGreater
  split <;> simp

theorem readString_text_ne_nil (cs : List Char) : (readString cs).text ≠ [] := by
  unfold readString
  split <;> simp

theorem readChar_text_ne_nil (cs : List Char) : (readChar cs).text ≠ [] := by
  unfold readChar readMalformedChar
  split
  · simp
  · split <;> simp
  · simp

/-- Every lexeme takes at least one character. -/
theorem read_text_ne_nil (c : Char) (cs : List Char) : (read c cs).text ≠ [] := by
  unfold read
  split
  · simp
  · repeat' split
    all_goals simp [readLess_text_ne_nil, readGreater_text_ne_nil, readString_text_ne_nil,
      readChar_text_ne_nil]

end Lexeme

end Pseudolang
