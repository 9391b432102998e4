import Pseudolang.Lexeme
import Pseudolang.Token.Stream

/-!
# Cursors

A cursor stands somewhere in a source text: it holds the unread rest and counts lines and the
characters read on the current line.  It counts without a limit; what is kept of a count is 32 bits
of it (`Position.kept`).  `Cursor.next` passes the trivia and takes the lexeme after it; at the end
of the text it gives the end of file as often as it is asked.

Since every token but the end of file takes at least one character (`Cursor.length_next_lt`), a
cursor is a stream of tokens, and `tokenize` lists the tokens of a text.
-/

namespace Pseudolang

/-- A place in a source text. -/
structure Cursor where
  /-- The unread text. -/
  rest : List Char
  line : Nat := 1
  /-- How many characters were read on the current line. -/
  column : Nat := 0

namespace Cursor

/-- The cursor at the start of a text. -/
def ofSource (source : String) : Cursor where
  rest := source.toList

/-- The character `distance` places after the next unread one. -/
def peek? (c : Cursor) (distance : Nat) : Option Char :=
  c.rest[distance]?

/-- The next unread character. -/
def at? (c : Cursor) : Option Char :=
  c.rest.head?

/-- Whether the line ends here, with `\n`, with `\r\n` or with the text. -/
def atLineEnd (c : Cursor) : Bool :=
  (firstLine c.rest).isEmpty

/-- Whether the whole text was read. -/
def atEnd (c : Cursor) : Bool :=
  c.rest.isEmpty

/-- The position of the next unread character. -/
def position (c : Cursor) : Position where
  line := c.line
  column := c.column + 1

/-- The cursor after reading up to `n` characters. -/
def skip : Nat → Cursor → Cursor
  | 0, c => c
  | n + 1, c =>
    match c.rest with
    | [] => c
    | '\n' :: cs => skip n { rest := cs, line := c.line + 1, column := 0 }
    | _ :: cs => skip n { rest := cs, line := c.line, column := c.column + 1 }

/-- The cursor after the trivia. -/
def skipTrivia (c : Cursor) : Cursor :=
  c.skip (trivia c.rest).length

/-- The next token, and the cursor after it. -/
def next (c : Cursor) : Token × Cursor :=
  let c := c.skipTrivia
  match c.rest with
  | [] => (⟨.endOfFile, "", c.position, false, none⟩, c)
  | first :: cs =>
    let lexeme := Lexeme.read first cs
    (lexeme.toToken c.position, c.skip lexeme.text.length)

/-! ## Progress -/

@[simp]
theorem rest_skip (n : Nat) (c : Cursor) : (c.skip n).rest = c.rest.drop n := by
  induction n generalizing c with
  | zero => rfl
  | succ n ih =>
    rw [skip]
    split
    · next h => simp [h]
    · next h => simp [h, ih]
    · next h => simp [h, ih]

theorem length_skipTrivia_le (c : Cursor) : c.skipTrivia.rest.length ≤ c.rest.length := by
  simp [skipTrivia]

theorem length_next_le (c : Cursor) : c.next.2.rest.length ≤ c.rest.length := by
  have := c.length_skipTrivia_le
  simp only [next]
  split
  · exact this
  · rw [rest_skip, List.length_drop]
    omega

/-- Every token but the end of file takes at least one character. -/
theorem length_next_lt (c : Cursor) (h : c.next.1.kind ≠ .endOfFile) :
    c.next.2.rest.length < c.rest.length := by
  have hle := c.length_skipTrivia_le
  revert h
  simp only [next]
  split
  · exact fun h => absurd rfl h
  · next first cs hrest =>
    intro _
    have hpos := List.length_pos_iff.2 (Lexeme.read_text_ne_nil first cs)
    rw [rest_skip, List.length_drop, hrest]
    rw [hrest] at hle
    simp only [List.length_cons] at hle ⊢
    omega

instance : TokenStream Cursor where
  next := next
  remaining c := c.rest.length
  remaining_next_le := length_next_le
  remaining_next_lt := length_next_lt

end Cursor

/-- The tokens of a source text, the end of file included. -/
def tokenize (source : String) : List Token :=
  TokenStream.tokens (Cursor.ofSource source)

end Pseudolang
