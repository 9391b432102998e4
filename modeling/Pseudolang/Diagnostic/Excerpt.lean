import Pseudolang.Diagnostic
import Pseudolang.Source
import Pseudolang.Text.WhiteSpace

/-!
# Excerpts

A diagnostic is shown with the line of the source it is about and a caret under its column.  The
excerpt drops the indentation of the line, and the caret moves left by as much, though never past
the first character.  Line and column are those that are kept of the position.  There is a widest
caret line (`maxCaret`); past it nothing is shown.
-/

namespace Pseudolang

/-- A line of the source with a place in it. -/
structure Excerpt where
  /-- The number of the line. -/
  line : Nat
  /-- The text of the line, without indentation and without white space at its end. -/
  text : List Char
  /-- Which character of the text the caret stands under, counted from one. -/
  caret : Nat

namespace Excerpt

/-- The widest that a caret line may be. -/
def maxCaret : Nat := 65535

/-- A character of indentation. -/
def isIndent (c : Char) : Bool :=
  c = ' ' || c = '\t'

/-- The text without white space at its end. -/
def trimEnd (cs : List Char) : List Char :=
  (cs.reverse.dropWhile Text.isWhiteSpace).reverse

/-- The excerpt for a position.  A line that the source does not have is shown empty. -/
def ofSource (source : String) (position : Position) : Excerpt :=
  let line := ((sourceLine? source position.line).getD "").toList
  { line := position.line
    text := trimEnd (line.dropWhile isIndent)
    caret := max 1 (position.column - (line.takeWhile isIndent).length) }

/-- The bar that stands under the one beside the line's number. -/
def bar (e : Excerpt) : String :=
  String.ofList (List.replicate ((Nat.repr e.line).length + 1) ' ') ++ "|"

/-- The line of the source with its number. -/
def sourceRow (e : Excerpt) : String :=
  Nat.repr e.line ++ " | " ++ String.ofList e.text

/-- The caret, with dashes that lead to it. -/
def caretRow (e : Excerpt) : String :=
  e.bar ++ " " ++ String.ofList (List.replicate (e.caret - 1) '-') ++ "^"

end Excerpt

/-- The diagnostic with its excerpt, unless the caret stands too far to the right. -/
def Diagnostic.render? (d : Diagnostic) (source file : String) : Option String :=
  let position := d.position.kept
  let excerpt := Excerpt.ofSource source position
  if Excerpt.maxCaret < excerpt.caret then none
  else
    some (d.headline ++ "\n" ++ "-> " ++ file ++ ":" ++ Nat.repr position.line ++ ":" ++
      Nat.repr position.column ++ "\n" ++ excerpt.bar ++ "\n" ++
      excerpt.sourceRow ++ "\n" ++ excerpt.caretRow ++ "\n")

end Pseudolang
