import Pseudolang.Cursor
import Pseudolang.Grammar.Statement
import Pseudolang.Program

/-!
# Reading programs

A program is read line by line.  A line without tokens is passed over; any other has one outcome,
and when that is a diagnostic the rest of the line is passed over.
-/

namespace Pseudolang

namespace Grammar

variable {σ : Type} [TokenStream σ]

/-- A line is used up by reading a statement from it and passing over what is left of it. -/
theorem remaining_skipLine_run_lt {α : Type} (p : Parser σ α) {w : Window σ}
    (h : ¬w.current.endsStatement) : (p.run w).2.skipLine.remaining < w.remaining := by
  obtain ⟨n, hn⟩ := p.forward w
  rw [hn]
  cases n with
  | zero => exact Window.remaining_skipLine_lt h
  | succ n =>
    calc ((w.advance.advanceBy n).skipLine).remaining
        ≤ (w.advance.advanceBy n).remaining := Window.remaining_skipLine_le _
      _ ≤ w.advance.remaining := Window.remaining_advanceBy_le n _
      _ < w.remaining := Window.remaining_advance_lt (Window.kind_ne_endOfFile h)

/-- The outcomes of the lines from the window on, and the window at the end of file. -/
def outcomes (w : Window σ) : List Outcome × Window σ :=
  if hf : w.current.kind = .endOfFile then ([], w)
  else if hl : w.current.kind = .endOfLine then
    have := Window.remaining_advance_lt hf
    outcomes w.advance
  else
    match hr : statement.run w with
    | (outcome, w') =>
      have := hr ▸ remaining_skipLine_run_lt statement (w := w)
        (by simp [Token.endsStatement, Kind.endsStatement, hf, hl])
      match outcomes w'.skipLine with
      | (rest, last) => (outcome :: rest, last)
termination_by w.remaining

/-- The program that starts at the window. -/
def program (w : Window σ) : Program :=
  Program.ofOutcomes (outcomes w).1

end Grammar

/-- Reads the program of a source text. -/
def parse (source : String) : Program :=
  Grammar.program (Window.ofStream (Cursor.ofSource source))

/-- Reads a source text whose first line is one expression. -/
def parseExpression (source : String) : Except Diagnostic Expr :=
  (Grammar.standalone.run (Window.ofStream (Cursor.ofSource source))).1

end Pseudolang
