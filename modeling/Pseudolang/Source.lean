/-!
# Lines of a source text

Lines are counted from one and end with a line feed; a carriage return before it is no part of the
line.
-/

namespace Pseudolang

/-- What stands between the line feeds of a text. -/
def splitLines : List Char → List (List Char)
  | [] => [[]]
  | c :: cs =>
    if c = '\n' then [] :: splitLines cs
    else
      match splitLines cs with
      | [] => [[c]]
      | line :: lines => (c :: line) :: lines

/-- A line without a carriage return at its end. -/
def dropReturn (line : List Char) : List Char :=
  if line.getLast? = some '\r' then line.dropLast else line

/-- The text of a line, if the source has so many. -/
def sourceLine? (source : String) : Nat → Option String
  | 0 => none
  | line + 1 => (splitLines source.toList)[line]?.map fun cs => String.ofList (dropReturn cs)

theorem splitLines_ne_nil (cs : List Char) : splitLines cs ≠ [] := by
  induction cs with
  | nil => simp [splitLines]
  | cons c cs ih =>
    rw [splitLines]
    split
    · simp
    · split <;> simp

end Pseudolang
