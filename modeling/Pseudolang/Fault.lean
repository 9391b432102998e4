/-!
# Lexical faults

A piece of text that belongs to no token of the language is kept as an illegal token, and a `Fault`
says what is wrong with it.
-/

namespace Pseudolang

/-- Why a piece of text is not a token of the language. -/
inductive Fault
  /-- A string that does not end on its line. -/
  | unterminatedString
  /-- A character literal that is not one character between single quotes. -/
  | malformedChar
  /-- A number with two points, or with nothing after its point. -/
  | malformedNumber
  /-- A character that starts no token. -/
  | unrecognisedCharacter
  deriving DecidableEq

namespace Fault

def all : List Fault :=
  [unterminatedString, malformedChar, malformedNumber, unrecognisedCharacter]

/-- The name of the fault. -/
def name : Fault → String
  | unterminatedString => "UnterminatedString"
  | malformedChar => "MalformedChar"
  | malformedNumber => "MalformedNumber"
  | unrecognisedCharacter => "UnrecognisedCharacter"

/-- The rule of the language that the text breaks. -/
def message : Fault → String
  | unterminatedString =>
    "Double quotes must be in pairs and strings cannot stretch across multiple lines"
  | malformedChar => "Single quotes must be in pairs and can only contain a single character"
  | malformedNumber => "A number can contain at most one decimal point, followed by digits"
  | unrecognisedCharacter => "Character is not part of the language"

/-- What would have been right in place of the text. -/
def expected : Fault → String
  | unterminatedString => "a closing double quote on the same line"
  | malformedChar => "a single character between single quotes"
  | malformedNumber => "a number with at most one decimal point"
  | unrecognisedCharacter => "a valid character"

/-- The fault of a given name. -/
def ofName? (s : String) : Option Fault :=
  all.find? (·.name = s)

end Fault

end Pseudolang
