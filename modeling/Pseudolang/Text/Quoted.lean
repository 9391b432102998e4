import Pseudolang.Text.ExtendingMark
import Pseudolang.Text.Unprintable

/-!
# Quoted text

Text is shown between double quotes on one line: the quote and the backslash get a backslash, four
controls have a letter of their own, and every other character that has no shape of its own, or that
would be drawn onto its neighbour, is written by its code point in hexadecimal digits.

Cutting the two quotes off again goes by bytes, so it is refused when a cut would fall inside a
character (`unquoted?`).
-/

namespace Pseudolang.Text

/-- The hexadecimal digits of a number, lower case and without leading zeros. -/
def hexDigits (n : Nat) : List Char :=
  Nat.toDigits 16 n

/-- The escape that names a character by its code point. -/
def codePointEscape (c : Char) : List Char :=
  '\\' :: 'u' :: '\x7b' :: (hexDigits c.toNat ++ ['\x7d'])

/-- How a character is written between double quotes. -/
def escape (c : Char) : List Char :=
  if c = '"' then ['\\', '"']
  else if c = '\\' then ['\\', '\\']
  else if c = '\x00' then ['\\', '0']
  else if c = '\t' then ['\\', 't']
  else if c = '\r' then ['\\', 'r']
  else if c = '\n' then ['\\', 'n']
  else if isExtendingMark c || isUnprintable c then codePointEscape c
  else [c]

/-- The text between double quotes, on one line. -/
def quoted (s : String) : String :=
  String.ofList ('"' :: (s.toList.flatMap escape ++ ['"']))

/-- The text without its first and its last byte, unless it has fewer than two bytes or a cut would
fall inside a character. -/
def unquoted? (s : String) : Option String :=
  match s.toList with
  | [] => none
  | first :: rest =>
    match rest.getLast? with
    | none => none
    | some last =>
      if first.utf8Size = 1 ∧ last.utf8Size = 1 then some (String.ofList rest.dropLast) else none

end Pseudolang.Text
