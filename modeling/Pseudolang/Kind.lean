/-!
# Kinds of tokens

A token is of one of a few special kinds, or its kind is a built-in datatype, a keyword or a symbol.
Each kind has a name, by which token dumps show it, and a canonical text, by which it is written and
by which diagnostics ask for it.  A built-in datatype is also the kind of its literals.

Two look-ups lead from text back to kinds: `Kind.reserved?` for words and `Kind.ofChar?` for the
characters that are tokens by themselves.
-/

namespace Pseudolang

/-- The built-in datatypes. -/
inductive Native
  | integer | real | char | string | boolean | date
  deriving DecidableEq

namespace Native

def all : List Native :=
  [integer, real, char, string, boolean, date]

/-- The name of the kind in token dumps. -/
def name : Native → String
  | integer => "Integer"
  | real => "Real"
  | char => "Char"
  | string => "String"
  | boolean => "Boolean"
  | date => "Date"

/-- How it is written in a source text. -/
def text : Native → String
  | integer => "INTEGER"
  | real => "REAL"
  | char => "CHAR"
  | string => "STRING"
  | boolean => "BOOLEAN"
  | date => "DATE"

theorem mem_all (n : Native) : n ∈ all := by
  cases n <;> decide

end Native

/-- The reserved words that are not datatypes. -/
inductive Keyword
  | whileLoop | endWhile | repeatLoop | untilTest | forLoop | toBound | stepBy | nextRound
  | declare | constant | array | ofType | typeDef | endType | input | output | and | or | not
  | procedure | endProcedure | call | byRef | byVal | function | returns | returnValue
  | endFunction | ifTest | thenBranch | elseBranch | elseIf | endIf | caseOf | otherwise | endCase
  | openFile | readFile | writeFile | closeFile | read | write | append | publicMember
  | privateMember | classDef | endClass | inherits | newObject | mod | div
  deriving DecidableEq

namespace Keyword

def all : List Keyword :=
  [whileLoop, endWhile, repeatLoop, untilTest, forLoop, toBound, stepBy, nextRound, declare,
   constant, array, ofType, typeDef, endType, input, output, and, or, not, procedure,
   endProcedure, call, byRef, byVal, function, returns, returnValue, endFunction, ifTest,
   thenBranch, elseBranch, elseIf, endIf, caseOf, otherwise, endCase, openFile, readFile,
   writeFile, closeFile, read, write, append, publicMember, privateMember, classDef, endClass,
   inherits, newObject, mod, div]

/-- The name of the kind in token dumps. -/
def name : Keyword → String
  | whileLoop => "While"
  | endWhile => "EndWhile"
  | repeatLoop => "Repeat"
  | untilTest => "Until"
  | forLoop => "For"
  | toBound => "To"
  | stepBy => "Step"
  | nextRound => "Next"
  | declare => "Declare"
  | constant => "Constant"
  | array => "Array"
  | ofType => "Of"
  | typeDef => "Type"
  | endType => "EndType"
  | input => "Input"
  | output => "Output"
  | and => "And"
  | or => "Or"
  | not => "Not"
  | procedure => "Procedure"
  | endProcedure => "EndProcedure"
  | call => "Call"
  | byRef => "ByRef"
  | byVal => "ByVal"
  | function => "Function"
  | returns => "Returns"
  | returnValue => "Return"
  | endFunction => "EndFunction"
  | ifTest => "If"
  | thenBranch => "Then"
  | elseBranch => "Else"
  | elseIf => "ElseIf"
  | endIf => "EndIf"
  | caseOf => "Case"
  | otherwise => "Otherwise"
  | endCase => "EndCase"
  | openFile => "OpenFile"
  | readFile => "ReadFile"
  | writeFile => "WriteFile"
  | closeFile => "CloseFile"
  | read => "Read"
  | write => "Write"
  | append => "Append"
  | publicMember => "Public"
  | privateMember => "Private"
  | classDef => "Class"
  | endClass => "EndClass"
  | inherits => "Inherits"
  | newObject => "New"
  | mod => "Mod"
  | div => "Div"

/-- How it is written in a source text. -/
def text : Keyword → String
  | whileLoop => "WHILE"
  | endWhile => "ENDWHILE"
  | repeatLoop => "REPEAT"
  | untilTest => "UNTIL"
  | forLoop => "FOR"
  | toBound => "TO"
  | stepBy => "STEP"
  | nextRound => "NEXT"
  | declare => "DECLARE"
  | constant => "CONSTANT"
  | array => "ARRAY"
  | ofType => "OF"
  | typeDef => "TYPE"
  | endType => "ENDTYPE"
  | input => "INPUT"
  | output => "OUTPUT"
  | and => "AND"
  | or => "OR"
  | not => "NOT"
  | procedure => "PROCEDURE"
  | endProcedure => "ENDPROCEDURE"
  | call => "CALL"
  | byRef => "BYREF"
  | byVal => "BYVAL"
  | function => "FUNCTION"
  | returns => "RETURNS"
  | returnValue => "RETURN"
  | endFunction => "ENDFUNCTION"
  | ifTest => "IF"
  | thenBranch => "THEN"
  | elseBranch => "ELSE"
  | elseIf => "ELSEIF"
  | endIf => "ENDIF"
  | caseOf => "CASE"
  | otherwise => "OTHERWISE"
  | endCase => "ENDCASE"
  | openFile => "OPENFILE"
  | readFile => "READFILE"
  | writeFile => "WRITEFILE"
  | closeFile => "CLOSEFILE"
  | read => "READ"
  | write => "WRITE"
  | append => "APPEND"
  | publicMember => "PUBLIC"
  | privateMember => "PRIVATE"
  | classDef => "CLASS"
  | endClass => "ENDCLASS"
  | inherits => "INHERITS"
  | newObject => "NEW"
  | mod => "MOD"
  | div => "DIV"

theorem mem_all (k : Keyword) : k ∈ all := by
  cases k <;> decide

end Keyword

/-- Operators and delimiters. -/
inductive Symbol
  | plus | minus | star | slash | caret | dot | ampersand | assign | colon | equals | notEquals
  | less | lessEquals | greater | greaterEquals | openParen | closeParen | openBracket
  | closeBracket | comma | doubleQuote | singleQuote
  deriving DecidableEq

namespace Symbol

def all : List Symbol :=
  [plus, minus, star, slash, caret, dot, ampersand, assign, colon, equals, notEquals, less,
   lessEquals, greater, greaterEquals, openParen, closeParen, openBracket, closeBracket, comma,
   doubleQuote, singleQuote]

/-- The name of the kind in token dumps. -/
def name : Symbol → String
  | plus => "Plus"
  | minus => "Minus"
  | star => "Star"
  | slash => "Slash"
  | caret => "Caret"
  | dot => "Dot"
  | ampersand => "Ampersand"
  | assign => "Assignment"
  | colon => "Colon"
  | equals => "Equals"
  | notEquals => "NotEquals"
  | less => "Less"
  | lessEquals => "LessEquals"
  | greater => "Greater"
  | greaterEquals => "GreaterEquals"
  | openParen => "OpenParen"
  | closeParen => "CloseParen"
  | openBracket => "OpenBracket"
  | closeBracket => "CloseBracket"
  | comma => "Comma"
  | doubleQuote => "DoubleQuote"
  | singleQuote => "SingleQuote"

/-- How it is written in a source text. -/
def text : Symbol → String
  | plus => "+"
  | minus => "-"
  | star => "*"
  | slash => "/"
  | caret => "^"
  | dot => "."
  | ampersand => "&"
  | assign => "<-"
  | colon => ":"
  | equals => "="
  | notEquals => "<>"
  | less => "<"
  | lessEquals => "<="
  | greater => ">"
  | greaterEquals => ">="
  | openParen => "("
  | closeParen => ")"
  | openBracket => "["
  | closeBracket => "]"
  | comma => ","
  | doubleQuote => "\""
  | singleQuote => "'"

theorem mem_all (s : Symbol) : s ∈ all := by
  cases s <;> decide

end Symbol

/-- The kind of a token. -/
inductive Kind
  /-- Text that is no token of the language. -/
  | illegal
  | endOfFile
  | endOfLine
  | identifier
  /-- The name of a built-in datatype, or one of its literals. -/
  | native (n : Native)
  | keyword (k : Keyword)
  | symbol (s : Symbol)
  deriving DecidableEq

namespace Kind

def all : List Kind :=
  [illegal, endOfFile, endOfLine, identifier] ++ Native.all.map native ++
    Keyword.all.map keyword ++ Symbol.all.map symbol

theorem mem_all (k : Kind) : k ∈ all := by
  cases k with
  | native n => simp [all, Native.mem_all]
  | keyword k => simp [all, Keyword.mem_all]
  | symbol s => simp [all, Symbol.mem_all]
  | _ => simp [all]

/-- The name of the kind in token dumps. -/
def name : Kind → String
  | illegal => "Illegal"
  | endOfFile => "EOF"
  | endOfLine => "EOL"
  | identifier => "Identifier"
  | native n => n.name
  | keyword k => k.name
  | symbol s => s.name

/-- The canonical text of the kind. -/
def text : Kind → String
  | illegal => "ILLEGAL"
  | endOfFile => ""
  | endOfLine => "\n"
  | identifier => "IDENTIFIER"
  | native n => n.text
  | keyword k => k.text
  | symbol s => s.text

/-- The kind of a given name. -/
def ofName? (s : String) : Option Kind :=
  all.find? (·.name = s)

/-- How a diagnostic asks for the kind. -/
def describe : Kind → String
  | endOfFile => "end of file"
  | endOfLine => "end of line"
  | identifier => "an identifier"
  | k => "`" ++ k.text ++ "`"

/-- Whether the kind names a built-in datatype. -/
def isNative : Kind → Bool
  | native _ => true
  | _ => false

/-- Whether a token of the kind ends a statement. -/
def endsStatement (k : Kind) : Bool :=
  k = endOfLine ∨ k = endOfFile

/-! ## From text to kinds -/

/-- The datatypes and keywords, whose texts cannot be identifiers. -/
def reserved : List Kind :=
  Native.all.map native ++ Keyword.all.map keyword

/-- The kind of a reserved word.  Case matters. -/
def reserved? (s : String) : Option Kind :=
  reserved.find? (·.text = s)

/-- The kind of a character that never starts a longer token. -/
def ofChar? : Char → Option Kind
  | '\n' => some endOfLine
  | '+' => some (symbol .plus)
  | '-' => some (symbol .minus)
  | '*' => some (symbol .star)
  | '^' => some (symbol .caret)
  | ':' => some (symbol .colon)
  | '=' => some (symbol .equals)
  | '&' => some (symbol .ampersand)
  | '(' => some (symbol .openParen)
  | ')' => some (symbol .closeParen)
  | '[' => some (symbol .openBracket)
  | ']' => some (symbol .closeBracket)
  | ',' => some (symbol .comma)
  | _ => none

/-- A character that is a token by itself is the canonical text of its kind. -/
theorem text_of_ofChar? {c : Char} {k : Kind} (h : ofChar? c = some k) :
    k.text = String.ofList [c] := by
  revert h
  unfold ofChar?
  split <;> rintro ⟨⟩ <;> decide

end Kind

end Pseudolang
