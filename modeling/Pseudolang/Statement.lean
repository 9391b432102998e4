import Pseudolang.Expr

/-!
# Statements

One line of a program.  The printed form of a statement is itself a line of the language.
-/

namespace Pseudolang

/-- A statement. -/
inductive Statement
  | declare (identifier datatype : Token)
  /-- An array whose dimensions run from one to the given bounds. -/
  | declareArray (identifier : Token) (bounds : List Expr) (datatype : Token)
  | constant (identifier value : Token)
  | assign (identifier : Token) (value : Expr)
  | assignElement (identifier : Token) (indexes : List Expr) (value : Expr)
  | input (identifier : Token)
  | output (values : List Expr)

namespace Statement

/-- The name of the form, as listings show it. -/
def name : Statement → String
  | declare .. => "DECLARE"
  | declareArray .. => "DECLARE ARRAY"
  | constant .. => "CONSTANT"
  | assign .. => "ASSIGNMENT"
  | assignElement .. => "ASSIGNMENT ARRAY"
  | input .. => "INPUT"
  | output .. => "OUTPUT"

/-- The dimensions of an array type, each from one to its bound. -/
def boundsText (bounds : List Expr) : String :=
  String.intercalate ", " (bounds.map fun bound => "1:" ++ bound.text)

/-- The printed form. -/
def text : Statement → String
  | declare identifier datatype => "DECLARE " ++ identifier.text ++ " : " ++ datatype.text
  | declareArray identifier bounds datatype =>
    "DECLARE " ++ identifier.text ++ " : ARRAY[" ++ boundsText bounds ++ "] OF " ++ datatype.text
  | constant identifier value => "CONSTANT " ++ identifier.text ++ " = " ++ value.text
  | assign identifier value => identifier.text ++ " <- " ++ value.text
  | assignElement identifier indexes value =>
    identifier.text ++ "[" ++ Expr.listText indexes ++ "] <- " ++ value.text
  | input identifier => "INPUT " ++ identifier.text
  | output values => "OUTPUT " ++ Expr.listText values

/-- The line of the statement in a listing, without its line break. -/
def listing (s : Statement) : String :=
  "[" ++ s.name ++ "] " ++ s.text

end Statement

end Pseudolang
