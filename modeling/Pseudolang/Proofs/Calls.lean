import Mathlib.Data.Nat.Notation
import Pseudolang.Grammar.Statement

/-!
# Calls of parsers

What is said of all parsers of the grammar alike is said of calls.  A `Call` names one of them with
its arguments, whatever they are: nothing asks that the window where it is made fits, so that an
operator may be read where none stands and a list may be closed by any kind.  `Call.parser` is the
parser that is called, on windows over any stream, with its result made a `Call.Result`.
-/

namespace Pseudolang.Grammar

open Pseudolang.Parser

/-- What a call may give. -/
inductive Call.Result
  | token (token : Token)
  | expression (e : Expr)
  | expressions (es : List Expr)
  | arrayType (bounds : List Expr) (element : Token)
  | statement (s : Statement)

/-- A parser of the grammar with its arguments. -/
inductive Call
  | expr (power : ℕ)
  /-- An operand with the operators after it, when an expression is open already. -/
  | operators (power : ℕ)
  | operand
  | unary (power : ℕ)
  | group
  | binary (left : Expr) (power : ℕ)
  | suffix (left : Expr) (grouped : Bool)
  | exprList (closing : Kind) (allowEmpty : Bool)
  | standalone
  | datatype
  | lowerBound
  | arrayType
  | declareStatement
  | constantStatement
  | assignStatement
  | assignElementStatement
  | inputStatement
  | outputStatement
  | statement

/-- The parser that is called. -/
def Call.parser {σ : Type} [TokenStream σ] : Call → Parser σ Call.Result
  | .expr power => Result.expression <$> Grammar.expr power
  | .operators power => Result.expression <$> operatorsWith Grammar.expr power
  | .operand => Result.expression <$> Grammar.operand
  | .unary power => Result.expression <$> Grammar.unary power
  | .group => Result.expression <$> Grammar.group
  | .binary left power => Result.expression <$> Grammar.binary left power
  | .suffix left grouped => Result.expression <$> Grammar.suffix left grouped
  | .exprList closing allowEmpty => Result.expressions <$> Grammar.exprList closing allowEmpty
  | .standalone => Result.expression <$> Grammar.standalone
  | .datatype => Result.token <$> Grammar.datatype
  | .lowerBound => Result.token <$> Grammar.lowerBound
  | .arrayType => (fun (bounds, element) => Result.arrayType bounds element) <$> Grammar.arrayType
  | .declareStatement => Result.statement <$> Grammar.declareStatement
  | .constantStatement => Result.statement <$> Grammar.constantStatement
  | .assignStatement => Result.statement <$> Grammar.assignStatement
  | .assignElementStatement => Result.statement <$> Grammar.assignElementStatement
  | .inputStatement => Result.statement <$> Grammar.inputStatement
  | .outputStatement => Result.statement <$> Grammar.outputStatement
  | .statement => Result.statement <$> Grammar.statement

end Pseudolang.Grammar
