import Questionnaire.Expr.Basic
import Questionnaire.Number.Decimal

/-!
# Writing expressions

An expression as text.  Every operator stands in parentheses with its operands and with a space at each side that
has an operand, so which operators bind tighter never matters.  Texts are quoted, references stand in braces, and the
arguments of a call are separated by commas.
-/
namespace Questionnaire

namespace Lexeme

/-- A text with a backslash before each backslash and each single quote. -/
def escape : List Char → List Char
  | [] => []
  | c :: rest => if c == '\\' || c == '\'' then '\\' :: c :: escape rest else c :: escape rest

/-- A text as a literal. -/
def quoted (cs : List Char) : List Char := '\'' :: (escape cs ++ ['\''])

end Lexeme

/-- The literal that writes a value: a name for nothing and for a boolean, digits for a natural, and a quoted text.
No other value has one. -/
def Value.written : Value → List Char
  | undefined => "null".toList
  | boolean true => "true".toList
  | boolean false => "false".toList
  | number (.int n) => (decimalDigits n.toNat).toList
  | text s => Lexeme.quoted s.toList
  | _ => []

namespace Expr

/-- A text in parentheses. -/
def grouped (cs : List Char) : List Char := '(' :: (cs ++ [')'])

/-- An operand with an operator in front of it. -/
def preceded (symbol : String) (operand : List Char) : List Char := symbol.toList ++ ' ' :: operand

/-- An operand with an operator behind it. -/
def followed (operand : List Char) (symbol : String) : List Char := operand ++ ' ' :: symbol.toList

/-- Two operands with an operator between them. -/
def infixed (left : List Char) (symbol : String) (right : List Char) : List Char :=
  left ++ ' ' :: preceded symbol right

mutual

/-- The characters of an expression. -/
def written : Expr → List Char
  | literal v => v.written
  | reference path => '\x7b' :: (path.toList ++ ['\x7d'])
  | unary .not operand => grouped (preceded (UnaryOp.symbol .not) (written operand))
  | unary .negate operand => grouped (preceded (UnaryOp.symbol .negate) (written operand))
  | unary .empty operand => grouped (followed (written operand) (UnaryOp.symbol .empty))
  | unary .notEmpty operand => grouped (followed (written operand) (UnaryOp.symbol .notEmpty))
  | binary op left right => grouped (infixed (written left) op.symbol (written right))
  | logical op left right => grouped (infixed (written left) op.symbol (written right))
  | call name arguments => name.toList ++ grouped (writtenArguments arguments)

/-- The characters of the arguments of a call. -/
def writtenArguments : List Expr → List Char
  | [] => []
  | [e] => written e
  | e :: next :: rest => written e ++ ',' :: ' ' :: writtenArguments (next :: rest)

end

/-- The text of an expression. -/
def print (e : Expr) : String := String.ofList (written e)

end Expr

end Questionnaire
