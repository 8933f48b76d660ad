import Questionnaire.Expr.Parser

/-!
# Remembered expressions

Reading an expression depends on its text alone, so a text that was read before need not be read again.  A memo
keeps the expressions under the texts they were read from; texts that are no expressions are not kept.
-/
namespace Questionnaire

/-- Expressions under the texts they were read from. -/
abbrev Memo := Table String Expr

namespace Memo

/-- The expression that a text writes, with whether it is remembered, and the memo that remembers it. -/
def parse (memo : Memo) (source : String) : Except Expr.SourceError (Expr × Bool) × Memo :=
  match Table.find? memo source with
  | some e => (.ok (e, true), memo)
  | none =>
    match Expr.ofText source with
    | .ok e => (.ok (e, false), Table.set source e memo)
    | .error failure => (.error failure, memo)

/-- What texts write that are read one after the other. -/
def parseAll : Memo → List String → List (Except Expr.SourceError (Expr × Bool))
  | _, [] => []
  | memo, source :: rest => (memo.parse source).1 :: parseAll (memo.parse source).2 rest

end Memo

end Questionnaire
