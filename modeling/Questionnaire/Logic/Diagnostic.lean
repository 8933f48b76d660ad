import Questionnaire.Expr.Parser

/-!
# Diagnostics

A diagnostic is a problem that does not end the work: what is wrong, which question, page or trigger it belongs
to, and the authored text it was found in.
-/
namespace Questionnaire

/-- What can be wrong without ending the work. -/
inductive Problem where
  | source (e : Expr.SourceError)
  | eval (e : EvalError)
  | config (e : ConfigError)
  | definition (e : DefinitionError)
  deriving DecidableEq, Repr

def Problem.message : Problem → String
  | source e => e.message
  | eval e => e.message
  | config e => e.message
  | definition e => e.message

/-- The name of a problem's kind. -/
def Problem.kindName : Problem → String
  | source (.lex _) => "LexError"
  | source (.parse _) => "ParseError"
  | eval e => e.kind.name
  | config e => e.cause.kind.name
  | definition _ => "SurveyDefinitionError"

/-- A problem with the owner and the property it was found at, and the text of that property. -/
structure Diagnostic where
  problem : Problem
  owner : String
  property : String
  source : Value

/-- The message of a problem with its place in front. -/
def Diagnostic.text (d : Diagnostic) : String :=
  "[" ++ ".".intercalate ([d.owner, d.property].filter (!·.isEmpty)) ++ "] " ++ d.problem.message

end Questionnaire
