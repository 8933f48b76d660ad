import Questionnaire.Failure
import Questionnaire.Json.Printer
import Questionnaire.Json.Reader

/-!
# Answers as text

The answers of a respondent are kept as the JSON text of an object, and no text at all stands for no answers.
-/
namespace Questionnaire.Answers

/-- Why a text holds no answers. -/
inductive ReadError where
  | text (e : Json.ReadError)
  | definition (e : DefinitionError)
  deriving DecidableEq, Repr

/-- The answers that a text holds. -/
def ofJson (text : String) : Except ReadError Fields :=
  if text.isEmpty then .ok []
  else match Json.read text with
    | .ok (.structured answers) => .ok answers
    | .ok _ => .error (.definition .answersNotObject)
    | .error e => .error (.text e)

/-- The text of answers. -/
def toJson (answers : Fields) : Except Fault String := Json.print (.structured answers)

end Questionnaire.Answers
