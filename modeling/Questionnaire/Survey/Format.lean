import Questionnaire.Json.Printer
import Questionnaire.Json.Reader
import Questionnaire.Survey.Document
import Questionnaire.Yaml.Printer
import Questionnaire.Yaml.Reader

/-!
# Definitions as text

A definition is kept as JSON or YAML text: it is written as the text of its document, and read from the document
that a text holds.
-/
namespace Questionnaire.Survey

/-- The survey that a JSON text defines. -/
def ofJson (text : String) : Except LoadError Survey :=
  match Json.read text with
  | .ok document => ofDocument document
  | .error .malformed => .error (.definition .invalidJson)
  | .error .integerTooLong => .error (.fault .badValue)

/-- The JSON text of a survey. -/
def toJson (s : Survey) : Except Fault String := Json.print s.toDocument

/-- The survey that a YAML text defines. -/
def ofYaml (text : String) : Except LoadError Survey :=
  match Yaml.read text with
  | .ok document => ofDocument document
  | .error .malformed => .error (.definition .invalidYaml)
  | .error (.fault f) => .error (.fault f)

/-- The YAML text of a survey. -/
def toYaml (s : Survey) : Except Fault String := Yaml.print s.toDocument

end Questionnaire.Survey
