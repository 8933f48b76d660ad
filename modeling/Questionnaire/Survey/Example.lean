import Questionnaire.Survey.Basic

/-!
# An example survey

A contact survey of two pages: a question for adults only, an answer that is required under a condition, a
computed total, and triggers that copy an answer and complete the survey.
-/
namespace Questionnaire.Example

/-- Properties given by a list; all others are undefined. -/
def given (properties : List (Property × Value)) : Properties := fun p =>
  (properties.lookup p).getD .undefined

/-- A question without questions of its own. -/
def ask (name title : String) (properties : List (Property × String)) : Question where
  name
  kind := .text "text"
  isRequired := false
  properties := given ((.title, .text title) :: properties.map fun (p, s) => (p, .text s))
  elements := []

/-- A reference to a question, as an expression writes it. -/
def ref (name : String) : String := "\x7b" ++ name ++ "\x7d"

def about (adultAge : Int) : Page where
  name := "about"
  properties := given [(.title, .text "About you")]
  elements := [
    { ask "firstName" "First name" [] with isRequired := true },
    ask "age" "Age" [(.inputType, "number")],
    { ask "employment" "Employment status" [(.visibleIf, ref "age" ++ " >= " ++ toString adultAge)] with
      kind := .text "radiogroup" },
    ask "employmentOther" "Please describe"
      [(.visibleIf, ref "employment" ++ " = 'Other'"), (.requiredIf, ref "employment" ++ " = 'Other'")]]

def household : Page where
  name := "household"
  properties := given [(.title, .text "Your household"), (.requiredIf, .text (ref "age" ++ " >= 18"))]
  elements := [
    ask "adults" "Adults" [(.inputType, "number")],
    ask "children" "Children" [(.inputType, "number")],
    { ask "householdSize" "Household size"
        [(.expression, "sum(" ++ ref "adults" ++ ", " ++ ref "children" ++ ")")] with
      kind := .text "expression" },
    { ask "consent" "May we contact you?" [] with kind := .text "boolean" },
    ask "email" "Email" [(.inputType, "email"), (.visibleIf, ref "consent" ++ " = true")],
    ask "contactEmail" "Contact email" [(.enableIf, "false")]]

/-- The survey for a given age from which one counts as an adult. -/
def contactSurvey (adultAge : Int) : Survey where
  title := .text "Household contact survey"
  description := .text ("Thanks " ++ ref "firstName" ++ ", this takes two minutes.")
  completedHtml := .text ("<p>Thank you, " ++ ref "firstName" ++ "!</p>")
  metadata := []
  pages := [about adultAge, household]
  triggers := [
    { kind := .copyValue, condition := ref "consent" ++ " = true", setToName := .text "contactEmail",
      setValue := .undefined, fromName := .text "email", gotoName := .undefined, runExpression := .undefined },
    { kind := .complete,
      condition := ref "age" ++ " < " ++ toString adultAge ++ " and " ++ ref "age" ++ " notempty",
      setToName := .undefined, setValue := .undefined, fromName := .undefined, gotoName := .undefined,
      runExpression := .undefined }]

end Questionnaire.Example
