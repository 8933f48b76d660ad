import Questionnaire.Expr.Template
import Questionnaire.Session.Navigation
import Questionnaire.Text.Pattern

/-!
# Validation

Answers are checked against the flags in effect: what is hidden or disabled is left alone, what is required must
have an answer, and the answers to text questions must keep to their kind and length.
-/
namespace Questionnaire

/-- Whether a text has the form of an address. -/
def isEmail (s : String) : Bool := Text.fits Text.address s.toList

namespace Engine

/-- Whether a length is on the wrong side of a limit; only a number can be a limit. -/
def exceeds (r : Relation) (length : Nat) (limit : Value) : Except Fault Bool :=
  if !limit.truthy then .ok false
  else match limit.numeric? with
    | some n => .ok (r.onNumbers (.int length) n)
    | none => .error .wrongType

/-- An error about a question, which begins with its title. -/
def complaint (q : Question) (rest : String) : Except Fault (List String) := do
  return [(← q.displayTitle.nameText) ++ rest]

/-- The error of a text on the wrong side of a limit. -/
def lengthErrors (q : Question) (r : Relation) (words : String) (length : Nat) (limit : Value) :
    Except Fault (List String) := do
  if ← exceeds r length limit then
    complaint q (" must be " ++ words ++ " " ++ (← limit.nameText) ++ " characters")
  else return []

/-- The errors of a non-empty answer to a text question. -/
def textErrors (q : Question) (v : Value) : Except Fault (List String) := do
  let text ← v.toText
  let asks (kind : String) : Bool := match q.properties .inputType with
    | .text s => s == kind
    | _ => false
  let form ← if asks "email" && !isEmail text then complaint q " must be a valid email"
    else if asks "number" && !v.isNumber && !v.isNumericText then complaint q " must be a number"
    else pure []
  let short ← lengthErrors q .less "at least" text.length (q.properties .minLength)
  let long ← lengthErrors q .greater "no more than" text.length (q.properties .maxLength)
  return form ++ short ++ long

/-- The errors of one question. -/
def questionErrors (e : Engine) (s : Session) (q : Question) : Except Fault (List String) := do
  if q.isContainer || !e.isVisible s q.name || !e.isEnabled s q.name then return []
  let v := s.value q.name
  if v.isEmpty then
    if e.isRequired s q.name then complaint q " is required" else return []
  else
    match q.kind with
    | .text "text" => textErrors q v
    | _ => return []

/-- The errors of a page: those of its questions, and that a required page has no answer at all. -/
def pageErrors (e : Engine) (s : Session) (p : Page) : Except Fault (List String) := do
  let errors := (← p.questions.mapM (e.questionErrors s)).flatten
  if e.isRequired s p.name && !e.isSatisfied s p.name then
    let title := p.properties .title
    let name ← if title.truthy then title.nameText else pure p.name
    return errors ++ [name ++ " requires at least one answer"]
  else return errors

/-- The errors of all visible pages. -/
def surveyErrors (e : Engine) (s : Session) : Except Fault (List String) := do
  return (← (e.survey.pages.filter fun p => e.isVisible s p.name).mapM (e.pageErrors s)).flatten

/-- The errors of the page that the respondent is on. -/
def currentErrors (e : Engine) (s : Session) (n : Navigator) : Except Fault (List String) :=
  match e.currentPage? n with
  | none => .ok []
  | some p => e.pageErrors s p

/-- Whether the respondent may go on: a visible page has to be without errors. -/
def canGoOn (e : Engine) (s : Session) (n : Navigator) : Except Fault Bool := do
  match e.currentPage? n with
  | none => return true
  | some p => if e.isVisible s p.name then return (← e.pageErrors s p).isEmpty else return true

end Engine

/-- A display text with every reference replaced by the text of its value. -/
def Session.displayText (s : Session) (template : String) : Except Fault String := do
  let texts ← (Template.ofText template).mapM fun
    | .text t => pure t
    | .reference path =>
      match Path.ofText path with
      | .ok p => (p.resolve s.answers).toText
      | .error _ => throw Fault.badValue
  return String.join texts

end Questionnaire
