import Questionnaire.Value.Shown

/-!
# Surveys

A survey is a row of pages with questions, some of which group other questions, and a list of triggers.  Names
are texts; every other authored property is kept as the value it was given, so that a definition can be written
back as it was read.
-/
namespace Questionnaire

/-- The authored properties of questions; pages have some of them. -/
inductive Property where
  | title
  | description
  | html
  | inputType
  | minLength
  | maxLength
  | defaultValue
  | defaultValueExpression
  | visibleIf
  | enableIf
  | requiredIf
  | setValueIf
  | setValueExpression
  | setValue
  | resetValueIf
  | expression
  deriving DecidableEq, Repr

namespace Property

/-- The name of a property in a document. -/
def key : Property → String
  | title => "title"
  | description => "description"
  | html => "html"
  | inputType => "inputType"
  | minLength => "minLength"
  | maxLength => "maxLength"
  | defaultValue => "defaultValue"
  | defaultValueExpression => "defaultValueExpression"
  | visibleIf => "visibleIf"
  | enableIf => "enableIf"
  | requiredIf => "requiredIf"
  | setValueIf => "setValueIf"
  | setValueExpression => "setValueExpression"
  | setValue => "setValue"
  | resetValueIf => "resetValueIf"
  | expression => "expression"

/-- The properties of questions, in the order in which they are written. -/
def ofQuestions : List Property :=
  [title, description, html, inputType, minLength, maxLength, defaultValue, defaultValueExpression, visibleIf,
    enableIf, requiredIf, setValueIf, setValueExpression, setValue, resetValueIf, expression]

/-- The properties of pages, in the order in which they are written. -/
def ofPages : List Property := [title, description, visibleIf, enableIf, requiredIf]

end Property

/-- The authored properties of one question or page; one that was not given is undefined. -/
abbrev Properties := Property → Value

/-- A question, or a group of questions. -/
structure Question where
  name : String
  kind : Value
  isRequired : Bool
  properties : Properties
  elements : List Question

namespace Question

mutual

/-- A question and all questions it holds, each before those it holds itself. -/
def walk : Question → List Question
  | ⟨name, kind, isRequired, properties, elements⟩ =>
    ⟨name, kind, isRequired, properties, elements⟩ :: walkAll elements

/-- All questions of a list and those they hold, at any depth. -/
def walkAll : List Question → List Question
  | [] => []
  | q :: rest => walk q ++ walkAll rest

end

/-- Whether a question groups others and has no answer of its own. -/
def isContainer (q : Question) : Bool :=
  !q.elements.isEmpty || (match q.kind with
    | .text kind => kind == "panel" || kind == "paneldynamic"
    | _ => false)

/-- The title that is shown for a question, its name if it has none. -/
def displayTitle (q : Question) : Value :=
  if (q.properties .title).truthy then q.properties .title else .text q.name

end Question

structure Page where
  name : String
  properties : Properties
  elements : List Question

namespace Page

/-- All questions of a page, at any depth, in order. -/
def questions (p : Page) : List Question := Question.walkAll p.elements

/-- Whether a page holds a question of a name. -/
def holds (p : Page) (name : String) : Bool := p.questions.any (·.name == name)

end Page

/-- What a trigger does when its condition turns true. -/
inductive TriggerKind where
  | complete
  | setValue
  | copyValue
  | runExpression
  | skip
  deriving DecidableEq, Repr

namespace TriggerKind

def name : TriggerKind → String
  | complete => "complete"
  | setValue => "setvalue"
  | copyValue => "copyvalue"
  | runExpression => "runexpression"
  | skip => "skip"

def all : List TriggerKind := [complete, setValue, copyValue, runExpression, skip]

def ofName? (name : String) : Option TriggerKind := all.find? (·.name == name)

end TriggerKind

/-- A rule of the whole survey: an action, its condition, and what the action is about. -/
structure Trigger where
  kind : TriggerKind
  condition : String
  setToName : Value
  setValue : Value
  fromName : Value
  gotoName : Value
  runExpression : Value

namespace Trigger

/-- The kind of a trigger, with the question or page it leads to. -/
def label (t : Trigger) : Except Fault String := do
  let target := if t.setToName.truthy then t.setToName else t.gotoName
  if target.truthy then return t.kind.name ++ ":" ++ (← target.nameText) else return t.kind.name

end Trigger

structure Survey where
  title : Value
  description : Value
  completedHtml : Value
  metadata : Fields
  pages : List Page
  triggers : List Trigger

namespace Survey

/-- All questions, page by page, each before those it holds. -/
def questions (s : Survey) : List Question := s.pages.flatMap Page.questions

def questionNames (s : Survey) : List String := s.questions.map (·.name)

/-- The first page of a name. -/
def findPage? (s : Survey) (name : String) : Option Page := s.pages.find? (·.name == name)

def findQuestion? (s : Survey) (name : String) : Option Question := s.questions.find? (·.name == name)

/-- The first page that holds a question of a name, at any depth. -/
def pageOf? (s : Survey) (name : String) : Option Page := s.pages.find? (·.holds name)

/-- The first question that holds one of a name directly. -/
def parentOf? (s : Survey) (name : String) : Option Question :=
  s.questions.find? fun q => q.elements.any (·.name == name)

end Survey

end Questionnaire
