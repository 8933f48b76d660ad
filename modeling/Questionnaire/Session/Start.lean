import Questionnaire.Session.Writing

/-!
# Starting a session

The engine is compiled from the survey: what contains what, the bindings and their order, the triggers.  The
session begins with the given answers and the literal defaults; all bindings are applied once, and the
conditions of the triggers are noted without acting.
-/
namespace Questionnaire

namespace Question

mutual

/-- A question and all it holds, each with the names of what contains it, innermost first. -/
def withAncestors (ancestors : List String) : Question → List (Question × List String)
  | ⟨name, kind, isRequired, properties, elements⟩ =>
    (⟨name, kind, isRequired, properties, elements⟩, ancestors) :: allWithAncestors (name :: ancestors) elements

def allWithAncestors (ancestors : List String) : List Question → List (Question × List String)
  | [] => []
  | q :: rest => withAncestors ancestors q ++ allWithAncestors ancestors rest

end

end Question

/-- The questions of a page, each with the names of what contains it, innermost first; the page comes last. -/
def Page.withAncestors (p : Page) : List (Question × List String) :=
  Question.allWithAncestors [p.name] p.elements

namespace Slot

/-- The expression that a property of a trigger writes, or the diagnostic of a text that is none. -/
def parse (label property : String) (source : Value) : Except Fault (Option Expr × List Diagnostic) := do
  let text ← match source with
    | .text s => pure s
    | v => if v.truthy then throw .wrongType else pure ""
  match Expr.ofText text with
  | .ok e => return (some e, [])
  | .error e => return (none, [⟨.source e, label, property, source⟩])

/-- A trigger in a session that starts.  It is disabled if a text of it is no expression, or if it lacks a target
or a source. -/
def ofTrigger (index : Nat) (t : Trigger) : Except Fault (Slot × List Diagnostic) := do
  let name ← t.label
  let label := "trigger[" ++ toString index ++ "]:" ++ name
  let (condition, conditionProblems) ← parse label "expression" (.text t.condition)
  let (run, runProblems) ←
    if t.kind == .runExpression then parse label "runExpression" t.runExpression else pure (none, [])
  let targetProblems :=
    if (t.kind == .setValue || t.kind == .copyValue) && !t.setToName.truthy then
      [⟨.definition (.triggerWithoutTarget t.kind.name), label, "setToName", .undefined⟩]
    else []
  let sourceProblems :=
    if t.kind == .copyValue && !t.fromName.truthy then
      [⟨.definition .triggerWithoutSource, label, "fromName", .undefined⟩]
    else []
  let problems := conditionProblems ++ runProblems ++ targetProblems ++ sourceProblems
  return ({ trigger := t, name, index, condition, run, disabled := !problems.isEmpty }, problems)

end Slot

namespace Engine

/-- The engine of a survey with its bindings. -/
def ofBindings (survey : Survey) (settings : Settings) (bindings : List Binding) : Engine :=
  let dependencies := Dependencies.ofBindings bindings
  let contained := survey.pages.flatMap Page.withAncestors
  { survey, settings, dependencies
    questions := contained.foldl (fun table (q, _) => table.set q.name q) []
    pages := survey.pages.foldl (fun table p => table.set p.name p) []
    ancestors := contained.foldl (fun table (q, ancestors) => table.set q.name ancestors) []
    defaults := (dependencies.accepted.filter (·.kind == .defaultValueExpression)).foldl
      (fun table b => table.set b.owner b) [] }

/-- The flags before any binding is applied. -/
def initialFlags (survey : Survey) : Table String Flags :=
  survey.pages.foldl (fun flags p =>
    p.withAncestors.foldl (fun flags (q, _) => flags.set q.name { always := q.isRequired })
      (flags.set p.name {})) []

/-- The answers before any binding is applied: those that are given, and the literal default of every question
without one. -/
def initialAnswers (e : Engine) (given : Fields) : Fields :=
  e.questions.foldl (fun answers (name, q) =>
    let literal := q.properties .defaultValue
    if (Table.find? answers (.text name)).isNone && literal.isDefined then Table.set (.text name) literal answers
    else answers)
    (given.filter (·.2.isDefined))

/-- Applies all bindings and takes note of the conditions of all triggers. -/
def applyAll (e : Engine) : Act Unit := do
  e.settle (← e.sweep [] [] e.dependencies.ordered)
  e.prime

/-- The session that a survey starts with. -/
def start (survey : Survey) (settings : Settings) (answers : Fields) (navigator : Bool) :
    Except Fault (Engine × Session) := do
  let (bindings, problems) ← survey.bindings
  let e := ofBindings survey settings bindings
  let rejections := e.dependencies.rejected.map fun (b, error) =>
    (⟨.config error, b.owner, b.property.key, .text b.source⟩ : Diagnostic)
  let slots ← (survey.triggers.mapIdx Slot.ofTrigger).mapM id
  let session : Session := {
    answers := e.initialAnswers answers
    flags := initialFlags survey
    diagnostics := problems ++ rejections ++ slots.flatMap (·.2)
    slots := slots.map (·.1)
    navigator := if navigator then some {} else none }
  match e.applyAll session with
  | .ok _ s => return (e, s)
  | .error f _ => throw f

end Engine

end Questionnaire
