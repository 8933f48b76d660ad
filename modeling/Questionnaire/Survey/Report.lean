import Questionnaire.Expr.Metrics
import Questionnaire.Logic.Feedback

/-!
# Reports

What can be said about a survey without a session: which questions its expressions read, how large the
expressions are, what does not parse, and what should be warned about.
-/
namespace Questionnaire

/-- What the analysis of a survey finds. -/
structure Report where
  name : Value
  pages : Nat
  questions : Nat
  triggers : Nat
  bindings : Nat
  /-- For each question that is read, the number of expressions that read it. -/
  usage : List (String × Nat)
  undefinedReferences : List String
  unreferencedQuestions : List String
  maxDepth : Nat
  averageDepth : Double
  nodes : Nat
  parseErrors : List String
  cycle : Option (List String)
  warnings : List String

namespace Report

/-- Expressions deeper than this are warned about. -/
def recommendedDepth : Nat := 5

/-- The expressions and the problems of the texts of a trigger. -/
def ofSources (index : Nat) : List (String × Value) → Except Fault (List Expr × List String)
  | [] => .ok ([], [])
  | (property, source) :: rest => do
    let text ← match source with
      | .text s => pure s
      | _ => throw .wrongType
    let (expressions, problems) ← ofSources index rest
    match Expr.ofText text with
    | .ok e => return (e :: expressions, problems)
    | .error e => return (expressions, (s!"[trigger[{index}].{property}] " ++ e.message) :: problems)

/-- The texts of a trigger that are expressions. -/
def sourcesOf (t : Trigger) : List (String × Value) :=
  ("expression", .text t.condition) ::
    (if t.runExpression.truthy then [("runExpression", t.runExpression)] else [])

/-- The expressions and the problems of all triggers. -/
def ofTriggers (triggers : List Trigger) : Except Fault (List Expr × List String) := do
  let found ← (triggers.mapIdx fun i t => ofSources i (sourcesOf t)).mapM id
  return (found.flatMap (·.1), found.flatMap (·.2))

/-- The name that a trigger's property gives, if it gives one. -/
def nameIn (v : Value) : Except Fault (List String) :=
  if v.truthy then
    match v.key? with
    | some key => .ok key.text?.toList
    | none => .error .wrongType
  else .ok []

/-- The number of expressions that read each question, from the sizes of all. -/
def usageOf (sizes : List Metrics) : List (String × Nat) :=
  (Metrics.sum sizes).references.map fun name => (name, sizes.countP (·.references.contains name))

/-- The mean of the depths of some expressions. -/
def average (depths : List Nat) : Double :=
  match depths.length with
  | 0 => .zero
  | count => Double.ofRatio false (depths.foldr (· + ·) 0) count

/-- The warnings about skip targets that are neither a question nor a page. -/
def skipWarnings (s : Survey) : List Trigger → Except Fault (List String)
  | [] => .ok []
  | t :: rest => do
    let isThere (name : String) : Bool := s.questionNames.contains name || (s.findPage? name).isSome
    let here ←
      if t.gotoName.truthy then
        match t.gotoName.key? with
        | none => throw .wrongType
        | some key => if key.text?.any isThere then pure [] else pure [← t.gotoName.nameText]
      else pure []
    return here.map ("Skip target does not exist: " ++ ·) ++ (← skipWarnings s rest)

/-- A list without later repetitions. -/
def distinct : List String → List String
  | [] => []
  | s :: rest => s :: (distinct rest).filter (· != s)

/-- The report on a survey. -/
def ofSurvey (s : Survey) : Except Fault Report := do
  let (bindings, diagnostics) ← s.bindings
  let (triggerExpressions, triggerProblems) ← ofTriggers s.triggers
  let expressions := bindings.flatMap (fun b => b.expression :: b.gate.toList) ++ triggerExpressions
  let parseErrors := diagnostics.map Diagnostic.text ++ triggerProblems
  let sizes := expressions.map Expr.metrics
  let size := Metrics.sum sizes
  let usage := usageOf sizes
  let used := usage.map (·.1)
  let endpoints := (← s.triggers.mapM fun t => do
    let source ← nameIn t.fromName
    return source ++ (← nameIn t.setToName)).flatten
  let questions := Names.ofList s.questionNames
  let undefinedReferences := Names.difference used questions
  let cycle := (Feedback.cycles bindings).head?.map (·.2)
  let warnings :=
    (if undefinedReferences.isEmpty then []
      else ["Undefined references: " ++ ", ".intercalate undefinedReferences]) ++
    (if parseErrors.isEmpty then []
      else [toString parseErrors.length ++ " expression(s) failed to parse"]) ++
    (match cycle with
      | some path => ["Cycle detected: " ++ " -> ".intercalate path]
      | none => []) ++
    (if recommendedDepth < size.depth then ["High expression complexity: max depth " ++ toString size.depth] else [])
  return {
    name := if s.title.truthy then s.title else .text "Untitled survey"
    pages := s.pages.length
    questions := questions.length
    triggers := s.triggers.length
    bindings := bindings.length
    usage, undefinedReferences
    unreferencedQuestions := Names.difference questions (used ++ endpoints)
    maxDepth := size.depth
    averageDepth := average (sizes.map (·.depth))
    nodes := size.nodes
    parseErrors, cycle
    warnings := distinct (warnings ++ (← skipWarnings s s.triggers)) }

end Report

end Questionnaire
