import Questionnaire.Logic.Diagnostic
import Questionnaire.Survey.Basic

/-!
# Bindings

A binding is one logic property of a question or page in parsed form.  The properties of a survey that hold
logic are first listed as rules, page by page, each page before its questions; compiling a rule then gives a
binding, or the diagnostics of the texts in it that are no expressions.  Bindings are numbered in that order.
-/
namespace Questionnaire

/-- What a binding does to its owner: three kinds derive flags, four write the answer. -/
inductive BindingKind where
  | visibleIf
  | enableIf
  | requiredIf
  | setValueIf
  | setValueExpression
  | defaultValueExpression
  | resetValueIf
  deriving DecidableEq, Repr

namespace BindingKind

def name : BindingKind → String
  | visibleIf => "visibleIf"
  | enableIf => "enableIf"
  | requiredIf => "requiredIf"
  | setValueIf => "setValueIf"
  | setValueExpression => "setValueExpression"
  | defaultValueExpression => "defaultValueExpression"
  | resetValueIf => "resetValueIf"

def writesValue : BindingKind → Bool
  | visibleIf | enableIf | requiredIf => false
  | _ => true

end BindingKind

inductive OwnerKind where
  | question
  | page
  deriving DecidableEq, Repr

def OwnerKind.name : OwnerKind → String
  | question => "question"
  | page => "page"

/-- An authored logic property: the text of its expression, and of the condition under which a value is set. -/
structure Rule where
  kind : BindingKind
  owner : String
  ownerKind : OwnerKind
  property : Property
  source : Value
  gate : Value
  literal : Value

/-- A logic property in parsed form.  `expression` is the condition of a flag or of a value that is set or reset,
and otherwise the value itself; `gate` is the condition under which that value is set. -/
structure Binding where
  kind : BindingKind
  owner : String
  ownerKind : OwnerKind
  property : Property
  expression : Expr
  source : String
  order : Nat
  gate : Option Expr
  literal : Value
  references : List String

namespace Binding

def writesValue (b : Binding) : Bool := b.kind.writesValue

/-- Whether a binding reads a question. -/
def reads (b : Binding) (name : String) : Bool := b.references.contains name

/-- The owner and the property of a binding. -/
def label (b : Binding) : String := b.owner ++ "." ++ b.property.key

end Binding

namespace Rule

/-- The expression that a property writes.  A text that is no expression is reported; what is no text is a
fault. -/
def parse (owner : String) (property : Property) (source : Value) :
    Except Fault (Option Expr × List Diagnostic) :=
  match source with
  | .text s =>
    match Expr.ofText s with
    | .ok e => .ok (some e, [])
    | .error e => .ok (none, [⟨.source e, owner, property.key, source⟩])
  | _ => .error .wrongType

/-- The binding of a rule, not yet numbered, and its diagnostics. -/
def compile (r : Rule) : Except Fault (Option Binding × List Diagnostic) := do
  let (expression, problems) ← parse r.owner r.property r.source
  let (gate, gateProblems) ←
    if r.gate.truthy then parse r.owner .setValueIf r.gate else pure (none, [])
  let binding := do
    let e ← expression
    if r.gate.truthy && gate.isNone then none
    else some {
      kind := r.kind
      owner := r.owner
      ownerKind := r.ownerKind
      property := r.property
      expression := e
      source := match r.source with | .text s => s | _ => ""
      order := 0
      gate
      literal := r.literal
      references := Names.union e.references ((gate.map Expr.references).getD []) : Binding }
  return (binding, problems ++ gateProblems)

/-- The rule of a property that holds a single expression, if it is given. -/
def plain (owner : String) (ownerKind : OwnerKind) (properties : Properties) (kind : BindingKind)
    (property : Property) : List Rule :=
  let source := properties property
  if source.truthy then [⟨kind, owner, ownerKind, property, source, .undefined, .undefined⟩] else []

/-- The rules of a page. -/
def ofPage (p : Page) : List Rule :=
  plain p.name .page p.properties .visibleIf .visibleIf ++
  plain p.name .page p.properties .enableIf .enableIf ++
  plain p.name .page p.properties .requiredIf .requiredIf

/-- The rule by which a question's value is set: an expression with an optional condition, or a literal with a
condition. -/
def setting (q : Question) : List Rule :=
  let gate := q.properties .setValueIf
  let source := q.properties .setValueExpression
  if source.truthy then
    [⟨.setValueExpression, q.name, .question, .setValueExpression, source, gate, .undefined⟩]
  else if gate.truthy then
    [⟨.setValueIf, q.name, .question, .setValueIf, gate, .undefined, q.properties .setValue⟩]
  else []

/-- Whether a question shows a computed value. -/
def isComputed (q : Question) : Bool :=
  match q.kind with
  | .text kind => kind == "expression"
  | _ => false

/-- The rules of a question. -/
def ofQuestion (q : Question) : List Rule :=
  let plain := plain q.name .question q.properties
  plain .visibleIf .visibleIf ++ plain .enableIf .enableIf ++ plain .requiredIf .requiredIf ++
  plain .defaultValueExpression .defaultValueExpression ++ plain .resetValueIf .resetValueIf ++
  (if isComputed q then plain .setValueExpression .expression else []) ++
  setting q

/-- The rules of a survey in definition order. -/
def ofSurvey (s : Survey) : List Rule :=
  s.pages.flatMap fun p => ofPage p ++ p.questions.flatMap ofQuestion

/-- Numbers bindings in order. -/
def number (bindings : List Binding) : List Binding := bindings.mapIdx fun i b => { b with order := i }

end Rule

namespace Survey

/-- The bindings of a survey, and the diagnostics of the rules that give none. -/
def bindings (s : Survey) : Except Fault (List Binding × List Diagnostic) := do
  let compiled ← (Rule.ofSurvey s).mapM Rule.compile
  return (Rule.number (compiled.filterMap (·.1)), compiled.flatMap (·.2))

end Survey

end Questionnaire
