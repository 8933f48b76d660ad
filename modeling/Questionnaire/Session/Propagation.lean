import Questionnaire.Session.Basic

/-!
# Propagation

After a change every binding that the change can reach is applied once, writers before readers.  Should an answer
change after one of its readers was already applied, that reader is stale and another pass follows, up to the
cap of the settings; what is still reached then is switched off.

A failing expression counts as a condition that does not hold, or as an undefined value, and is reported unless
it already failed in the same way.
-/
namespace Questionnaire.Engine

/-- The value of an expression on the current answers, or the failure it is reported by. -/
def evaluate (e : Engine) (expression : Expr) : Act (Except EvalError Value) := do
  match expression.evaluate (e.context (← get)) with
  | .ok v => return .ok v
  | .error (.error failure) => return .error failure
  | .error (.fault f) => throw f

/-- Reports the failure of a part of a binding unless it already failed in the same way. -/
def reportFailure (b : Binding) (part : Part) (failure : EvalError) (s : Session) : Session :=
  let key := (b.order, part)
  if s.failing.lookup key == some failure.kind then s
  else
    { s with failing := (key, failure.kind) :: s.failing.filter (·.1 != key) }.report
      ⟨.eval failure, b.owner, b.property.key, .text b.source⟩

/-- Takes note that a part of a binding was evaluated. -/
def clearFailure (b : Binding) (part : Part) (s : Session) : Session :=
  { s with failing := s.failing.filter (·.1 != (b.order, part)) }

/-- The value of a part of a binding; undefined if it fails. -/
def partValue (e : Engine) (b : Binding) (part : Part) (expression : Expr) : Act Value := do
  match ← e.evaluate expression with
  | .ok v =>
    modify (clearFailure b part)
    return v
  | .error failure =>
    modify (reportFailure b part failure)
    return .undefined

/-- Whether a part of a binding holds; it does not if it fails. -/
def partHolds (e : Engine) (b : Binding) (part : Part) (expression : Expr) : Act Bool := do
  return (← e.partValue b part expression).truthy

/-- Writes an answer and says whether that changed anything. -/
def store (key : Key) (value : Value) : Act Bool := do
  let s ← get
  match Fields.store? s.answers key value with
  | none => return false
  | some answers =>
    set { s with answers }
    return true

/-- The value that a reset goes back to: the computed default, or the literal one if that is undefined. -/
def defaultOf (e : Engine) (name : String) : Act Value := do
  let literal := ((e.questions.find? name).map (·.properties .defaultValue)).getD .undefined
  match e.defaults.find? name with
  | none => return literal
  | some b =>
    if (← get).disabled.contains b.order then return literal
    else
      let v ← e.partValue b .expression b.expression
      return if v.isDefined then v else literal

/-- Sets a flag of the owner of a binding. -/
def setFlag (b : Binding) (flag : Flags → Flags) : Act Unit :=
  modify fun s => { s with flags := s.flags.modify b.owner flag }

/-- Applies a binding to the current answers and says whether it changed its owner's answer. -/
def apply (e : Engine) (b : Binding) : Act Bool := do
  match b.kind with
  | .visibleIf =>
    let holds ← e.partHolds b .expression b.expression
    setFlag b ({ · with visible := holds })
    return false
  | .enableIf =>
    let holds ← e.partHolds b .expression b.expression
    setFlag b ({ · with enabled := holds })
    return false
  | .requiredIf =>
    let holds ← e.partHolds b .expression b.expression
    setFlag b ({ · with conditionally := holds })
    return false
  | .setValueExpression =>
    let opened ← match b.gate with
      | some gate => e.partHolds b .gate gate
      | none => pure true
    if opened then store (.text b.owner) (← e.partValue b .expression b.expression) else return false
  | .setValueIf =>
    if ← e.partHolds b .expression b.expression then store (.text b.owner) b.literal else return false
  | .defaultValueExpression =>
    if ((← get).value b.owner).isDefined then return false
    else store (.text b.owner) (← e.partValue b .expression b.expression)
  | .resetValueIf =>
    let holds ← e.partHolds b .expression b.expression
    if holds && ((← get).value b.owner).isDefined then store (.text b.owner) (← e.defaultOf b.owner)
    else return false

/-- Applies bindings in order.  `ran` are the numbers of those already applied in this pass; the answer is the
set of questions that changed after one of their readers was applied. -/
def sweep (e : Engine) (ran : List Nat) (stale : List String) : List Binding → Act (List String)
  | [] => return stale
  | b :: rest => do
    if (← get).disabled.contains b.order then e.sweep ran stale rest
    else
      let ran := b.order :: ran
      let changed ← e.apply b
      let late := changed && (e.dependencies.readers b.owner).any (ran.contains ·.order)
      e.sweep ran (if late then Names.insert b.owner stale else stale) rest

/-- Switches off a binding that is still reached after all passes. -/
def disableUnstable (e : Engine) (b : Binding) : Act Unit :=
  modify fun s =>
    { s with disabled := b.order :: s.disabled }.report
      ⟨.config ⟨.unstable b.label e.settings.maxPasses, b.owner⟩, b.owner, b.property.key, .text b.source⟩

/-- Applies what a change of some answers can reach, again and again while there are stale readers, in at most
`passes` passes. -/
def settleWithin (e : Engine) (passes : Nat) (pending : List String) : Act Unit := do
  if pending.isEmpty then return
  let reached := e.dependencies.propagation pending (← get).disabled
  if reached.isEmpty then return
  match passes with
  | 0 => reached.forM e.disableUnstable
  | passes + 1 => e.settleWithin passes (← e.sweep [] [] reached)

/-- Applies what a change of some answers can reach. -/
def settle (e : Engine) (changed : List String) : Act Unit := e.settleWithin e.settings.maxPasses changed

end Questionnaire.Engine
