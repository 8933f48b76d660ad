import Questionnaire.Session.Navigation
import Questionnaire.Session.Propagation

/-!
# Triggers

A trigger acts once when its condition turns true, and is armed again when the condition turns false.  Actions
that write an answer put the write into the queue of the session.
-/
namespace Questionnaire.Engine

/-- Whether the condition of a trigger holds on the current answers; a failing one does not, and is reported. -/
def conditionHolds (e : Engine) (slot : Slot) : Act Bool := do
  match slot.condition with
  | none => return false
  | some condition =>
    match ← e.evaluate condition with
    | .ok v => return v.truthy
    | .error failure =>
      modify (·.report ⟨.eval failure, slot.label, "expression", .text slot.trigger.condition⟩)
      return false

/-- Records an action. -/
def record (slot : Slot) (target value : Value) : Act Unit :=
  modify fun s => { s with history := s.history ++ [⟨slot.trigger.kind, target, value⟩] }

/-- Records that a trigger writes a value, and queues the write if it has a target. -/
def queueWrite (slot : Slot) (value : Value) : Act Unit := do
  let target := slot.trigger.setToName
  record slot target value
  if target.truthy then
    modify fun s => { s with queue := s.queue ++ [⟨target, value, some slot.index⟩] }

/-- The current answer that a trigger copies. -/
def copiedValue (source : Value) : Act Value := do
  match (← get).answerAt source with
  | .ok v => return v
  | .error f => throw f

/-- Does what a trigger is for. -/
def execute (e : Engine) (slot : Slot) : Act Unit := do
  let t := slot.trigger
  match t.kind with
  | .complete =>
    record slot .undefined .undefined
    modify fun s => { s with navigator := s.navigator.map (complete (some slot.name)) }
  | .skip =>
    record slot t.gotoName .undefined
    modify fun s => { s with navigator := s.navigator.map (e.skip t.gotoName) }
  | .setValue => queueWrite slot t.setValue
  | .copyValue => queueWrite slot (← copiedValue t.fromName)
  | .runExpression =>
    match slot.run with
    | none => return
    | some expression =>
      match ← e.evaluate expression with
      | .ok v => queueWrite slot v
      | .error failure =>
        modify (·.report ⟨.eval failure, slot.label, "runExpression", t.runExpression⟩)

/-- Checks one trigger against the current answers and lets it act when its condition turned true. -/
def check (e : Engine) (index : Nat) : Act Unit := do
  match (← get).slot? index with
  | none => return
  | some slot =>
    if slot.disabled then return
    let holds ← e.conditionHolds slot
    if holds && !slot.fired then
      modify (Session.modifySlot index fun slot => { slot with fired := true, fireCount := slot.fireCount + 1 })
      e.execute slot
    else if !holds && slot.fired then
      modify (Session.modifySlot index fun slot => { slot with fired := false })

/-- Checks all triggers in order. -/
def dispatch (e : Engine) : Act Unit := do
  (List.range (← get).slots.length).forM e.check

/-- Takes note of which conditions hold, without acting. -/
def prime (e : Engine) : Act Unit := do
  (List.range (← get).slots.length).forM fun index => do
    match (← get).slot? index with
    | none => return
    | some slot =>
      if slot.disabled then return
      let holds ← e.conditionHolds slot
      modify (Session.modifySlot index fun slot => { slot with fired := holds })

/-- Switches a trigger off for writing too often, and drops the writes of it that still wait. -/
def disableLooping (e : Engine) (index : Nat) : Act Unit :=
  modify fun s =>
    let s := match s.slot? index with
      | none => s
      | some slot =>
        if slot.disabled then s
        else (s.modifySlot index fun slot => { slot with disabled := true }).report
          ⟨.config ⟨.triggerLoop slot.label e.settings.maxPasses, slot.label⟩, slot.label, "expression",
            .text slot.trigger.condition⟩
    { s with queue := s.queue.filter (·.origin != some index) }

end Questionnaire.Engine
