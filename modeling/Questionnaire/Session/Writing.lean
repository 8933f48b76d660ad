import Questionnaire.Session.Firing

/-!
# Writes

A write of the host goes into the queue, and the queue is emptied: each write that changes an answer is followed
by propagation and by a check of all triggers, whose writes join the queue.  Only so many writes of triggers are
made after one write of the host; a trigger that goes on writing is switched off.  Then the listeners are called,
each once and one after the other, with the set of the keys under which something changed.
-/
namespace Questionnaire.Engine

/-- Writes a queued value and lets everything follow from it. -/
def perform (e : Engine) (w : Write) : Act Unit := do
  match w.target.key? with
  | none => throw .wrongType
  | some key =>
    if ← store key w.value then
      e.settle key.text?.toList
      e.dispatch

/-- Whether a trigger is out of use. -/
def isOff (s : Session) (index : Nat) : Bool := ((s.slot? index).map (·.disabled)).getD false

/-- Empties the queue in at most `steps` steps; `made` counts the writes of triggers. -/
def drainWithin (e : Engine) : (steps made : Nat) → Act Unit
  | 0, _ => return
  | steps + 1, made => do
    let s ← get
    match s.queue with
    | [] => return
    | w :: rest =>
      set { s with queue := rest }
      match w.origin with
      | none =>
        e.perform w
        e.drainWithin steps made
      | some index =>
        if isOff s index then e.drainWithin steps made
        else if e.settings.maxPasses ≤ made then
          e.disableLooping index
          e.drainWithin steps (made + 1)
        else
          e.perform w
          e.drainWithin steps (made + 1)

/-- The steps that empty the queue: each write takes one, and each write that is made, of which there are those
of the host and as many of triggers as the cap allows, may add one write of every trigger. -/
def drainSteps (e : Engine) (s : Session) : Nat :=
  s.queue.length + ((s.queue.countP (·.origin.isNone)) + e.settings.maxPasses) * s.slots.length

/-- Empties the queue. -/
def drain (e : Engine) : Act Unit := do e.drainWithin (e.drainSteps (← get)) 0

/-- Ends one subscription of a listener, if it has any. -/
def unsubscribe (id : String) (s : Session) : Session :=
  { s with listeners := s.listeners.eraseP (·.id == id) }

/-- What a listener does about a change: it may write in turn, by `write`, and end a subscription. -/
def react (write : (target value : Value) → Act Unit) (listener : Listener) : Act Unit := do
  match listener.writes with
  | some (target, v) => write target v
  | none => pure ()
  match listener.cancels with
  | some id => modify (unsubscribe id)
  | none => pure ()

/-- Calls a listener with the keys that are in the set. -/
def tell (write : (target value : Value) → Act Unit) (keys : List Key) (listener : Listener) : Act Unit := do
  modify fun s => { s with notified := s.notified ++ [(listener.id, keys)] }
  match listener.raises keys with
  | some fault => throw fault
  | none => if (listener.watches.map keys.contains).getD false then react write listener

/-- Calls listeners one after the other, each with what those before it left in the set. -/
def tellAll (write : (target value : Value) → Act Unit) : List Key → List Listener → Act Unit
  | _, [] => return
  | keys, listener :: rest => do
    tell write keys listener
    tellAll write (keys.filter (!listener.drops ·)) rest

/-- Writes an answer, lets everything follow from it, and tells the listeners.  A listener that writes in turn is
served at once; calls of writes can be `depth` deep. -/
def writeWithin (e : Engine) : (depth : Nat) → (target value : Value) → Act Unit
  | 0, _, _ => throw .tooDeep
  | depth + 1, target, value => do
    let before ← get
    set { before with queue := before.queue ++ [({ target, value, origin := none } : Write)] }
    e.drain
    let after ← get
    let changed := e.changes before after
    if changed.isEmpty then return
    tellAll (e.writeWithin depth) changed after.listeners

/-- Writes an answer of the host, under the key that the target is. -/
def write (e : Engine) (target value : Value) : Act Unit := e.writeWithin (e.settings.nesting + 1) target value

/-- Registers a listener. -/
def subscribe (listener : Listener) : Act Unit :=
  modify fun s => { s with listeners := s.listeners ++ [listener] }

end Questionnaire.Engine
