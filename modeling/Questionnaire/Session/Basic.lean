import Questionnaire.Expr.Evaluation
import Questionnaire.Logic.Dependency
import Questionnaire.Session.Settings

/-!
# Sessions

A session holds the answers of one respondent and everything that follows from them.  What never changes during
a session, the definition and what is compiled from it, is its engine; all else is the session's state.  Actions
on a session may end by a fault, and then keep what was done before it.

A page or question has flags of its own, set by its bindings.  Its effective flags, those that count, are also
drawn from the panels and the page that contain it.

The answers are found under keys.  Questions and references have texts for names, so an answer that a trigger
writes under another key is there, but is read by no expression.
-/
namespace Questionnaire

/-- The flags of one question or page on its own. -/
structure Flags where
  visible : Bool := true
  enabled : Bool := true
  always : Bool := false
  conditionally : Bool := false
  deriving DecidableEq, Repr

/-- An answer is required always or under the present conditions. -/
def Flags.required (f : Flags) : Bool := f.always || f.conditionally

/-- What never changes during a session. -/
structure Engine where
  survey : Survey
  settings : Settings
  dependencies : Dependencies
  questions : Table String Question
  pages : Table String Page
  /-- For each question the panels that contain it, innermost first, and its page. -/
  ancestors : Table String (List String)
  /-- The binding that computes the default value of a question. -/
  defaults : Table String Binding

/-- The two expressions of a binding. -/
inductive Part where
  | expression
  | gate
  deriving DecidableEq, Repr

/-- A trigger in a session.  It is armed until its condition turns true and fired until it turns false; a
disabled trigger is out of use. -/
structure Slot where
  trigger : Trigger
  name : String
  index : Nat
  condition : Option Expr
  run : Option Expr
  fired : Bool := false
  disabled : Bool := false
  fireCount : Nat := 0

/-- The name of a trigger in diagnostics: its place in the list and what it leads to. -/
def Slot.label (s : Slot) : String := "trigger[" ++ toString s.index ++ "]:" ++ s.name

/-- An executed trigger action. -/
structure Event where
  action : TriggerKind
  target : Value
  value : Value

/-- A write that waits for its turn, with the trigger it comes from; the host's writes come from none.  The target
that a trigger names is looked at only when the turn comes. -/
structure Write where
  target : Value
  value : Value
  origin : Option Nat

/-- The place of a respondent among the pages. -/
structure Navigator where
  index : Nat := 0
  completed : Bool := false
  /-- The trigger that completed the survey. -/
  completedBy : Option String := none

/-- A subscriber to changes.  It is handed the changed keys in a set that it shares with those called after it, and may
raise an error on them.  When the key it watches is among them it may write an answer and end the subscription of a
listener.  It may also take keys out of the set. -/
structure Listener where
  id : String
  raises : List Key → Option Fault := fun _ => none
  watches : Option Key := none
  writes : Option (Value × Value) := none
  cancels : Option String := none
  drops : Key → Bool := fun _ => false

structure Session where
  answers : Fields
  flags : Table String Flags
  diagnostics : List Diagnostic := []
  /-- The evaluations that fail at present, so that each failure is reported once. -/
  failing : List ((Nat × Part) × EvalKind) := []
  /-- The numbers of the bindings that are out of use. -/
  disabled : List Nat := []
  slots : List Slot := []
  history : List Event := []
  queue : List Write := []
  listeners : List Listener := []
  navigator : Option Navigator := none
  /-- The notifications so far: who was called with which keys, in their order. -/
  notified : List (String × List Key) := []

/-- An action on a session. -/
abbrev Act := EStateM Fault Session

namespace Session

/-- The answer to the question of a name. -/
def value (s : Session) (name : String) : Value := Fields.get s.answers name

/-- The answer under the key that a value is; a fault if it is none. -/
def answerAt (s : Session) (target : Value) : Except Fault Value :=
  match target.key? with
  | some key => .ok (Fields.lookUp s.answers key)
  | none => .error .wrongType

/-- Adds a diagnostic. -/
def report (d : Diagnostic) (s : Session) : Session := { s with diagnostics := s.diagnostics ++ [d] }

def slot? (s : Session) (index : Nat) : Option Slot := s.slots[index]?

/-- Changes one trigger. -/
def modifySlot (index : Nat) (f : Slot → Slot) (s : Session) : Session :=
  { s with slots := s.slots.modify index f }

end Session

/-- Writes an answer; an undefined value removes it.  None when nothing changes. -/
def Fields.store? (answers : Fields) (key : Key) (value : Value) : Option Fields :=
  let current := answers.lookUp key
  if !value.isDefined then (if current.isDefined then some (Table.erase key answers) else none)
  else if current.unchanged value then none
  else some (Table.set key value answers)

namespace Engine

/-- What expressions are evaluated against. -/
def context (e : Engine) (s : Session) : Context := ⟨s.answers, e.settings.today, e.settings.functions⟩

/-- The flags of a name and of all that contains it. -/
def flagsAround (e : Engine) (s : Session) (name : String) : List Flags :=
  match s.flags.find? name with
  | none => []
  | some own => own :: ((e.ancestors.find? name).getD []).filterMap s.flags.find?

/-- Visible is what is visible itself and contained in visible things only.  A name that the survey does not know
is visible. -/
def isVisible (e : Engine) (s : Session) (name : String) : Bool := (e.flagsAround s name).all (·.visible)

def isEnabled (e : Engine) (s : Session) (name : String) : Bool := (e.flagsAround s name).all (·.enabled)

/-- A page is required by its own flag; a question only while it is visible. -/
def isRequired (e : Engine) (s : Session) (name : String) : Bool :=
  match s.flags.find? name with
  | none => false
  | some own => own.required && ((e.pages.find? name).isSome || e.isVisible s name)

/-- Whether any question of a page has an answer. -/
def isSatisfied (e : Engine) (s : Session) (page : String) : Bool :=
  match e.pages.find? page with
  | none => false
  | some p => p.questions.any fun q => !(s.value q.name).isEmpty

/-- Whether a key is the name of a question or page. -/
def isKnown (s : Session) : Key → Bool
  | .text name => (s.flags.find? name).isSome
  | _ => false

/-- The effective flags under a key: visible, enabled, required.  What the survey does not know is visible and
enabled, and not required. -/
def flagsSeen (e : Engine) (s : Session) : Key → Bool × Bool × Bool
  | .text name => (e.isVisible s name, e.isEnabled s name, e.isRequired s name)
  | _ => (true, true, false)

/-- What is seen under a key: the answer and the effective flags.  Nothing is seen under a key that the survey does
not know and that has no answer. -/
def seen (e : Engine) (s : Session) (key : Key) : Option (Value × Bool × Bool × Bool) :=
  if isKnown s key || (Table.find? s.answers key).isSome then some (Fields.lookUp s.answers key, e.flagsSeen s key)
  else none

/-- Whether the same is seen as before. -/
def sameSeen : Option (Value × Bool × Bool × Bool) → Option (Value × Bool × Bool × Bool) → Bool
  | none, none => true
  | some (v, flags), some (w, others) => v.unchanged w && flags == others
  | _, _ => false

/-- The keys under which something else is seen than before, each once. -/
def changes (e : Engine) (before after : Session) : List Key :=
  let keys := (before.flags.keys.map Key.text ++ before.answers.keys ++ after.answers.keys).eraseDups
  keys.filter fun key => !sameSeen (e.seen before key) (e.seen after key)

end Engine

end Questionnaire
