import Questionnaire.Calendar
import Questionnaire.Function.Library

/-!
# Settings

What a session may be given besides its survey: how often a change may go round, today's date, the functions
that expressions may call, and how deep calls may be nested.
-/
namespace Questionnaire

structure Settings where
  /-- The cap on the passes after one change, and on the writes of triggers after one write of the host. -/
  maxPasses : Nat
  today : Date
  functions : Library
  /-- How deep a listener may write while it is told of a write: a limit that the host sets on nested calls. -/
  nesting : Nat := 200
  positive : 0 < maxPasses := by decide

/-- Why settings cannot be used. -/
inductive SettingsError where
  | tooFewPasses (n : Int)
  | fault (f : Fault)
  deriving DecidableEq, Repr

/-- The message of an error in the settings themselves; a fault has none. -/
def SettingsError.message? : SettingsError → Option String
  | .tooFewPasses n => some ("max_passes must be at least 1, got " ++ toString n)
  | .fault _ => none

namespace Settings

def defaultPasses : Nat := 10

/-- Whether a text of ASCII characters alone holds an information separator.  These count as blanks around a number
only beside characters of other scripts. -/
def isSeparated (cs : List Char) : Bool :=
  cs.all (·.toNat < 0x80) && cs.any fun c => 0x1C ≤ c.toNat && c.toNat ≤ 0x1F

/-- A value as a whole number: what is after the point is cut off, and a text has to write a whole number. -/
def wholeNumber : Value → Except Fault Int
  | .boolean b => .ok (if b then 1 else 0)
  | .number n => n.truncate
  | .text s =>
    if isSeparated s.toList then .error .badValue
    else match Numeral.integer? (Text.strip s.toList) with
      | some n => .ok n
      | none => .error .badValue
  | _ => .error .wrongType

/-- The settings that a survey's metadata ask for, with another cap in place of theirs if one is given. -/
def ofMetadata (metadata : Fields) (passes : Option Int) (today : Date) (functions : Library) :
    Except SettingsError Settings := do
  let asked := Fields.get metadata "maxPasses"
  let authored ←
    if asked.isDefined then
      match wholeNumber asked with
      | .ok n => pure n
      | .error f => throw (.fault f)
    else pure (defaultPasses : Int)
  let n := passes.getD authored
  if h : 0 < n.toNat then return { maxPasses := n.toNat, today, functions, positive := h }
  else throw (.tooFewPasses n)

end Settings

end Questionnaire
