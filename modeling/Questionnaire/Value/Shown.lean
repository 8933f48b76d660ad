import Questionnaire.Value.Basic
import Questionnaire.Number.Logarithm
import Questionnaire.Text.Quoted

/-!
# Values as messages show them

Texts are quoted, sequences stand in brackets, and the kind of every number can be told.  An integer of too many
digits has no such form, and neither has a value that holds one.
-/
namespace Questionnaire

/-- The exact text of an integer, a fault when it has too many digits. -/
def exactText (n : Int) : Except Fault String :=
  match integerText? n with
  | some s => .ok s
  | none => .error .badValue

/-- A key as a message shows it. -/
def Key.shown : Key → Except Fault String
  | undefined => .ok "None"
  | boolean b => .ok (if b then "True" else "False")
  | number (.int n) => exactText n
  | number (.float d) => .ok d.text
  | text s => .ok (Text.shown s)

namespace Value

mutual

/-- A value as a message shows it. -/
def shown : Value → Except Fault String
  | undefined => Key.shown .undefined
  | boolean b => Key.shown (.boolean b)
  | number n => Key.shown (.number n)
  | text s => Key.shown (.text s)
  | sequence items => do return "[" ++ ", ".intercalate (← shownItems items) ++ "]"
  | structured fields => do return "\x7b" ++ ", ".intercalate (← shownFields fields) ++ "\x7d"

def shownItems : List Value → Except Fault (List String)
  | [] => .ok []
  | v :: rest => do
    let first ← shown v
    return first :: (← shownItems rest)

def shownFields : List (Key × Value) → Except Fault (List String)
  | [] => .ok []
  | (key, v) :: rest => do
    let name ← key.shown
    let first ← shown v
    return (name ++ ": " ++ first) :: (← shownFields rest)

end

/-- A value where a name is expected: a text stands for itself, all else is shown. -/
def nameText : Value → Except Fault String
  | text s => .ok s
  | v => v.shown

end Value

end Questionnaire
