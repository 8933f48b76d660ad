import Questionnaire.Value.Shown

/-!
# Values as JSON text

The fields of an object are written in the order of their keys, items and fields are separated by a comma and a
blank, and the text is ASCII.  Infinities and what is no number are written as words.  An object whose keys have
no common order has no text.
-/
namespace Questionnaire.Json

/-- The JSON text of a double. -/
def doubleText : Double → String
  | .nan => "NaN"
  | .infinity negative => if negative then "-Infinity" else "Infinity"
  | d => d.text

/-- The text of a key, before it is put in quotes. -/
def keyText : Key → Except Fault String
  | .undefined => .ok "null"
  | .boolean b => .ok (if b then "true" else "false")
  | .number (.int n) => exactText n
  | .number (.float d) => .ok (doubleText d)
  | .text s => .ok s

mutual

/-- The JSON text of a value. -/
def print : Value → Except Fault String
  | .undefined => keyText .undefined
  | .boolean b => keyText (.boolean b)
  | .number n => keyText (.number n)
  | .text s => .ok (Text.document s)
  | .sequence items => do return "[" ++ ", ".intercalate (← printItems items) ++ "]"
  | .structured fields =>
    match (printFields fields).inOrder? with
    | none => .error .wrongType
    | some entries => do
      let written ← entries.mapM fun (key, text) => do
        return Text.document (← keyText key) ++ ": " ++ (← text)
      return "\x7b" ++ ", ".intercalate written ++ "\x7d"

def printItems : List Value → Except Fault (List String)
  | [] => .ok []
  | v :: rest => do
    let first ← print v
    return first :: (← printItems rest)

/-- The text of every field's value, under the key of the field. -/
def printFields : List (Key × Value) → Table Key (Except Fault String)
  | [] => []
  | (key, v) :: rest => (key, print v) :: printFields rest

end

end Questionnaire.Json
