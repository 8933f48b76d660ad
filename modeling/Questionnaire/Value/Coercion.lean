import Questionnaire.Json.Printer

/-!
# Coercions

Values as numbers and as texts.  A boolean counts as one or zero, a text as the number it writes; as a text,
nothing is empty, an integer and a double without a fraction look the same, a sequence is its items joined by
commas, and a structured value is its JSON text.
-/
namespace Questionnaire.Value

/-- A value as a number. -/
def toNumber (v : Value) : Except Stop Number :=
  let refused : Except Stop Number := do
    throw (.error (.notANumber v.kind.name (← liftFault v.shown)))
  match v with
  | boolean b => .ok (.int (if b then 1 else 0))
  | number n => .ok n
  | text s => match Number.ofText? s with
    | some n => .ok n
    | none => refused
  | _ => refused

mutual

/-- A value as a text. -/
def toText : Value → Except Fault String
  | undefined => .ok ""
  | boolean b => .ok (if b then "true" else "false")
  | number n => .ok n.text
  | text s => .ok s
  | sequence items => do return ", ".intercalate (← toTexts items)
  | structured fields => Json.print (structured fields)

def toTexts : List Value → Except Fault (List String)
  | [] => .ok []
  | v :: rest => do
    let first ← toText v
    return first :: (← toTexts rest)

end

/-- A number with a double without a fraction as an integer; other values stay. -/
def normalize : Value → Value
  | number n => number n.normalize
  | v => v

end Questionnaire.Value
