import Questionnaire.Value.Coercion
import Questionnaire.Text.Blank
import Questionnaire.Text.LowerCase

/-!
# Equality and order of values

Three relations.  `alike` compares data: items in order, fields by key, a boolean as the number it stands for.
`equal` is the language's own equality, under which two sequences are equal when each item of one is found in
the other, and a number equals a text that writes it.  `unchanged` decides whether a stored answer is replaced.
-/
namespace Questionnaire

/-- Equality of numbers inside data, where what is no number is the same as itself. -/
def Number.alike (a b : Number) : Bool := a.eq b || (a.isNan && b.isNan)

namespace Value

mutual

/-- Whether two values are the same data. -/
def alike : Value → Value → Bool
  | undefined, undefined => true
  | boolean a, v => match v.numeric? with
    | some n => Number.alike (.int (if a then 1 else 0)) n
    | none => false
  | number a, v => match v.numeric? with
    | some n => a.alike n
    | none => false
  | text s, text t => s == t
  | sequence xs, sequence ys => alikeItems xs ys
  | structured fs, structured gs => fs.length == gs.length && alikeFields fs gs
  | _, _ => false

def alikeItems : List Value → List Value → Bool
  | [], [] => true
  | x :: xs, y :: ys => alike x y && alikeItems xs ys
  | _, _ => false

/-- Whether every field is found with the same data among the fields `gs`. -/
def alikeFields : List (Key × Value) → List (Key × Value) → Bool
  | [], _ => true
  | (key, v) :: rest, gs =>
    (match Table.find? gs key with
      | some w => alike v w
      | none => false) && alikeFields rest gs

end

/-- Whether a boolean equals another value: as a boolean, as one or zero, or by its name in any case. -/
def booleanEquals (flag : Bool) : Value → Bool
  | boolean b => b == flag
  | text s =>
    Text.lower (String.ofList (Text.strip s.toList)) == (if flag then "true" else "false")
  | number n => n.eq (.int (if flag then 1 else 0))
  | _ => false

mutual

/-- The equality of the expression language. -/
def equal (left right : Value) : Except Fault Bool :=
  match left, right with
  | undefined, v => .ok (!v.isDefined)
  | v, undefined => .ok (!v.isDefined)
  | sequence xs, sequence ys => do
    if ← eachFound xs ys then eachFound ys xs else return false
  | structured fs, v => .ok ((structured fs).alike v)
  | v, structured gs => .ok (v.alike (structured gs))
  | boolean a, v => .ok (booleanEquals a v)
  | v, boolean b => .ok (booleanEquals b v)
  | v, w => match numericPair? v w with
    | some (a, b) => .ok (a.eq b)
    | none => do
      let first ← v.toText
      return first == (← w.toText)
termination_by sizeOf left + sizeOf right

/-- Whether each of `xs` equals one of `ys`. -/
def eachFound (xs ys : List Value) : Except Fault Bool :=
  match xs with
  | [] => .ok true
  | x :: rest => do
    if ← found x ys then eachFound rest ys else return false
termination_by sizeOf xs + sizeOf ys

/-- Whether `x` equals one of `ys`. -/
def found (x : Value) (ys : List Value) : Except Fault Bool :=
  match ys with
  | [] => .ok false
  | y :: rest => do
    if ← equal x y then return true else found x rest
termination_by sizeOf x + sizeOf ys

end

/-- Whether a stored answer and its replacement are the same: of one kind, with integers and doubles told
apart, and the same data.  What is no number is never the same. -/
def unchanged : Value → Value → Bool
  | undefined, undefined => true
  | boolean a, boolean b => a == b
  | number (.int a), number (.int b) => a == b
  | number (.float a), number (.float b) => (Number.float a).eq (.float b)
  | text s, text t => s == t
  | sequence xs, sequence ys => alikeItems xs ys
  | structured fs, structured gs => (structured fs).alike (structured gs)
  | _, _ => false

end Value

/-- The relations that order values. -/
inductive Relation where
  | less
  | lessEqual
  | greater
  | greaterEqual
  deriving DecidableEq, Repr

namespace Relation

def onNumbers : Relation → Number → Number → Bool
  | less, a, b => a.lt b
  | lessEqual, a, b => a.le b
  | greater, a, b => b.lt a
  | greaterEqual, a, b => b.le a

/-- Texts are ordered by their characters. -/
def onTexts : Relation → String → String → Bool
  | less, s, t => s < t
  | lessEqual, s, t => !(t < s)
  | greater, s, t => t < s
  | greaterEqual, s, t => !(s < t)

/-- Whether two values stand in a relation: as numbers if they are compared as numbers, else as texts.  An
undefined value stands in none. -/
def holds (r : Relation) (left right : Value) : Except Fault Bool :=
  if !left.isDefined || !right.isDefined then .ok false
  else match Value.numericPair? left right with
    | some (a, b) => .ok (r.onNumbers a b)
    | none => do
      let first ← left.toText
      return r.onTexts first (← right.toText)

end Relation

end Questionnaire
