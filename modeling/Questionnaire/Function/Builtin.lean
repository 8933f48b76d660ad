import Questionnaire.Calendar
import Questionnaire.Number.Power
import Questionnaire.Value.Equality

/-!
# Built-in functions

What each function of the language computes from the values of its arguments.  The aggregates look through
sequences of any depth and take the numbers they find, those written as text included; what is no number does
not count.
-/
namespace Questionnaire

inductive Builtin where
  | iif
  | today
  | age
  | sum
  | avg
  | min
  | max
  | round
  | contains
  | notContains
  | startsWith
  | endsWith
  deriving DecidableEq, Repr

namespace Aggregate

mutual

/-- The values that a value holds at any depth of sequences. -/
def leavesOf : Value → List Value
  | .sequence items => leaves items
  | v => [v]

def leaves : List Value → List Value
  | [] => []
  | v :: rest => leavesOf v ++ leaves rest

end

/-- The number that a leaf counts as. -/
def number? : Value → Option Number
  | .number n => some n
  | .text s => Number.ofText? s
  | _ => none

/-- The numbers among some arguments, in order. -/
def numbers (arguments : List Value) : List Number := (leaves arguments).filterMap number?

def total (arguments : List Value) : Except Fault Number := do
  return (← (numbers arguments).foldlM Number.add (.int 0)).normalize

/-- The total shared among all leaves, those that are no numbers included. -/
def mean (arguments : List Value) : Except Fault Number :=
  match (leaves arguments).length with
  | 0 => .ok (.int 0)
  | count => do return (← (← total arguments).div (.int count)).normalize

/-- The first number that no later one improves on. -/
def best (better : Number → Number → Bool) (arguments : List Value) : Value :=
  match numbers arguments with
  | [] => .undefined
  | first :: rest =>
    .number (rest.foldl (fun champion n => if better n champion then n else champion) first).normalize

def least : List Value → Value := best Number.lt

def greatest : List Value → Value := best fun a b => b.lt a

end Aggregate

namespace Rounding

/-- Beyond this many places a double has no digits left to round. -/
def mostPlaces : Nat := 308

/-- Ten to a power of places: an integer, or a double when the power is negative. -/
def scale (places : Int) : Except Fault Number :=
  match places with
  | .ofNat n => .ok (.int (Nat.pow 10 n))
  | .negSucc n =>
    match Number.pow (.int 10) (.int (.negSucc n)) with
    | .ok s => .ok s
    | .error _ => .error .overflow

/-- A number rounded to a scale: scaled up, a half added to its magnitude, cut to a whole number, and scaled down
again, each step rounded to a double. -/
def toScale (n scale : Number) : Except Fault Number := do
  let scaled := (← n.toDouble).mul (← scale.toDouble)
  match (scaled.abs.add Double.half).floorMagnitude? with
  | none => throw .overflow
  | some size =>
    let negative := !(Number.int 0).le (.float scaled)
    return (← (Number.int (if negative then -(size : Int) else size)).div scale).normalize

/-- A value rounded to a number of places, a half going away from zero. -/
def round (v digits : Value) : Except Stop Value := do
  if !v.isDefined then return .undefined
  let places ← liftFault (← digits.toNumber).truncate
  if mostPlaces < places.natAbs then throw (.error .roundDigits)
  match v.toNumber with
  | .error (.error e) => throw (.error e)
  | .error (.fault _) => throw (.error (.callRange "round"))
  | .ok n =>
    match scale places >>= toScale n with
    | .ok r => return .number r
    | .error _ => throw (.error (.callRange "round"))

end Rounding

namespace Search

/-- Whether a list of characters occurs in another. -/
def occurs (part : List Char) : List Char → Bool
  | [] => part.isEmpty
  | c :: rest => part.isPrefixOf (c :: rest) || occurs part rest

/-- Whether a sequence has an equal item, or a text has the other one as a part of it. -/
def contains (haystack needle : Value) : Except Fault Bool :=
  match haystack with
  | .undefined => .ok false
  | .sequence items => foundIn items
  | v => do
    let part ← needle.toText
    return occurs part.toList (← v.toText).toList
where
  foundIn : List Value → Except Fault Bool
    | [] => .ok false
    | item :: rest => do
      if ← item.equal needle then return true else foundIn rest

/-- Whether a test on two texts holds of two values; of an undefined text none does. -/
def onTexts (test : List Char → List Char → Bool) (text other : Value) : Except Fault Bool :=
  if !text.isDefined then .ok false
  else do
    let whole ← text.toText
    return test (← other.toText).toList whole.toList

end Search

/-- The date that a value writes; an undefined or empty one writes none. -/
def dateOf (v : Value) : Except Stop (Option Date) :=
  let refused : Except Stop (Option Date) := do throw (.error (.notADate (← liftFault v.shown)))
  match v with
  | .undefined => .ok none
  | .text s =>
    if s.isEmpty then .ok none
    else match Date.ofText? s with
      | some d => .ok (some d)
      | none => refused
  | _ => refused

/-- The full years since a date. -/
def ageOn (today : Date) (v : Value) : Except Stop Value := do
  match ← dateOf v with
  | none => return .undefined
  | some born => return .int (born.yearsTo today)

namespace Builtin

/-- Whether a function looks at its arguments one by one, and not at all of them first. -/
def isLazy : Builtin → Bool
  | iif => true
  | _ => false

/-- The name and the argument counts under which a function is known. -/
def signature : Builtin → String × Int × Option Int
  | iif => ("iif", 3, some 3)
  | today => ("today", 0, some 0)
  | age => ("age", 1, some 1)
  | sum => ("sum", 0, none)
  | avg => ("avg", 0, none)
  | min => ("min", 1, none)
  | max => ("max", 1, none)
  | round => ("round", 1, some 2)
  | contains => ("contains", 2, some 2)
  | notContains => ("notcontains", 2, some 2)
  | startsWith => ("startsWith", 2, some 2)
  | endsWith => ("endsWith", 2, some 2)

/-- All functions, in the order in which they are known. -/
def all : List Builtin :=
  [iif, today, age, sum, avg, min, max, round, contains, notContains, startsWith, endsWith]

/-- The value of a function; a count of arguments that it has no use for is a fault. -/
def run (f : Builtin) (date : Date) (arguments : List Value) : Except Stop Value :=
  match f, arguments with
  | today, [] => .ok (.text date.text)
  | age, [v] => ageOn date v
  | sum, vs => liftFault (Value.number <$> Aggregate.total vs)
  | avg, vs => liftFault (Value.number <$> Aggregate.mean vs)
  | min, vs => .ok (Aggregate.least vs)
  | max, vs => .ok (Aggregate.greatest vs)
  | round, [v] => Rounding.round v (.int 0)
  | round, [v, digits] => Rounding.round v digits
  | contains, [haystack, needle] => liftFault (Value.boolean <$> Search.contains haystack needle)
  | notContains, [haystack, needle] => liftFault ((Value.boolean ∘ not) <$> Search.contains haystack needle)
  | startsWith, [text, start] => liftFault (Value.boolean <$> Search.onTexts List.isPrefixOf text start)
  | endsWith, [text, tail] => liftFault (Value.boolean <$> Search.onTexts List.isSuffixOf text tail)
  | _, _ => .error (.fault .wrongType)

/-- The value of the conditional function, from the outcomes of its arguments: the condition's decides which of
the others is taken. -/
def choose (outcomes : List (Except Stop Value)) : Except Stop Value :=
  match outcomes with
  | [condition, whenTrue, whenFalse] => do if (← condition).truthy then whenTrue else whenFalse
  | _ => .error (.fault .wrongType)

end Builtin

end Questionnaire
