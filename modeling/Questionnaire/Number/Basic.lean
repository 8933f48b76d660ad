import Questionnaire.Failure
import Questionnaire.Number.Decimal
import Questionnaire.Number.Numeral

/-!
# Numbers

A number is an unbounded integer or a double, and the two kinds are kept apart: 7 and 7.0 are equal but not the
same.  Integers stay exact as long as both operands are integers.  Two numbers are compared by their places on
the number line, without rounding either.
-/
namespace Questionnaire

inductive Number where
  | int (n : Int)
  | float (d : Double)
  deriving DecidableEq, Repr, Inhabited

namespace Number

/-- A double without a fraction becomes an integer. -/
def normalize : Number → Number
  | int n => int n
  | float d => match d.toInt? with
    | some n => int n
    | none => float d

/-- The place on the number line: -1 and 1 for the infinities, 0 and the count of units otherwise.  What is no
number has no place. -/
def place? : Number → Option (Int × Int)
  | int n => some (0, n * Double.unitsPerOne)
  | float .nan => none
  | float (.infinity negative) => some (if negative then -1 else 1, 0)
  | float (.finite negative units) => some (0, Double.signed negative units)

/-- Equality of places. -/
def eq (a b : Number) : Bool :=
  match a.place?, b.place? with
  | some p, some q => p.1 == q.1 && p.2 == q.2
  | _, _ => false

def lt (a b : Number) : Bool :=
  match a.place?, b.place? with
  | some p, some q => p.1 < q.1 || (p.1 == q.1 && p.2 < q.2)
  | _, _ => false

def le (a b : Number) : Bool :=
  match a.place?, b.place? with
  | some p, some q => p.1 < q.1 || (p.1 == q.1 && p.2 ≤ q.2)
  | _, _ => false

def isNan : Number → Bool
  | int _ => false
  | float d => d.isNan

def isZero (a : Number) : Bool := a.eq (int 0)

/-- The nearest double; an integer beyond the range of doubles has none. -/
def toDouble : Number → Except Fault Double
  | int n => match Double.ofInt? n with
    | some d => .ok d
    | none => .error .overflow
  | float d => .ok d

def neg : Number → Number
  | int n => int (-n)
  | float d => float d.neg

def abs : Number → Number
  | int n => int n.natAbs
  | float d => float d.abs

/-- An operation that is exact on integers and otherwise works on doubles. -/
def combine (exact : Int → Int → Int) (rounded : Double → Double → Double) :
    Number → Number → Except Fault Number
  | int a, int b => .ok (int (exact a b))
  | a, b => do return float (rounded (← a.toDouble) (← b.toDouble))

def add : Number → Number → Except Fault Number := combine (· + ·) Double.add

def sub : Number → Number → Except Fault Number := combine (· - ·) Double.sub

def mul : Number → Number → Except Fault Number := combine (· * ·) Double.mul

/-- The quotient by a number that is not zero, always a double.  The ratio of two integers is rounded once. -/
def div : Number → Number → Except Fault Number
  | int a, int b =>
    match Double.ofRatio ((a < 0) != (b < 0)) a.natAbs b.natAbs with
    | .infinity _ => .error .overflow
    | d => .ok (float d)
  | a, b => do return float ((← a.toDouble).div (← b.toDouble))

/-- The remainder of the division toward zero, always a double; an infinite dividend has none. -/
def mod (a b : Number) : Except Fault Number := do
  match (← a.toDouble).remainder? (← b.toDouble) with
  | some d => return float d
  | none => throw .badValue

/-- The whole part toward zero. -/
def truncate : Number → Except Fault Int
  | int n => .ok n
  | float d => match d.truncate? with
    | some n => .ok n
    | none => .error (if d.isNan then .badValue else .overflow)

/-- The number that a text writes, if it writes a finite one: a whole number if possible, else a double. -/
def ofText? (s : String) : Option Number :=
  let cs := Text.strip s.toList
  match Numeral.integer? cs with
  | some n => some (int n)
  | none => match Numeral.double? cs with
    | some (.finite negative units) => some (float (.finite negative units))
    | _ => none

end Number

end Questionnaire
