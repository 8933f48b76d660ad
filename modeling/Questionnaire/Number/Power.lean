import Questionnaire.Number.Logarithm

/-!
# Powers

An integer to a natural power is exact, and refused first when the logarithm of the result is above 308.  All
other powers are powers of doubles: the cases with zero, one, infinities and negative bases follow fixed rules,
and the remaining case, a positive base, is the one operation that is left to the machine.
-/
namespace Questionnaire

/-- The machine's power of two doubles. -/
def Double.machinePow (x y : Double) : Double :=
  .ofBits (Float.pow (Float.ofBits x.toBits) (Float.ofBits y.toBits)).toBits

/-- How a power ends without a value. -/
inductive PowerFailure where
  | tooLarge
  | undefined
  | notReal
  | overflow
  deriving DecidableEq, Repr

/-- Results above ten to this power are refused before they are computed. -/
def powerDigits : Nat := 308

namespace Double

/-- Whether a double is an odd integer. -/
def isOdd (d : Double) : Bool :=
  match d.toInt? with
  | some n => n.natAbs % 2 == 1
  | none => false

def isNegative : Double → Bool
  | nan => false
  | infinity negative => negative
  | finite negative units => negative && units != 0

def isOne (d : Double) : Bool := d == finite false unitsPerOne

/-- A magnitude to a power; an infinite result is out of range. -/
def magnitudePow (x y : Double) : Except PowerFailure Double :=
  if x.isOne then .ok x
  else match machinePow x y with
    | infinity _ => .error .overflow
    | d => .ok d

/-- The power of two doubles. -/
def pow (x y : Double) : Except PowerFailure Double :=
  let one := finite false unitsPerOne
  match x, y with
  | _, finite _ 0 => .ok one
  | nan, _ => .ok nan
  | x, nan => .ok (if x.isOne then one else nan)
  | x, infinity negative =>
    let size := Number.float x.abs
    if size.eq (.int 1) then .ok one
    else if (Number.lt (.int 1) size) != negative then .ok (infinity false)
    else .ok zero
  | infinity sign, y =>
    let sign := sign && y.isOdd
    .ok (if y.isNegative then finite sign 0 else infinity sign)
  | finite sign 0, y =>
    if y.isNegative then .error .undefined else .ok (finite (sign && y.isOdd) 0)
  | x, y =>
    if !x.isNegative then magnitudePow x y
    else if y.toInt?.isSome then do
      let size ← magnitudePow x.abs y
      return if y.isOdd then size.neg else size
    else match machinePow x.abs y with
      | infinity _ => .error .overflow
      | _ => .error .notReal

end Double

/-- An integer to a natural power; the powers of 0, 1 and -1 need no multiplication. -/
def integerPow (base : Int) (exponent : Nat) : Int :=
  let magnitude :=
    if exponent == 0 then 1 else if base.natAbs < 2 then base.natAbs else Nat.pow base.natAbs exponent
  if base < 0 && exponent % 2 == 1 then -(magnitude : Int) else magnitude

namespace Number

/-- Whether a power is refused for its size: a positive exponent times the logarithm of a base above one
exceeds `powerDigits`. -/
def powerTooLarge (a b : Number) : Except Fault Bool := do
  if (int 0).lt b && (int 1).lt a.abs then
    let digits := (← b.toDouble).mul (Logarithm.ofMagnitude a)
    return (int powerDigits).lt (float digits)
  else return false

/-- The power of two numbers. -/
def pow (a b : Number) : Except PowerFailure Number :=
  match powerTooLarge a b with
  | .error _ => .error .overflow
  | .ok true => .error .tooLarge
  | .ok false =>
    match a, b with
    | int a, int (.ofNat n) => .ok (int (integerPow a n))
    | a, b =>
      match a.toDouble, b.toDouble with
      | .ok x, .ok y => (x.pow y).map float
      | _, _ => .error .overflow

end Number

end Questionnaire
