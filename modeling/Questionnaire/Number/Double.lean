/-!
# Double precision numbers

A double is not a number at all, an infinity, or a signed whole number of *units*, one unit being the
smallest positive double 2^-1074.  Counting units makes every operation integer arithmetic followed by one
rounding: sums and remainders are exact before they are rounded, products and quotients are rounded ratios,
and the order of two doubles is the order of two integers.

`Double.ofRatio` is the one place where precision is lost: it rounds a ratio of naturals to 53 significant
binary digits, a half going to the even neighbour, and gives an infinity from 2^1024 on.
-/
namespace Questionnaire

inductive Double where
  | nan
  | infinity (negative : Bool)
  | finite (negative : Bool) (units : Nat)
  deriving DecidableEq, Repr, Inhabited

namespace Double

/-- The number one, counted in units. -/
def unitsPerOne : Nat := Nat.pow 2 1074

/-- The first magnitude that is too large to be finite, counted in units. -/
def unitLimit : Nat := Nat.pow 2 2098

/-- The whole number nearest to `num / den`; a half goes to the even neighbour. -/
def roundHalfEven (num den : Nat) : Nat :=
  let quotient := num / den
  let twice := 2 * (num % den)
  if twice < den || (twice == den && quotient % 2 == 0) then quotient else quotient + 1

/-- The distance of neighbouring doubles around a magnitude: 53 binary digits are kept. -/
def spacing (units : Nat) : Nat := Nat.pow 2 (units.log2 - 52)

/-- `num / den` units, rounded to the spacing of doubles of that size. -/
def nearestUnits (num den : Nat) : Nat :=
  let gap := spacing (num / den)
  roundHalfEven num (den * gap) * gap

/-- The double nearest to `num / den` units. -/
def ofUnits (negative : Bool) (num den : Nat) : Double :=
  let units := nearestUnits num den
  if units < unitLimit then finite negative units else infinity negative

/-- The double nearest to `num / den`. -/
def ofRatio (negative : Bool) (num den : Nat) : Double :=
  ofUnits negative (unitsPerOne * num) den

/-- The double nearest to an integer; none when it is infinite. -/
def ofInt? (n : Int) : Option Double :=
  match ofRatio (n < 0) n.natAbs 1 with
  | finite negative units => some (finite negative units)
  | _ => none

def zero : Double := finite false 0

/-- One half, the amount added before rounding down. -/
def half : Double := finite false (Nat.pow 2 1073)

/-- A sign and a magnitude as an integer. -/
def signed (negative : Bool) (units : Nat) : Int :=
  if negative then -(units : Int) else units

def isNan : Double → Bool
  | nan => true
  | _ => false

def neg : Double → Double
  | nan => nan
  | infinity negative => infinity (!negative)
  | finite negative units => finite (!negative) units

def abs : Double → Double
  | nan => nan
  | infinity _ => infinity false
  | finite _ units => finite false units

/-- The sum; opposite numbers give a positive zero. -/
def add : Double → Double → Double
  | nan, _ => nan
  | _, nan => nan
  | infinity a, infinity b => if a == b then infinity a else nan
  | infinity a, finite _ _ => infinity a
  | finite _ _, infinity b => infinity b
  | finite a u, finite b v =>
    let total := signed a u + signed b v
    if total == 0 then finite (a && b) 0 else ofUnits (total < 0) total.natAbs 1

def sub (x y : Double) : Double := add x (neg y)

def mul : Double → Double → Double
  | nan, _ => nan
  | _, nan => nan
  | infinity a, infinity b => infinity (a != b)
  | infinity a, finite b v => if v == 0 then nan else infinity (a != b)
  | finite a u, infinity b => if u == 0 then nan else infinity (a != b)
  | finite a u, finite b v => ofUnits (a != b) (u * v) unitsPerOne

def div : Double → Double → Double
  | nan, _ => nan
  | _, nan => nan
  | infinity _, infinity _ => nan
  | infinity a, finite b _ => infinity (a != b)
  | finite a _, infinity b => finite (a != b) 0
  | finite a u, finite b v =>
    if v == 0 then (if u == 0 then nan else infinity (a != b)) else ofRatio (a != b) u v

/-- The exact remainder of the division toward zero, with the sign of `x`; none when `x` is infinite or
`y` is zero, where no remainder exists. -/
def remainder? : Double → Double → Option Double
  | nan, _ => some nan
  | _, nan => some nan
  | infinity _, _ => none
  | finite a u, infinity _ => some (finite a u)
  | finite a u, finite _ v => if v == 0 then none else some (finite a (u % v))

/-- The whole part, toward zero; none for an infinity and for what is no number. -/
def truncate? : Double → Option Int
  | finite negative units => some (signed negative (units / unitsPerOne))
  | _ => none

/-- The greatest whole number that is not above a double of positive sign. -/
def floorMagnitude? : Double → Option Nat
  | finite _ units => some (units / unitsPerOne)
  | _ => none

/-- The integer that a double without a fraction stands for. -/
def toInt? : Double → Option Int
  | finite negative units =>
    if units % unitsPerOne == 0 then some (signed negative (units / unitsPerOne)) else none
  | _ => none

/-- The double that a 64-bit pattern stands for: one sign bit, eleven exponent bits, 52 fraction bits. -/
def ofBits (bits : UInt64) : Double :=
  let pattern := bits.toNat
  let negative := Nat.pow 2 63 ≤ pattern
  let exponent := pattern / Nat.pow 2 52 % Nat.pow 2 11
  let fraction := pattern % Nat.pow 2 52
  if exponent == 2047 then (if fraction == 0 then infinity negative else nan)
  else if exponent == 0 then finite negative fraction
  else finite negative ((Nat.pow 2 52 + fraction) * Nat.pow 2 (exponent - 1))

/-- The 64-bit pattern of a double. -/
def toBits : Double → UInt64
  | nan => UInt64.ofNat (2047 * Nat.pow 2 52 + Nat.pow 2 51)
  | infinity negative => UInt64.ofNat ((if negative then Nat.pow 2 63 else 0) + 2047 * Nat.pow 2 52)
  | finite negative units =>
    let sign := if negative then Nat.pow 2 63 else 0
    if units < Nat.pow 2 52 then UInt64.ofNat (sign + units)
    else
      let gap := units.log2 - 52
      UInt64.ofNat (sign + (gap + 1) * Nat.pow 2 52 + (units / Nat.pow 2 gap - Nat.pow 2 52))

end Double

end Questionnaire
