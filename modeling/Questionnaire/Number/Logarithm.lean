import Questionnaire.Number.Basic

/-!
# Decimal logarithms

Logarithms are taken in fixed point with 256 binary places: a magnitude is split into a power of two and a
factor between one and two, and the factor's natural logarithm is the sum 2 (z + z^3/3 + z^5/5 + …) with
z = (factor - 1) / (factor + 1), which is at most a third.  One rounding to a double follows.

An integer beyond the range of doubles is split first: its leading 53 binary digits and the power of two that
goes with them have their logarithms added as doubles.
-/
namespace Questionnaire.Logarithm

/-- One in fixed point. -/
def scale : Nat := Nat.pow 2 256

/-- The sum of `z^k/k` over the next `terms` odd `k`, where `square` is z² and `power` is the first power of
z. -/
def oddSeries (square : Nat) : (terms k power : Nat) → Nat
  | 0, _, _ => 0
  | terms + 1, k, power => power / k + oddSeries square terms (k + 2) (power * square / scale)

/-- The natural logarithm of `num / den`, for a ratio between one and two. -/
def ratio (num den : Nat) : Nat :=
  let z := (num - den) * scale / (num + den)
  2 * oddSeries (z * z / scale) 90 1 z

/-- The natural logarithm of two. -/
def two : Nat := ratio 2 1

/-- The natural logarithm of ten: three doublings and a quarter more. -/
def ten : Nat := 3 * two + ratio 5 4

/-- The decimal logarithm of a positive magnitude that counts units. -/
def ofUnits (units : Nat) : Double :=
  let exponent : Int := units.log2 - 1074
  let natural : Int := ratio units (Nat.pow 2 units.log2) + exponent * two
  Double.ofRatio (natural < 0) natural.natAbs ten

/-- The leading 53 binary digits of an integer as a double between one half and one, and the power of two that
goes with it. -/
def split (n : Nat) : Double × Nat :=
  let exponent := n.log2 + 1
  let mantissa := Double.roundHalfEven n (Nat.pow 2 (exponent - 53))
  if mantissa == Nat.pow 2 53 then (Double.half, exponent + 1)
  else (Double.ofRatio false mantissa (Nat.pow 2 53), exponent)

/-- The decimal logarithm of a magnitude. -/
def ofDouble : Double → Double
  | .finite _ units => if units == 0 then .infinity true else ofUnits units
  | .infinity _ => .infinity false
  | .nan => .nan

/-- The decimal logarithm of a positive integer. -/
def ofNat (n : Nat) : Double :=
  match Double.ofInt? n with
  | some d => ofDouble d
  | none =>
    let (mantissa, exponent) := split n
    (ofDouble mantissa).add ((ofUnits (2 * Double.unitsPerOne)).mul (Double.ofRatio false exponent 1))

/-- The decimal logarithm of a number's magnitude. -/
def ofMagnitude : Number → Double
  | .int n => ofNat n.natAbs
  | .float d => ofDouble d.abs

end Questionnaire.Logarithm

namespace Questionnaire

/-- The text of an integer of any size.  Beyond `digitLimit` digits it is a power of ten with the leading
sixteen or seventeen digits as its mantissa, cut off and without zeros at the end. -/
def integerText (n : Int) : String :=
  match integerText? n with
  | some s => s
  | none =>
    let leading := ((Logarithm.ofNat n.natAbs).truncate?.getD 0).toNat
    let shift := leading - 16
    let digits := (decimalDigits (n.natAbs / Nat.pow 10 shift)).toList
    let fraction := ((digits.drop 1).reverse.dropWhile (· == '0')).reverse
    let exponent := shift + digits.length - 1
    (if n < 0 then "-" else "") ++ String.ofList (digits.take 1) ++ "." ++
      (if fraction.isEmpty then "0" else String.ofList fraction) ++ "e+" ++ decimalDigits exponent

/-- The text of a number: a double without a fraction is written as an integer. -/
def Number.text (a : Number) : String :=
  match a.normalize with
  | .int n => integerText n
  | .float d => d.text

end Questionnaire
