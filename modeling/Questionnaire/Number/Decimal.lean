import Questionnaire.Number.Double

/-!
# Decimal text of numbers

A double is written with the fewest decimal digits that read back to it, and of those with the ones nearest to
it; a tie goes to the even digit.  The digits are laid out positionally while the exponent of the first one is
between -4 and 15, and with a signed exponent of at least two digits otherwise.

Reading goes the other way: a run of digits and a power of ten give the nearest double.
-/
namespace Questionnaire

/-- The decimal digits of a natural, most significant first. -/
def decimalDigits (n : Nat) : String := Nat.repr n

/-- The number of decimal digits of a natural; zero has one. -/
def digitCount (n : Nat) : Nat := (decimalDigits n).length

/-- Whole numbers of more digits than this are neither read from text nor written positionally. -/
def digitLimit : Nat := 4300

/-- The least natural with too many digits to be written out. -/
def digitBound : Nat := Nat.pow 10 digitLimit

namespace Double

/-- How many decimal places a magnitude is shifted so that its leading digits become whole. -/
private def shift : Nat := 400

/-- Whether `digits * 10 ^ (-places)` lies among the reals that round to `units`: from halfway to the
neighbour below to halfway to the neighbour above, the ends included when the last kept binary digit is
zero. -/
def readsBack (units digits : Nat) (places : Int) : Bool :=
  let gap := spacing units
  let narrow := gap > 1 && units == Nat.pow 2 52 * gap
  let low := 4 * units - (if narrow then gap else 2 * gap)
  let high := 4 * units + 2 * gap
  let value := 4 * digits * unitsPerOne * Nat.pow 10 (-places).toNat
  let scale := Nat.pow 10 places.toNat
  if units / gap % 2 == 0 then low * scale ≤ value && value ≤ high * scale
  else low * scale < value && value < high * scale

/-- The nearer of two adjacent decimals to a magnitude; of two at the same distance the even one. -/
def nearer (units below : Nat) (places : Int) : Nat :=
  let twice := 2 * units * Nat.pow 10 places.toNat
  let middle := (2 * below + 1) * unitsPerOne * Nat.pow 10 (-places).toNat
  if twice < middle || (twice == middle && below % 2 == 0) then below else below + 1

/-- The decimal of `count` digits that is chosen for a magnitude, if one reads back: the digits and the
number of decimal places. -/
def decimalOf? (units count : Nat) : Option (Nat × Int) :=
  let shifted := units * Nat.pow 10 shift / unitsPerOne
  let dropped := digitCount shifted - count
  let below := shifted / Nat.pow 10 dropped
  let places := (shift : Int) - dropped
  match readsBack units below places, readsBack units (below + 1) places with
  | true, true => some (nearer units below places, places)
  | true, false => some (below, places)
  | false, true => some (below + 1, places)
  | false, false => none

/-- The shortest decimal that reads back to a magnitude: its digits without zeros at the end, and the
exponent of the first of them. -/
def shortest (units : Nat) : List Char × Int :=
  let (digits, places) :=
    ((List.range 17).findSome? fun n => decimalOf? units (n + 1)).getD (units, 0)
  let written := (decimalDigits digits).toList
  let significant := (written.reverse.dropWhile (· == '0')).reverse
  (significant, (written.length : Int) - 1 - places)

/-- A decimal exponent with its sign and at least two digits. -/
def exponentText (e : Int) : String :=
  let digits := decimalDigits e.natAbs
  (if e < 0 then "e-" else "e+") ++ (if digits.length < 2 then "0" ++ digits else digits)

/-- Digits laid out around their decimal point; `e` is the exponent of the first digit. -/
def layout (digits : List Char) (e : Int) : String :=
  if -4 ≤ e && e < 16 then
    if e < 0 then
      String.ofList ('0' :: '.' :: (List.replicate (-e - 1).toNat '0' ++ digits))
    else
      let whole := digits.take (e.toNat + 1)
      let fraction := digits.drop (e.toNat + 1)
      let padding := List.replicate (e.toNat + 1 - digits.length) '0'
      String.ofList (whole ++ padding ++ '.' :: (if fraction.isEmpty then ['0'] else fraction))
  else
    let fraction := digits.drop 1
    String.ofList (digits.take 1 ++ (if fraction.isEmpty then [] else '.' :: fraction)) ++ exponentText e

/-- The text of a double. -/
def text : Double → String
  | nan => "nan"
  | infinity negative => if negative then "-inf" else "inf"
  | finite negative units =>
    let body := if units == 0 then "0.0" else
      let (digits, e) := shortest units
      layout digits e
    if negative then "-" ++ body else body

/-- The double nearest to `digits * 10 ^ exponent`.  Exponents far outside the range of doubles are settled
by the exponent of the first digit alone. -/
def ofDecimal (negative : Bool) (digits : Nat) (exponent : Int) : Double :=
  if digits == 0 then finite negative 0
  else
    let leading := (digitCount digits : Int) + exponent - 1
    if leading > 310 then infinity negative
    else if leading < -400 then finite negative 0
    else ofRatio negative (digits * Nat.pow 10 exponent.toNat) (Nat.pow 10 (-exponent).toNat)

end Double

/-- The text of an integer; none when it has too many digits. -/
def integerText? (n : Int) : Option String :=
  if n.natAbs < digitBound then
    some (if n < 0 then "-" ++ decimalDigits n.natAbs else decimalDigits n.natAbs)
  else none

end Questionnaire
