import Questionnaire.Number.Decimal
import Questionnaire.Text.Blank
import Questionnaire.Text.Digit

/-!
# Numerals

Numbers written as text.  A numeral may have a sign, digits of any script, and single underscores between two
digits.  A whole number is digits alone, at most `digitLimit` of them; a double may have a fraction, an
exponent, or be one of the words for infinity and for no number.
-/
namespace Questionnaire.Numeral

/-- Whether every underscore stands between two digits; `afterDigit` says whether a digit came just before. -/
def underscoresFit (afterDigit : Bool) : List Char → Bool
  | [] => true
  | '_' :: rest =>
    afterDigit && (match rest with | [] => false | c :: _ => Text.isDigit c) && underscoresFit false rest
  | c :: rest => underscoresFit (Text.isDigit c) rest

/-- The characters of a numeral without its underscores; none when one of them is misplaced. -/
def dropUnderscores? (cs : List Char) : Option (List Char) :=
  if underscoresFit false cs then some (cs.filter (· != '_')) else none

/-- A sign, and what follows it. -/
def splitSign : List Char → Bool × List Char
  | '-' :: rest => (true, rest)
  | '+' :: rest => (false, rest)
  | cs => (false, cs)

/-- A whole number. -/
def integer? (cs : List Char) : Option Int := do
  let (negative, digits) := splitSign (← dropUnderscores? cs)
  if digits.isEmpty || !digits.all Text.isDigit || digits.length > digitLimit then none
  else if negative then some (-(Text.digitsValue digits : Int)) else some (Text.digitsValue digits)

/-- The power of ten at the end of a numeral. -/
def exponent? : List Char → Option Int
  | [] => some 0
  | mark :: rest =>
    if mark != 'e' && mark != 'E' then none
    else
      let (negative, digits) := splitSign rest
      if digits.isEmpty || !digits.all Text.isDigit then none
      else if negative then some (-(Text.digitsValue digits : Int)) else some (Text.digitsValue digits)

/-- A magnitude with an optional fraction and exponent. -/
def magnitude? (negative : Bool) (cs : List Char) : Option Double := do
  let whole := cs.takeWhile Text.isDigit
  let rest := cs.dropWhile Text.isDigit
  let (fraction, rest) := match rest with
    | '.' :: tail => (tail.takeWhile Text.isDigit, tail.dropWhile Text.isDigit)
    | _ => ([], rest)
  if whole.isEmpty && fraction.isEmpty then none
  else
    let exponent ← exponent? rest
    some (.ofDecimal negative (Text.digitsValue (whole ++ fraction)) (exponent - fraction.length))

/-- A double. -/
def double? (cs : List Char) : Option Double := do
  let (negative, body) := splitSign (← dropUnderscores? cs)
  let word := String.ofList (body.map Char.toLower)
  if word == "inf" || word == "infinity" then some (.infinity negative)
  else if word == "nan" then some .nan
  else magnitude? negative body

end Questionnaire.Numeral
