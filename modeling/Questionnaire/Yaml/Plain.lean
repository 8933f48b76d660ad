import Questionnaire.Number.Numeral
import Questionnaire.Value.Basic

/-!
# Plain scalars

A scalar without quotes may stand for something else than its text: for nothing, a boolean, an integer, a double
or a moment, or it may be one of the marks that only make sense as a key.  A text that would be taken for one of
these has to be written in quotes.

Integers may be written in base two, eight, ten, sixteen or sixty; the digits of base sixty are separated by
colons.  Underscores between digits are ignored.
-/
namespace Questionnaire.Yaml

/-- What a plain scalar is taken for. -/
inductive PlainForm where
  | nothing
  | boolean (b : Bool)
  | integer
  | double
  | moment
  /-- A mark that is no value of its own: one that merges mappings, and one that names a default. -/
  | mark
  | text
  deriving DecidableEq, Repr

namespace Plain

/-- A digit or an underscore. -/
def isDigitOrGap (c : Char) : Bool := c.isDigit || c == '_'

def dropSign (cs : List Char) : List Char := (Numeral.splitSign cs).2

def isNothing (s : String) : Bool := ["", "~", "null", "Null", "NULL"].contains s

/-- The boolean of a word, which may be written in small letters, in capitals, or with a capital at the front. -/
def boolean? (s : String) : Option Bool :=
  if ["yes", "Yes", "YES", "true", "True", "TRUE", "on", "On", "ON"].contains s then some true
  else if ["no", "No", "NO", "false", "False", "FALSE", "off", "Off", "OFF"].contains s then some false
  else none

/-- A digit of base sixty: one decimal digit or two. -/
def isSixtieth : List Char → Bool
  | [d] => d.isDigit
  | [a, b] => '0' ≤ a && a ≤ '5' && b.isDigit
  | _ => false

/-- The parts of a text between colons. -/
def colonParts : List Char → List (List Char)
  | [] => [[]]
  | c :: rest =>
    if c == ':' then [] :: colonParts rest
    else match colonParts rest with
      | [] => [[c]]
      | part :: parts => (c :: part) :: parts

/-- Whether a text is made of digits of base sixty, each after a colon. -/
def areSixtieths : List Char → Bool
  | ':' :: rest => (colonParts rest).all isSixtieth
  | _ => false

def isInteger (cs : List Char) : Bool :=
  match dropSign cs with
  | '0' :: 'b' :: digits => !digits.isEmpty && digits.all fun c => c == '0' || c == '1' || c == '_'
  | '0' :: 'x' :: digits => !digits.isEmpty && digits.all fun c => (Text.hexValue? c).isSome || c == '_'
  | '0' :: digits => digits.all fun c => ('0' ≤ c && c ≤ '7') || c == '_'
  | first :: digits =>
    let tail := digits.dropWhile isDigitOrGap
    '1' ≤ first && first ≤ '9' && (tail.isEmpty || areSixtieths tail)
  | [] => false

/-- An exponent has a sign. -/
def isExponent : List Char → Bool
  | mark :: sign :: digits =>
    (mark == 'e' || mark == 'E') && (sign == '-' || sign == '+') && !digits.isEmpty && digits.all Char.isDigit
  | _ => false

/-- What follows the point of a double: digits, and an exponent or none. -/
def isFraction (cs : List Char) : Bool :=
  let tail := cs.dropWhile isDigitOrGap
  tail.isEmpty || isExponent tail

def isInfinity (s : String) : Bool := [".inf", ".Inf", ".INF"].contains s

def isNan (s : String) : Bool := [".nan", ".NaN", ".NAN"].contains s

/-- Whether a text begins with a digit. -/
def startsWithDigit (cs : List Char) : Bool := (cs.head?.map Char.isDigit).getD false

def isDouble (cs : List Char) : Bool :=
  let body := dropSign cs
  let tail := body.dropWhile isDigitOrGap
  let afterWhole := match tail with
    | '.' :: fraction => isFraction fraction
    | ':' :: _ =>
      let sixtieths := tail.takeWhile (· != '.')
      match tail.drop sixtieths.length with
      | '.' :: fraction => areSixtieths sixtieths && fraction.all isDigitOrGap
      | _ => false
    | _ => false
  let withoutWhole := match cs with
    | '.' :: fraction => startsWithDigit fraction && isFraction fraction
    | _ => false
  isInfinity (String.ofList body) || isNan (String.ofList cs) || (startsWithDigit body && afterWhole) || withoutWhole

/-- The text behind at least `least` and at most `most` digits. -/
def afterDigits? (least most : Nat) (cs : List Char) : Option (List Char) :=
  let count := (cs.takeWhile Char.isDigit).length
  if count < least then none else some (cs.drop (min count most))

/-- The text behind a character. -/
def afterChar? (c : Char) : List Char → Option (List Char)
  | first :: rest => if first == c then some rest else none
  | [] => none

/-- The text behind a year, a month and a day. -/
def afterDate? (least : Nat) (cs : List Char) : Option (List Char) := do
  let month ← afterChar? '-' (← afterDigits? 4 4 cs)
  let day ← afterChar? '-' (← afterDigits? least 2 month)
  afterDigits? least 2 day

/-- What separates a date from a time: the letter T, or blanks. -/
def afterSeparator? : List Char → Option (List Char)
  | c :: rest =>
    if c == 'T' || c == 't' then some rest
    else if c == ' ' || c == '\t' then some (rest.dropWhile fun c => c == ' ' || c == '\t')
    else none
  | [] => none

/-- A time zone: the letter Z, or a distance in hours, with minutes or without. -/
def isZone (cs : List Char) : Bool :=
  match cs with
  | ['Z'] => true
  | sign :: distance =>
    (sign == '-' || sign == '+') && (match afterDigits? 1 2 distance with
      | some [] => true
      | some (':' :: minutes) => afterDigits? 2 2 minutes == some []
      | _ => false)
  | [] => false

/-- The text behind hours, minutes and seconds with a fraction or without. -/
def afterTime? (cs : List Char) : Option (List Char) := do
  let minutes ← afterChar? ':' (← afterDigits? 1 2 cs)
  let seconds ← afterChar? ':' (← afterDigits? 2 2 minutes)
  match ← afterDigits? 2 2 seconds with
  | '.' :: fraction => return fraction.dropWhile Char.isDigit
  | rest => return rest

def isMoment (cs : List Char) : Bool :=
  let timed : Option Bool := do
    let zone ← afterTime? (← afterSeparator? (← afterDate? 1 cs))
    return zone.isEmpty || isZone (zone.dropWhile fun c => c == ' ' || c == '\t')
  afterDate? 2 cs == some [] || timed.getD false

def isMark (s : String) : Bool := s == "<<" || s == "="

end Plain

/-- What a plain scalar is taken for. -/
def PlainForm.ofText (s : String) : PlainForm :=
  let cs := s.toList
  if Plain.isNothing s then .nothing
  else match Plain.boolean? s with
    | some b => .boolean b
    | none =>
      if Plain.isInteger cs then .integer
      else if Plain.isDouble cs then .double
      else if Plain.isMoment cs then .moment
      else if Plain.isMark s then .mark
      else .text

namespace Plain

/-- The number that digits write in a base of at most sixteen. -/
def inBase (base : Nat) (digits : List Char) : Nat :=
  digits.foldl (fun n c => base * n + (Text.hexValue? c).getD 0) 0

/-- The number that digits of base sixty write, and digits of base ten where there is no colon. -/
def inSixties? (digits : List Char) : Option Int := do
  let parts ← (colonParts digits).mapM Numeral.integer?
  return parts.foldl (fun n part => 60 * n + part) 0

/-- The magnitude of an integer without underscores. -/
def magnitude? : List Char → Option Int
  | ['0'] => some 0
  | '0' :: 'b' :: digits => if digits.isEmpty then none else some (inBase 2 digits)
  | '0' :: 'x' :: digits => if digits.isEmpty then none else some (inBase 16 digits)
  | '0' :: digits => some (inBase 8 digits)
  | digits => inSixties? digits

/-- The value of an integer.  One of too many digits is a fault, and so is one that has none after the mark of its
base. -/
def integer (cs : List Char) : Except Fault Value :=
  let (negative, body) := Numeral.splitSign (cs.filter (· != '_'))
  match magnitude? body with
  | some n => .ok (.int (if negative then -n else n))
  | none => .error .badValue

/-- The sum of doubles in base sixty, the last part first. -/
def sumSixties (parts : List Double) : Double :=
  (parts.reverse.foldl (fun (sum, weight) part =>
    (sum.add (part.mul ((Double.ofInt? weight).getD (.infinity false))), 60 * weight))
    (Double.zero, (1 : Int))).1

/-- The value of a double. -/
def double (cs : List Char) : Value :=
  let (negative, body) := Numeral.splitSign ((cs.filter (· != '_')).map Char.toLower)
  let magnitude : Double :=
    if isInfinity (String.ofList body) then .infinity false
    else if isNan (String.ofList body) then .nan
    else sumSixties ((colonParts body).map fun part => (Numeral.double? part).getD .nan)
  .float (if negative then magnitude.neg else magnitude)

end Plain

/-- The value of a plain scalar; a mark has none. -/
def plainValue? (s : String) : Except Fault (Option Value) := do
  match PlainForm.ofText s with
  | .nothing => return some .undefined
  | .boolean b => return some (.boolean b)
  | .integer => return some (← Plain.integer s.toList)
  | .double => return some (Plain.double s.toList)
  | .moment => return some (.text s)
  | .mark => return none
  | .text => return some (.text s)

end Questionnaire.Yaml
