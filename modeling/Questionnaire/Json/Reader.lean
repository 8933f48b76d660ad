import Questionnaire.Value.Basic

/-!
# Reading JSON text

A text holds one value, with blanks around it.  Numbers with a fraction or an exponent are doubles, others are
integers; the words for infinities and for no number are accepted too.  When a field is given twice the later
value counts.
-/
namespace Questionnaire.Json

/-- Why a text is no JSON value: it does not follow the grammar, or an integer has too many digits. -/
inductive ReadError where
  | malformed
  | integerTooLong
  deriving DecidableEq, Repr

def isSpace (c : Char) : Bool := c == ' ' || c == '\t' || c == '\n' || c == '\r'

def skipSpace (cs : List Char) : List Char := cs.dropWhile isSpace

/-- The text behind a word at its front. -/
def afterWord? (word : String) (cs : List Char) : Option (List Char) :=
  if word.toList.isPrefixOf cs then some (cs.drop word.length) else none

/-- The sixteen bits that four hexadecimal digits write, and the text behind them. -/
def unit? : List Char → Option (Nat × List Char)
  | a :: b :: c :: d :: rest => do
    let high := 16 * (← Text.hexValue? a) + (← Text.hexValue? b)
    let low := 16 * (← Text.hexValue? c) + (← Text.hexValue? d)
    return (256 * high + low, rest)
  | _ => none

/-- The character of an escape by code, after the letter `u`; two units of a pair make one character. -/
def codeEscape? (cs : List Char) : Option (Char × List Char) := do
  let (high, rest) ← unit? cs
  if 0xD800 ≤ high && high < 0xDC00 then
    match rest with
    | '\\' :: 'u' :: tail =>
      match unit? tail with
      | some (low, behind) =>
        if 0xDC00 ≤ low && low < 0xE000 then
          some (Char.ofNat (0x10000 + (high - 0xD800) * 0x400 + (low - 0xDC00)), behind)
        else some (Char.ofNat 0xFFFD, rest)
      | none => some (Char.ofNat 0xFFFD, rest)
    | _ => some (Char.ofNat 0xFFFD, rest)
  else if 0xDC00 ≤ high && high < 0xE000 then some (Char.ofNat 0xFFFD, rest)
  else some (Char.ofNat high, rest)

/-- The character of an escape by letter. -/
def letterEscape? (c : Char) : Option Char :=
  if c == '"' || c == '\\' || c == '/' then some c
  else if c == 'b' then some (Char.ofNat 8)
  else if c == 'f' then some (Char.ofNat 12)
  else if c == 'n' then some '\n'
  else if c == 'r' then some '\r'
  else if c == 't' then some '\t'
  else none

/-- One character of a string, escaped or not, and the text behind it. -/
def character? : List Char → Option (Char × List Char)
  | '\\' :: 'u' :: rest => codeEscape? rest
  | '\\' :: c :: rest => (letterEscape? c).map (·, rest)
  | c :: rest => if c == '\\' || c.toNat < 32 then none else some (c, rest)
  | [] => none

/-- The characters of a string up to its closing quote, after the opening one.  There are at most `most` of
them. -/
def characters (most : Nat) (cs : List Char) : Except ReadError (List Char × List Char) :=
  match most, cs with
  | _, '"' :: rest => .ok ([], rest)
  | most + 1, cs =>
    match character? cs with
    | none => .error .malformed
    | some (c, rest) => do
      let (others, behind) ← characters most rest
      return (c :: others, behind)
  | 0, _ => .error .malformed

/-- A string after its opening quote. -/
def string (cs : List Char) : Except ReadError (String × List Char) := do
  let (body, rest) ← characters cs.length cs
  return (String.ofList body, rest)

/-- A fraction: a point and at least one digit; what does not begin like that has none. -/
def fraction (cs : List Char) : List Char × List Char :=
  match cs with
  | '.' :: rest =>
    let digits := rest.takeWhile Char.isDigit
    if digits.isEmpty then ([], cs) else ('.' :: digits, rest.dropWhile Char.isDigit)
  | _ => ([], cs)

/-- An exponent: its mark, a sign or none, and at least one digit. -/
def exponent (cs : List Char) : List Char × List Char :=
  match cs with
  | mark :: rest =>
    if mark != 'e' && mark != 'E' then ([], cs)
    else
      let sign := rest.take (if rest.head? == some '+' || rest.head? == some '-' then 1 else 0)
      let tail := rest.drop sign.length
      let digits := tail.takeWhile Char.isDigit
      if digits.isEmpty then ([], cs) else (mark :: sign ++ digits, tail.dropWhile Char.isDigit)
  | [] => ([], [])

/-- A number whose sign is already read. -/
def number (negative : Bool) (cs : List Char) : Except ReadError (Value × List Char) :=
  let run := cs.takeWhile Char.isDigit
  -- a number does not begin with a zero that another digit follows
  let whole := if run.head? == some '0' then ['0'] else run
  let (point, rest) := fraction (cs.drop whole.length)
  let (power, rest) := exponent rest
  let sign := if negative then ['-'] else []
  if whole.isEmpty then .error .malformed
  else if point.isEmpty && power.isEmpty then
    match Numeral.integer? (sign ++ whole) with
    | some n => .ok (.int n, rest)
    | none => .error .integerTooLong
  else .ok (.float ((Numeral.double? (sign ++ whole ++ point ++ power)).getD .nan), rest)

/-- A word or a number. -/
def scalar (cs : List Char) : Except ReadError (Value × List Char) :=
  let words : List (String × Value) := [("null", .undefined), ("true", .boolean true),
    ("false", .boolean false), ("NaN", .float .nan), ("Infinity", .float (.infinity false)),
    ("-Infinity", .float (.infinity true))]
  match words.findSome? fun (word, v) => (afterWord? word cs).map (v, ·) with
  | some step => .ok step
  | none =>
    match cs with
    | '-' :: rest => number true rest
    | _ => number false cs

mutual

/-- A value at the front of a text; `depth` bounds the steps of the recursion. -/
def value (depth : Nat) (cs : List Char) : Except ReadError (Value × List Char) :=
  match depth with
  | 0 => .error .malformed
  | depth + 1 =>
    match cs with
    | '"' :: rest => do
      let (s, behind) ← string rest
      return (.text s, behind)
    | '[' :: rest =>
      match skipSpace rest with
      | ']' :: behind => .ok (.sequence [], behind)
      | inner => do
        let (vs, behind) ← items depth inner
        return (.sequence vs, behind)
    | '\x7b' :: rest =>
      match skipSpace rest with
      | '\x7d' :: behind => .ok (.structured [], behind)
      | inner => do
        let (fields, behind) ← members depth [] inner
        return (.structured fields, behind)
    | _ => scalar cs

/-- The items of an array up to its closing bracket, of which there is at least one. -/
def items (depth : Nat) (cs : List Char) : Except ReadError (List Value × List Char) :=
  match depth with
  | 0 => .error .malformed
  | depth + 1 => do
    let (first, rest) ← value depth cs
    match skipSpace rest with
    | ']' :: behind => return ([first], behind)
    | ',' :: tail =>
      let (others, behind) ← items depth (skipSpace tail)
      return (first :: others, behind)
    | _ => throw .malformed

/-- The fields of an object up to its closing brace, added to those already read. -/
def members (depth : Nat) (fields : Fields) (cs : List Char) : Except ReadError (Fields × List Char) :=
  match depth with
  | 0 => .error .malformed
  | depth + 1 =>
    match cs with
    | '"' :: rest => do
      let (name, rest) ← string rest
      match skipSpace rest with
      | ':' :: rest =>
        let (v, rest) ← value depth (skipSpace rest)
        let fields := Table.set (.text name) v fields
        match skipSpace rest with
        | '\x7d' :: behind => return (fields, behind)
        | ',' :: tail => members depth fields (skipSpace tail)
        | _ => throw .malformed
      | _ => throw .malformed
    | _ => .error .malformed

end

/-- The value that a text holds. -/
def read (text : String) : Except ReadError Value := do
  let cs := text.toList
  let (v, rest) ← value (2 * cs.length + 2) (skipSpace cs)
  if (skipSpace rest).isEmpty then return v else throw .malformed

end Questionnaire.Json
