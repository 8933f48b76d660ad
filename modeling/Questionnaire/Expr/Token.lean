import Questionnaire.Failure
import Questionnaire.Path

/-!
# Tokens

An expression text is cut into lexemes from left to right, and each lexeme but blanks becomes a token.  What a
lexeme is, and how long, depends on its first character; of several readings the longest one is taken.  The
tokens end with one for the end of the text.
-/
namespace Questionnaire

inductive TokenKind where
  | reference
  | number
  | string
  | identifier
  | operator
  | punctuation
  | endOfText
  deriving DecidableEq, Repr

def TokenKind.name : TokenKind → String
  | reference => "REFERENCE"
  | number => "NUMBER"
  | string => "STRING"
  | identifier => "IDENTIFIER"
  | operator => "OPERATOR"
  | punctuation => "PUNCTUATION"
  | endOfText => "EOF"

/-- A token: its text, its place in the source, and what it stands for, which is the path of a reference, the
number or text of a literal, and the canonical spelling of an operator. -/
structure Token where
  kind : TokenKind
  text : String
  position : Nat
  value : Value
  deriving Repr

/-- The kinds of lexeme; three of them are no part of any expression. -/
inductive LexemeKind where
  | blank
  | token (kind : TokenKind)
  | openReference
  | openString
  | unknown
  deriving DecidableEq, Repr

namespace Lexeme

/-- The length of a quoted text up to its closing quote, after the opening one; a backslash takes the next
character with it. -/
def closingQuote? (quote : Char) : List Char → Option Nat
  | [] => none
  | c :: rest =>
    if c == quote then some 1
    else if c == '\\' then
      match rest with
      | [] => none
      | _ :: tail => (closingQuote? quote tail).map (· + 2)
    else (closingQuote? quote rest).map (· + 1)

/-- The length of a reference up to its closing brace, after the opening one. -/
def closingBrace? : List Char → Option Nat
  | [] => none
  | c :: rest =>
    if c == '\x7d' then some 1
    else if c == '\x7b' then none
    else (closingBrace? rest).map (· + 1)

def leading (p : Char → Bool) (cs : List Char) : Nat := (cs.takeWhile p).length

/-- The length of a number at the front of a text: digits, a fraction, or both; zero if there is none. -/
def numberLength (cs : List Char) : Nat :=
  let whole := leading Text.isDigit cs
  match cs.drop whole with
  | '.' :: tail =>
    let fraction := leading Text.isDigit tail
    if fraction == 0 then whole else whole + 1 + fraction
  | _ => whole

/-- Operators of two characters. -/
def pairs : List (List Char) :=
  [['<', '='], ['>', '='], ['!', '='], ['<', '>'], ['=', '='], ['&', '&'], ['|', '|']]

/-- Operators of one character. -/
def singles : List Char := ['-', '+', '*', '/', '%', '^', '=', '<', '>', '!']

/-- Names begin with a letter of ASCII or an underscore, and go on with those and digits. -/
def isNameStart (c : Char) : Bool := c.isAlpha || c == '_'

def isNamePart (c : Char) : Bool := c.isAlphanum || c == '_'

/-- The kind and length of the lexeme at the front of a text. -/
def first (c : Char) (rest : List Char) : LexemeKind × Nat :=
  if Text.isBlank c then (.blank, 1 + leading Text.isBlank rest)
  else if c == '\x7b' then
    match closingBrace? rest with
    | some n => (.token .reference, 1 + n)
    | none => (.openReference, 1)
  else if c == '\'' || c == '"' then
    match closingQuote? c rest with
    | some n => (.token .string, 1 + n)
    | none => (.openString, 1)
  else if numberLength (c :: rest) > 0 then (.token .number, numberLength (c :: rest))
  else if pairs.contains ((c :: rest).take 2) then (.token .operator, 2)
  else if singles.contains c then (.token .operator, 1)
  else if c == '(' || c == ')' || c == ',' then (.token .punctuation, 1)
  else if isNameStart c then (.token .identifier, 1 + leading isNamePart rest)
  else (.unknown, 1)

/-- What an escaped character stands for. -/
def escaped (c : Char) : Char :=
  if c == 'n' then '\n' else if c == 't' then '\t' else if c == 'r' then '\r' else c

/-- The body of a string literal with its escapes resolved. -/
def unescape : List Char → List Char
  | [] => []
  | '\\' :: c :: rest => escaped c :: unescape rest
  | '\\' :: [] => []
  | c :: rest => c :: unescape rest

/-- The one spelling under which an operator is known to the grammar. -/
def canonical (operator : String) : String :=
  if operator == "==" then "="
  else if operator == "<>" then "!="
  else if operator == "&&" then "and"
  else if operator == "||" then "or"
  else if operator == "!" then "not"
  else operator

/-- The names that are operators, whatever their case. -/
def wordOperators : List String := ["and", "or", "not", "contains", "notcontains", "empty", "notempty"]

/-- The value of a number literal: a whole number unless it has a point. -/
def numberValue (raw : List Char) : Except LexCause Value :=
  if raw.contains '.' then .ok ((Numeral.double? raw).elim .undefined .float)
  else match Numeral.integer? raw with
    | some n => .ok (.int n)
    | none => .error (.numberTooLong raw.length)

/-- A text in lower case; names are ASCII. -/
def lowered (s : String) : String := String.ofList (s.toList.map Char.toLower)

/-- The token that a lexeme stands for; blanks stand for none. -/
def token? (kind : LexemeKind) (raw : List Char) (position : Nat) : Except LexError (Option Token) :=
  let text := String.ofList raw
  let body := (raw.drop 1).dropLast
  match kind with
  | .blank => .ok none
  | .openReference => .error ⟨.unterminatedReference, position⟩
  | .openString => .error ⟨.unterminatedString, position⟩
  | .unknown => .error ⟨.unexpectedCharacter (raw.headD ' '), position⟩
  | .token .reference =>
    let path := String.ofList (Text.strip body)
    if Path.isValid path then .ok (some ⟨.reference, text, position, .text path⟩)
    else .error ⟨.invalidReference text, position⟩
  | .token .string => .ok (some ⟨.string, text, position, .text (String.ofList (unescape body))⟩)
  | .token .number =>
    match numberValue raw with
    | .ok v => .ok (some ⟨.number, text, position, v⟩)
    | .error cause => .error ⟨cause, position⟩
  | .token .operator => .ok (some ⟨.operator, text, position, .text (canonical text)⟩)
  | .token .identifier =>
    if wordOperators.contains (lowered text) then
      .ok (some ⟨.operator, text, position, .text (lowered text)⟩)
    else .ok (some ⟨.identifier, text, position, .text text⟩)
  | .token kind => .ok (some ⟨kind, text, position, .text text⟩)

end Lexeme

namespace Token

/-- The tokens of a text that begins at a position. -/
def scan (position : Nat) (cs : List Char) : Except LexError (List Token) :=
  match cs with
  | [] => .ok [⟨.endOfText, "", position, .undefined⟩]
  | c :: rest => do
    let (kind, length) := Lexeme.first c rest
    let found ← Lexeme.token? kind ((c :: rest).take length) position
    -- every lexeme has at least one character
    let others ← scan (position + length) (rest.drop (length - 1))
    return found.toList ++ others
termination_by cs.length
decreasing_by simp only [List.length_drop, List.length_cons]; omega

/-- The tokens of an expression text. -/
def ofText (source : String) : Except LexError (List Token) := scan 0 source.toList

end Token

end Questionnaire
