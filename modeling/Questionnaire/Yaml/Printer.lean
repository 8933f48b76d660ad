import Questionnaire.Text.Quoted
import Questionnaire.Value.Shown
import Questionnaire.Yaml.Scalar

/-!
# Values as YAML text

Values are written in block style, the fields of a mapping in the order of their keys, or as they come if these
have no common order.  A sequence that is the value of a field stands at the column of its key.  A text is plain
if it reads back as itself, else in single quotes; with characters outside ASCII, controls, or blanks around line
breaks it is in double quotes with escapes.
-/
namespace Questionnaire.Yaml

/-! ## Texts -/

/-- Whether the characters of a text after its first one leave it plain: no colon before a space, and no mark of
a comment after one. -/
def plainInside (afterSpace : Bool) : List Char → Bool
  | [] => true
  | c :: rest =>
    !(c == ':' && endsWord rest) && !(c == '#' && afterSpace) && plainInside (isSpace c) rest

/-- Whether a text could be a plain scalar of a block, whatever it is then taken for. -/
def canBePlain (cs : List Char) : Bool :=
  match cs with
  | [] => false
  | first :: rest =>
    let startsWell :=
      if first == '-' || first == '?' || first == ':' then !endsWord rest
      else !"#,[]\x7b\x7d&*!|>'\"%@\x60 ".toList.contains first
    startsWell && plainInside (isSpace first) rest && cs.getLast? != some ' ' &&
      !(cs.take 3 == ['-', '-', '-'] || cs.take 3 == ['.', '.', '.'])

/-- The characters that are written as themselves outside double quotes, line breaks among them. -/
def isOrdinary (c : Char) : Bool := c == '\n' || (' ' ≤ c && c ≤ '~')

/-- Whether a blank stands next to a line break. -/
def hasBlankAtBreak : List Char → Bool
  | a :: b :: rest =>
    (a == ' ' && b == '\n') || (a == '\n' && b == ' ') || hasBlankAtBreak (b :: rest)
  | _ => false

/-- The ways to write a text. -/
inductive Style where
  | plain
  | singleQuoted
  | doubleQuoted
  deriving DecidableEq, Repr

/-- The way in which a text is written. -/
def Style.ofText (s : String) : Style :=
  let cs := s.toList
  if !cs.all isOrdinary || hasBlankAtBreak cs then .doubleQuoted
  else if PlainForm.ofText s == .text && canBePlain cs && !cs.contains '\n' then .plain
  else .singleQuoted

def spaces (count : Nat) : List Char := List.replicate count ' '

/-- The characters between single quotes.  A run of line breaks is written with one more, and the text after it
begins at the column `indent`; `inRun` says whether a line break comes just before. -/
def singleQuotedChars (indent : Nat) (inRun : Bool) : List Char → List Char
  | [] => if inRun then spaces indent else []
  | c :: rest =>
    if c == '\n' then (if inRun then ['\n'] else ['\n', '\n']) ++ singleQuotedChars indent true rest
    else
      (if inRun then spaces indent else []) ++ (if c == '\'' then ['\'', '\''] else [c]) ++
        singleQuotedChars indent false rest

/-- The letters of the escapes that are written. -/
def writtenEscapes : List (Nat × Char) :=
  [(0x0, '0'), (0x7, 'a'), (0x8, 'b'), (0x9, 't'), (0xA, 'n'), (0xB, 'v'), (0xC, 'f'), (0xD, 'r'), (0x1B, 'e'),
    (0x22, '"'), (0x5C, '\\'), (0x85, 'N'), (0xA0, '_'), (0x2028, 'L'), (0x2029, 'P')]

/-- One character between double quotes. -/
def doubleQuotedChar (c : Char) : List Char :=
  let code (mark : Char) (width : Nat) : List Char :=
    '\\' :: mark :: (Text.hex width c.toNat).map Char.toUpper
  match writtenEscapes.lookup c.toNat with
  | some letter => ['\\', letter]
  | none =>
    if ' ' ≤ c && c ≤ '~' then [c]
    else if c.toNat < 0x100 then code 'x' 2
    else if c.toNat < 0x10000 then code 'u' 4
    else code 'U' 8

/-- A text whose further lines, if it has any, begin at the column `indent`. -/
def textAt (indent : Nat) (s : String) : String :=
  match Style.ofText s with
  | .plain => s
  | .singleQuoted => String.ofList ('\'' :: singleQuotedChars indent false s.toList ++ ['\''])
  | .doubleQuoted => String.ofList ('"' :: s.toList.flatMap doubleQuotedChar ++ ['"'])

/-- A double.  Its digits have a point, also before an exponent. -/
def doubleText : Double → String
  | .nan => ".nan"
  | .infinity negative => if negative then "-.inf" else ".inf"
  | d =>
    let cs := d.text.toList
    let digits := cs.takeWhile (· != 'e')
    if cs.contains '.' || digits.length == cs.length then d.text
    else String.ofList (digits ++ ['.', '0'] ++ cs.drop digits.length)

/-! ## Values -/

/-- The blanks before a column. -/
def margin (indent : Nat) : String := String.ofList (spaces indent)

/-- A key as a scalar whose further lines, if it has any, begin at the column `indent`. -/
def keyAt (indent : Nat) : Key → Except Fault String
  | .undefined => .ok "null"
  | .boolean b => .ok (if b then "true" else "false")
  | .number (.int n) => exactText n
  | .number (.float d) => .ok (doubleText d)
  | .text s => .ok (textAt indent s)

/-- A key is written before its colon unless it is a text that is empty or of several lines; such a text stands on
a line of its own behind a question mark, and the value on the next. -/
def isSimpleKey : Key → Bool
  | .text s => !s.isEmpty && !s.toList.any fun c => isBreak c || c.toNat == 0x85
  | _ => true

/-- How a value is laid out. -/
inductive Layout where
  /-- In the line of what comes before it. -/
  | inline (text : String)
  | sequence (lines : String)
  | mapping (lines : String)

/-- A value as the item of a sequence, or on a line of its own behind a mark: a block begins right there. -/
def Layout.behindMark : Layout → String
  | inline text => text ++ "\n"
  | sequence lines | mapping lines => lines

mutual

/-- A value of which every line but the first begins at the column `indent`; `inField` says whether it is the
value of a field, where a sequence is not indented further. -/
def layout (indent : Nat) (inField : Bool) : Value → Except Fault Layout
  | .undefined => do return .inline (← keyAt indent .undefined)
  | .boolean b => do return .inline (← keyAt indent (.boolean b))
  | .number n => do return .inline (← keyAt indent (.number n))
  | .text s => do return .inline (← keyAt indent (.text s))
  | .sequence [] => .ok (.inline "[]")
  | .structured [] => .ok (.inline "\x7b\x7d")
  | .sequence (v :: vs) => do
    let column := if inField then indent - 2 else indent
    return .sequence ((margin column).intercalate (← layoutItems column (v :: vs)))
  | .structured (field :: fields) => do
    let entries ← layoutFields indent (field :: fields)
    return .mapping ((margin indent).intercalate ((entries.inOrder?.getD entries).map (·.2)))

/-- The items of a sequence whose marks stand at a column. -/
def layoutItems (column : Nat) : List Value → Except Fault (List String)
  | [] => .ok []
  | v :: rest => do
    let first ← layout (column + 2) false v
    return ("- " ++ first.behindMark) :: (← layoutItems column rest)

/-- The fields of a mapping whose keys stand at a column, each under its key. -/
def layoutFields (column : Nat) : List (Key × Value) → Except Fault (Table Key String)
  | [] => .ok []
  | (key, v) :: rest => do
    let name ← keyAt (column + 2) key
    let simple := isSimpleKey key
    let written ← layout (column + 2) simple v
    let entry :=
      if !simple then "? " ++ name ++ "\n" ++ margin column ++ ": " ++ written.behindMark
      else match written with
        | .inline text => name ++ ": " ++ text ++ "\n"
        | .sequence lines => name ++ ":\n" ++ margin column ++ lines
        | .mapping lines => name ++ ":\n" ++ margin (column + 2) ++ lines
    return (key, entry) :: (← layoutFields column rest)

end

/-- The text of a value. -/
def print (v : Value) : Except Fault String := do return (← layout 0 false v).behindMark

end Questionnaire.Yaml
