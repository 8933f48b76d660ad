import Questionnaire.Value.Basic
import Questionnaire.Text.Blank

/-!
# Reference paths

A path names a place inside the answers: a question, then names and indexes that lead into its value, as in
`row.column` and `colors[0]`.  Names are separated by dots and may hold any characters but blanks, dots,
brackets and braces.
-/
namespace Questionnaire

/-- One step into a value: a field of a structured value, or an item of a sequence. -/
inductive Segment where
  | name (s : String)
  | index (n : Int)
  deriving DecidableEq, Repr

/-- A question and the steps into its value. -/
structure Path where
  root : String
  steps : List Segment
  deriving DecidableEq, Repr

/-- Why a text is no path. -/
inductive PathError where
  | empty
  | malformed (path : String)
  | indexTooLong
  deriving DecidableEq, Repr

/-- The message of an error; an index of too many digits has none. -/
def PathError.message? : PathError → Option String
  | .empty => some "empty reference path"
  | .malformed path => some ("invalid reference path '" ++ path ++ "'")
  | .indexTooLong => none

namespace Path

/-- Whether a character may stand in a name. -/
def isNameChar (c : Char) : Bool :=
  !Text.isBlank c && c != '.' && c != '[' && c != ']' && c != '\x7b' && c != '\x7d'

/-- The digits of each of the bracketed indexes that make up a text; none if it holds anything else.  Inside a
bracket, `digits` holds what was read since it opened. -/
def indexes? (digits : Option (List Char)) (cs : List Char) : Option (List (List Char)) :=
  match digits, cs with
  | none, [] => some []
  | none, c :: rest => if c == '[' then indexes? (some []) rest else none
  | some _, [] => none
  | some read, c :: rest =>
    if c == ']' then (if read.isEmpty then none else (indexes? none rest).map (read :: ·))
    else if Text.isDigit c then indexes? (some (read ++ [c])) rest
    else none

/-- The part of a path between two dots: a name and its indexes. -/
def part (path : String) (cs : List Char) : Except PathError (String × List Segment) :=
  let name := cs.takeWhile isNameChar
  match indexes? none (cs.dropWhile isNameChar) with
  | none => .error (.malformed path)
  | some groups =>
    if name.isEmpty then .error (.malformed path)
    else if groups.any (·.length > digitLimit) then .error .indexTooLong
    else .ok (String.ofList name, groups.map fun digits => .index (Text.digitsValue digits))

/-- The steps that the parts after the first one write. -/
def parts (path : String) : List (List Char) → Except PathError (List Segment)
  | [] => .ok []
  | cs :: rest => do
    let (name, indexes) ← part path cs
    return .name name :: indexes ++ (← parts path rest)

/-- A text cut at its dots: the first piece and the others. -/
def splitDots : List Char → List Char × List (List Char)
  | [] => ([], [])
  | c :: rest =>
    let (first, others) := splitDots rest
    if c == '.' then ([], first :: others) else (c :: first, others)

/-- The path that a text writes, blanks at its ends apart. -/
def ofText (text : String) : Except PathError Path :=
  let cs := Text.strip text.toList
  if cs.isEmpty then .error .empty
  else do
    let (first, others) := splitDots cs
    let (root, indexes) ← part text first
    return ⟨root, indexes ++ (← parts text others)⟩

/-- Whether a text writes a path. -/
def isValid (text : String) : Bool :=
  match ofText text with
  | .ok _ => true
  | .error _ => false

/-- One step into a value; undefined where the value has no such place. -/
def step (v : Value) : Segment → Value
  | .index n => match v with
    | .sequence items => if 0 ≤ n then items.getD n.toNat .undefined else .undefined
    | _ => .undefined
  | .name s => match v with
    | .structured fields => Fields.get fields s
    | _ => .undefined

/-- The value at a path. -/
def resolve (answers : Fields) (path : Path) : Value :=
  path.steps.foldl step (Fields.get answers path.root)

end Path

end Questionnaire
