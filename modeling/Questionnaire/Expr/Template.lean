import Questionnaire.Path

/-!
# Display texts

A display text holds references in braces between literal text.  Braces that enclose no path, or are never
closed, are literal text like any other.  Literal parts are never empty, and never stand side by side.
-/
namespace Questionnaire

inductive TemplatePart where
  | text (s : String)
  | reference (path : String)
  deriving DecidableEq, Repr

namespace Template

/-- A literal character in front of some parts; it joins a literal part that follows. -/
def addChar (c : Char) : List TemplatePart → List TemplatePart
  | .text s :: rest => .text (String.singleton c ++ s) :: rest
  | parts => .text (String.singleton c) :: parts

/-- The path that stands before the first closing brace, after an opening one, and the text behind the brace. -/
def reference? (cs : List Char) : Option (String × List Char) :=
  let path := String.ofList (Text.strip (cs.takeWhile (· != '\x7d')))
  match cs.dropWhile (· != '\x7d') with
  | _ :: after => if Path.isValid path then some (path, after) else none
  | [] => none

theorem reference?_shorter {cs after : List Char} {path : String} (h : reference? cs = some (path, after)) :
    after.length < cs.length := by
  have notLonger := (List.dropWhile_sublist (· != '\x7d') (l := cs)).length_le
  unfold reference? at h
  split at h
  · rename_i first rest found
    rw [found, List.length_cons] at notLonger
    dsimp only at h
    split at h
    · cases h; omega
    · cases h
  · cases h

/-- The parts of a text. -/
def parts (cs : List Char) : List TemplatePart :=
  match cs with
  | [] => []
  | c :: rest =>
    if c == '\x7b' then
      match h : reference? rest with
      | some (path, after) =>
        have := reference?_shorter h
        .reference path :: parts after
      | none => addChar c (parts rest)
    else addChar c (parts rest)
termination_by cs.length

/-- The parts of a display text. -/
def ofText (source : String) : List TemplatePart := parts source.toList

end Template

end Questionnaire
