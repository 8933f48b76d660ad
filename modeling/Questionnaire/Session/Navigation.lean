import Questionnaire.Session.Basic

/-!
# Navigation

The respondent is on one page at a time.  Going on and going back pass hidden pages by; a jump leads to a page by
its name, or to the page that holds a question of that name.
-/
namespace Questionnaire.Engine

/-- Whether the page at an index is visible. -/
def pageVisible (e : Engine) (s : Session) (index : Nat) : Bool :=
  match e.survey.pages[index]? with
  | some p => e.isVisible s p.name
  | none => false

/-- The page that the respondent is on. -/
def currentPage? (e : Engine) (n : Navigator) : Option Page := e.survey.pages[n.index]?

/-- The first of `count` pages from an index on that is visible, or the page after them. -/
def firstVisible (e : Engine) (s : Session) : (count index : Nat) → Nat
  | 0, index => index
  | count + 1, index => if e.pageVisible s index then index else e.firstVisible s count (index + 1)

/-- The index of the next page: the first visible one, or the last page if none before it is visible. -/
def nextIndex (e : Engine) (s : Session) (index : Nat) : Nat :=
  let last := e.survey.pages.length - 1
  if index < last then e.firstVisible s (last - (index + 1)) (index + 1) else index

/-- The index of the page before one: the last visible one, or the first page if none after it is visible. -/
def previousIndex (e : Engine) (s : Session) : Nat → Nat
  | 0 => 0
  | index + 1 =>
    if index == 0 || e.pageVisible s index then index else e.previousIndex s index

/-- Goes on to the next page. -/
def goOn (e : Engine) (s : Session) (n : Navigator) : Navigator := { n with index := e.nextIndex s n.index }

/-- Goes back to the page before. -/
def goBack (e : Engine) (s : Session) (n : Navigator) : Navigator := { n with index := e.previousIndex s n.index }

/-- Whether a page after the current one is visible. -/
def hasVisibleAfter (e : Engine) (s : Session) (index : Nat) : Bool :=
  (List.range e.survey.pages.length).any fun i => index < i && e.pageVisible s i

/-- The index of the page that a jump leads to. -/
def jumpIndex? (e : Engine) (target : String) : Option Nat :=
  match e.survey.pages.findIdx? (·.name == target) with
  | some index => some index
  | none => e.survey.pages.findIdx? (·.holds target)

/-- Jumps to a page, if there is one for the target. -/
def jump (e : Engine) (target : String) (n : Navigator) : Navigator :=
  match e.jumpIndex? target with
  | some index => { n with index }
  | none => n

/-- Jumps as a skip asks for; one that names no target leads nowhere. -/
def skip (e : Engine) (target : Value) (n : Navigator) : Navigator :=
  match target with
  | .text name => if name.isEmpty then n else e.jump name n
  | _ => n

/-- Completes the survey, on behalf of a trigger or of the host. -/
def complete (trigger : Option String) (n : Navigator) : Navigator :=
  { n with completed := true, completedBy := trigger }

end Questionnaire.Engine
