import Questionnaire.Number.Basic
import Questionnaire.Table

/-!
# Keys

The key of a field is nothing, a boolean, a number or a text.  A boolean is the same key as the number it stands
for, and numbers are the same key when they are equal, so a key is told apart by its identity alone.  Numbers are
ordered by size and texts by their characters; keys of different kinds have no common order.
-/
namespace Questionnaire

inductive Key where
  | undefined
  | boolean (b : Bool)
  | number (n : Number)
  | text (s : String)
  deriving Inhabited, Repr

namespace Key

/-- The number that a boolean or a number stands for. -/
def numeric? : Key → Option Number
  | boolean b => some (.int (if b then 1 else 0))
  | number n => some n
  | _ => none

/-- The text of a key that is one. -/
def text? : Key → Option String
  | text s => some s
  | _ => none

/-- What a key is told apart by: its number, in the same form for equal numbers, and its text. -/
def identity (key : Key) : Option Number × Option String := (key.numeric?.map Number.normalize, key.text?)

/-- Two keys are the same when they have one identity. -/
instance : BEq Key := ⟨fun a b => a.identity == b.identity⟩

theorem same_iff {a b : Key} : (a == b) = true ↔ a.identity = b.identity := by
  change (a.identity == b.identity) = true ↔ a.identity = b.identity
  exact beq_iff_eq

instance : EquivBEq Key where
  rfl := same_iff.2 rfl
  symm h := same_iff.2 (same_iff.1 h).symm
  trans h h' := same_iff.2 ((same_iff.1 h).trans (same_iff.1 h'))

/-- Texts are the same key when they are equal. -/
@[simp] theorem text_same_text (s t : String) : (text s == text t) = (s == t) := by
  rw [Bool.eq_iff_iff, same_iff]
  simp [identity, text?, numeric?]

/-- Whether a key comes before another in the order of their kind. -/
def before : Key → Key → Bool
  | text s, text t => s < t
  | a, b => match a.numeric?, b.numeric? with
    | some m, some n => m.lt n
    | _, _ => false

/-- Whether keys have a common order: there is none between different kinds. -/
def haveOrder (keys : List Key) : Bool :=
  keys.length ≤ 1 || keys.all (·.text?.isSome) || keys.all (·.numeric?.isSome)

end Key

namespace Table

/-- Puts an entry behind all those at the front that come before it. -/
def insertInOrder (entry : Key × α) : Table Key α → Table Key α
  | [] => [entry]
  | other :: rest => if other.1.before entry.1 then other :: insertInOrder entry rest else entry :: other :: rest

/-- The entries in the order of their keys, if these have one. -/
def inOrder? (table : Table Key α) : Option (Table Key α) :=
  if Key.haveOrder table.keys then some (table.foldr insertInOrder []) else none

end Table

end Questionnaire
