import Questionnaire.Logic.Feedback

/-!
# Dependencies

The bindings that do not feed back into themselves, put in an order in which every writer of a question comes
before every reader of it, and the part of them that a change of some answers can reach.

The order goes by level: a question that nothing writes has level zero, a written one lies one above the deepest
question that a writer of it reads.  Levels are found by a recursion that keeps a draft of what it has found.
-/
namespace Questionnaire

/-- The greatest of some numbers; zero if there are none. -/
def greatestOf (ns : List Nat) : Nat := ns.foldr max 0

namespace Binding

/-- Puts a binding in front of the first one that does not come before it in definition order. -/
def insertInOrder (b : Binding) : List Binding → List Binding
  | [] => [b]
  | other :: rest => if b.order ≤ other.order then b :: other :: rest else other :: insertInOrder b rest

/-- Bindings in definition order. -/
def inOrder (bindings : List Binding) : List Binding := bindings.foldr insertInOrder []

end Binding

namespace Ranking

/-- The questions that some bindings write. -/
def written (bindings : List Binding) : List String :=
  Names.ofList ((bindings.filter Binding.writesValue).map (·.owner))

/-- The bindings that write a question. -/
def writers (bindings : List Binding) (name : String) : List Binding :=
  bindings.filter fun b => b.writesValue && b.owner == name

/-- Levels in the making: a question has its level, or a placeholder as long as its level is being found. -/
abbrev Draft := Table String (Option Nat)

/-- The greatest number that is found for some things, one after the other; zero if there are none. -/
def greatest {α : Type} (find : α → StateT Draft Option Nat) : List α → StateT Draft Option Nat
  | [] => return 0
  | x :: rest => do
    let n ← find x
    return max n (← greatest find rest)

/-- Finds the rank of a binding, the level of the deepest question that it reads. -/
def rank (level : String → StateT Draft Option Nat) (b : Binding) : StateT Draft Option Nat :=
  greatest level b.references

/-- Finds what lies one above the deepest question that one of some bindings reads. -/
def above (level : String → StateT Draft Option Nat) (writers : List Binding) : StateT Draft Option Nat :=
  greatest (fun b => do return 1 + (← rank level b)) writers

/-- Finds the level of a question, at most `depth` questions deep.  A level that is in the draft is taken from there;
`unfinished` is what a placeholder counts as, and if it counts as nothing then a search that meets one ends without a
level. -/
def levelWithin (bindings : List Binding) (unfinished : Option Nat) :
    (depth : Nat) → (name : String) → StateT Draft Option Nat
  | 0, _ => failure
  | depth + 1, name => do
    match (← get).find? name with
    | some (some n) => return n
    | some none => unfinished
    | none =>
      modify (·.set name none)
      let n ← above (levelWithin bindings unfinished depth) (writers bindings name)
      modify (·.set name (some n))
      return n

/-- Finds the level of a question.  Without feedback no question lies deeper than there are written ones. -/
def level (bindings : List Binding) (unfinished : Option Nat) (name : String) : StateT Draft Option Nat :=
  levelWithin bindings unfinished ((written bindings).length + 1) name

/-- The ranks of some bindings, each under the number of its binding. -/
def ranks (bindings : List Binding) (unfinished : Option Nat) : Option (Table Nat Nat) :=
  (bindings.mapM fun b => do return (b.order, ← rank (level bindings unfinished) b)).run' []

/-- The rank under the number of a binding; zero if there is none. -/
def rankOf (ranks : Table Nat Nat) (b : Binding) : Nat := (ranks.find? b.order).getD 0

/-- Bindings by rank, and within a rank in the order given. -/
def sort (rank : Binding → Nat) (bindings : List Binding) : List Binding :=
  (List.range (greatestOf (bindings.map rank) + 1)).flatMap fun r =>
    bindings.filter fun b => rank b == r

end Ranking

/-- The bindings in use, in definition order and so that every writer of a question comes before every reader of
it, and the bindings that are left out for feeding back into themselves. -/
structure Dependencies where
  accepted : List Binding
  ordered : List Binding
  rejected : List (Binding × ConfigError)

namespace Dependencies

/-- Leaves out the bindings that feed back into themselves and orders the others.  A placeholder counts as level
zero. -/
def ofBindings (bindings : List Binding) : Dependencies :=
  let bindings := Binding.inOrder bindings
  let accepted := bindings.filter fun b => (Feedback.cycle? bindings b).isNone
  let ranks := (Ranking.ranks accepted (some 0)).getD []
  { accepted
    ordered := Ranking.sort (Ranking.rankOf ranks) accepted
    rejected := bindings.filterMap fun b =>
      (Feedback.cycle? bindings b).map fun path => (b, ⟨.cycle b.label path, b.owner⟩) }

/-- The bindings that read a question. -/
def readers (d : Dependencies) (name : String) : List Binding := d.accepted.filter (·.reads name)

/-- The bindings that read one of some questions, in definition order. -/
def affected (d : Dependencies) (changed : List String) : List Binding :=
  d.accepted.filter fun b => changed.any b.reads

/-- How far a change has spread: the questions whose readers are still to be looked at, last in first out, all
questions that were ever among them, and the bindings found. -/
structure Spread where
  pending : List String
  seen : List String
  found : List Binding

/-- A reader is found unless it is excluded or was found before, and then what it writes is to be looked at, unless it
was seen before. -/
def Spread.visit (excluded : List Nat) (s : Spread) (b : Binding) : Spread :=
  if excluded.contains b.order || s.found.any (·.order == b.order) then s
  else if b.writesValue && !s.seen.contains b.owner then
    { pending := b.owner :: s.pending, seen := b.owner :: s.seen, found := b :: s.found }
  else { s with found := b :: s.found }

/-- Looks at the readers of one question after the other, of `steps` questions at most. -/
def spread (d : Dependencies) (excluded : List Nat) : (steps : Nat) → Spread → Spread
  | 0, s => s
  | steps + 1, s =>
    match s.pending with
    | [] => s
    | name :: rest => d.spread excluded steps ((d.readers name).foldl (Spread.visit excluded) { s with pending := rest })

/-- How far a change of some questions spreads.  A question is looked at because it changed, or once because a binding
in use writes it. -/
def spreadOf (d : Dependencies) (changed : List String) (excluded : List Nat) : Spread :=
  d.spread excluded (changed.length + d.accepted.length) ⟨changed.reverse, changed, []⟩

/-- The bindings that a change of some questions can reach, writers first.  Excluded bindings are left out and
pass nothing on. -/
def propagation (d : Dependencies) (changed : List String) (excluded : List Nat) : List Binding :=
  let found := (d.spreadOf changed excluded).found.map (·.order)
  d.ordered.filter fun b => found.contains b.order

end Dependencies

end Questionnaire
