import Questionnaire.Logic.Binding

/-!
# Feedback

A binding that writes a value makes an edge from every question it reads to the question it writes.  A binding
feeds back into itself when a path of such edges leads from its owner to a question it reads.
-/
namespace Questionnaire.Feedback

/-- The questions that are written from a question, in order. -/
def successors (bindings : List Binding) (name : String) : List String :=
  Names.ofList ((bindings.filter fun b => b.writesValue && b.reads name).map (·.owner))

/-- The questions that writing bindings read. -/
def sources (bindings : List Binding) : List String :=
  Names.ofList ((bindings.filter Binding.writesValue).flatMap (·.references))

/-- Goes through the successors of a question at the end of a path: a target among them ends the search with
the path to it; the others are put on the stack unless they were seen. -/
def visit (targets path : List String) :
    (names seen : List String) → (stack : List (List String)) →
      Except (List String) (List String × List (List String))
  | [], seen, stack => .ok (seen, stack)
  | name :: rest, seen, stack =>
    if targets.contains name then .error (path ++ [name])
    else if seen.contains name then visit targets path rest seen stack
    else visit targets path rest (name :: seen) ((path ++ [name]) :: stack)

/-- Searches depth first for a path to a target, in at most `steps` steps; the stack holds the paths to the
questions that are still to be looked at. -/
def search (bindings : List Binding) (targets : List String) :
    (steps : Nat) → (seen : List String) → (stack : List (List String)) → Option (List String)
  | 0, _, _ => none
  | _, _, [] => none
  | steps + 1, seen, path :: stack =>
    match visit targets path (successors bindings (path.getLast?.getD "")) seen stack with
    | .error found => some found
    | .ok (seen, stack) => search bindings targets steps seen stack

/-- A path of edges from a question to one of the targets.  Every question is looked at once at most, so the
owners of all bindings and the start bound the steps. -/
def path? (bindings : List Binding) (start : String) (targets : List String) : Option (List String) :=
  if targets.contains start then some [start]
  else search bindings targets (bindings.length + 1) [start] [[start]]

/-- The path on which a binding feeds back into itself, from its owner to its owner. -/
def cycle? (bindings : List Binding) (b : Binding) : Option (List String) :=
  if b.writesValue then (path? bindings b.owner b.references).map (· ++ [b.owner]) else none

/-- The numbers of all bindings that feed back into themselves, each with a path. -/
def cycles (bindings : List Binding) : List (Nat × List String) :=
  bindings.filterMap fun b => (cycle? bindings b).map (b.order, ·)

end Questionnaire.Feedback
