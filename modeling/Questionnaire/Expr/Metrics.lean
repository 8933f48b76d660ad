import Questionnaire.Expr.Basic

/-!
# The size of expressions

How deep an expression is, how many nodes it has, and which questions it reads, taken together in one pass from
the leaves to the root.
-/
namespace Questionnaire

/-- The size of one or several expressions: the greatest depth, the number of nodes, and the questions read. -/
structure Metrics where
  depth : Nat
  nodes : Nat
  references : List String
  deriving DecidableEq, Repr

namespace Metrics

/-- The size of a missing expression. -/
def none : Metrics := ⟨0, 0, []⟩

/-- The size of two expressions taken together. -/
def add (a b : Metrics) : Metrics :=
  ⟨max a.depth b.depth, a.nodes + b.nodes, Names.union a.references b.references⟩

/-- The size of several expressions taken together. -/
def sum (sizes : List Metrics) : Metrics := sizes.foldr add none

/-- A node that reads some questions itself. -/
def leaf (references : List String) : Metrics := ⟨0, 1, references⟩

/-- A node above others; the depth counts the steps down to the farthest leaf. -/
def above : List Metrics → Metrics
  | [] => leaf []
  | child :: rest => { child with depth := 1 + child.depth }.add (above rest)

end Metrics

namespace Expr

mutual

/-- The size of an expression. -/
def metrics : Expr → Metrics
  | literal _ => .leaf []
  | reference path => .leaf (rootOf path)
  | unary _ operand => .above [metrics operand]
  | binary _ left right => .above [metrics left, metrics right]
  | logical _ left right => .above [metrics left, metrics right]
  | call _ arguments => .above (metricsOf arguments)

def metricsOf : List Expr → List Metrics
  | [] => []
  | e :: rest => metrics e :: metricsOf rest

end

end Expr

end Questionnaire
