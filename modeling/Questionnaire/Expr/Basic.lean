import Questionnaire.Names
import Questionnaire.Path
import Questionnaire.Value.Equality

/-!
# Expressions

The trees of the logic language: literals, references to answers, operators and function calls.  A tree is
structure only; what it reads is a function of its nodes.
-/
namespace Questionnaire

inductive UnaryOp where
  | not
  | negate
  | empty
  | notEmpty
  deriving DecidableEq, Repr

/-- The operators on two numbers; a sum with a text joins texts instead. -/
inductive Arithmetic where
  | add
  | subtract
  | multiply
  | divide
  | modulo
  | power
  deriving DecidableEq, Repr

inductive BinaryOp where
  | arithmetic (op : Arithmetic)
  | equal
  | notEqual
  | relation (r : Relation)
  | contains
  | notContains
  deriving DecidableEq, Repr

/-- The operators whose right side is only looked at when the left side does not decide. -/
inductive LogicalOp where
  | and
  | or
  deriving DecidableEq, Repr

inductive Expr where
  | literal (v : Value)
  | reference (path : String)
  | unary (op : UnaryOp) (operand : Expr)
  | binary (op : BinaryOp) (left right : Expr)
  | logical (op : LogicalOp) (left right : Expr)
  | call (name : String) (arguments : List Expr)
  deriving Inhabited

def UnaryOp.symbol : UnaryOp → String
  | not => "!"
  | negate => "-"
  | empty => "empty"
  | notEmpty => "notempty"

def Arithmetic.symbol : Arithmetic → String
  | add => "+"
  | subtract => "-"
  | multiply => "*"
  | divide => "/"
  | modulo => "%"
  | power => "^"

def Relation.symbol : Relation → String
  | less => "<"
  | lessEqual => "<="
  | greater => ">"
  | greaterEqual => ">="

def BinaryOp.symbol : BinaryOp → String
  | arithmetic op => op.symbol
  | equal => "="
  | notEqual => "!="
  | relation r => r.symbol
  | contains => "contains"
  | notContains => "notcontains"

def LogicalOp.symbol : LogicalOp → String
  | and => "and"
  | or => "or"

namespace Expr

/-- The question that a path leads into. -/
def rootOf (path : String) : List String :=
  match Path.ofText path with
  | .ok p => [p.root]
  | .error _ => []

/-- The questions that a node reads itself. -/
def ownReferences : Expr → List String
  | reference path => rootOf path
  | _ => []

mutual

/-- An expression and all expressions below it, each before those below it. -/
def nodes : Expr → List Expr
  | literal v => [literal v]
  | reference path => [reference path]
  | unary op operand => unary op operand :: nodes operand
  | binary op left right => binary op left right :: (nodes left ++ nodes right)
  | logical op left right => logical op left right :: (nodes left ++ nodes right)
  | call name arguments => call name arguments :: nodesOf arguments

def nodesOf : List Expr → List Expr
  | [] => []
  | e :: rest => nodes e ++ nodesOf rest

end

/-- The expressions directly below a node, in order. -/
def children : Expr → List Expr
  | literal _ => []
  | reference _ => []
  | unary _ operand => [operand]
  | binary _ left right => [left, right]
  | logical _ left right => [left, right]
  | call _ arguments => arguments

theorem nodes_eq (e : Expr) : e.nodes = e :: nodesOf e.children := by
  cases e <;> simp [nodes, nodesOf, children]

theorem nodesOf_append (xs ys : List Expr) : nodesOf (xs ++ ys) = nodesOf xs ++ nodesOf ys := by
  induction xs with
  | nil => rfl
  | cons x rest ih => rw [List.cons_append, nodesOf, ih, nodesOf, List.append_assoc]

theorem length_nodesOf_reverse (xs : List Expr) : (nodesOf xs.reverse).length = (nodesOf xs).length := by
  induction xs with
  | nil => rfl
  | cons x rest ih => simp [nodesOf, nodesOf_append, ih, Nat.add_comm]

/-- The questions that the expressions on a stack read, added to those that were found before.  The top is taken off
and what is directly below it is put on, its last part on top, until nothing is left. -/
@[semireducible]
def collect : (stack : List Expr) → (found : List String) → List String
  | [], found => found
  | e :: stack, found => collect (e.children.reverse ++ stack) (Names.union (ownReferences e) found)
termination_by stack => (nodesOf stack).length
decreasing_by
  rw [nodesOf_append, List.length_append, length_nodesOf_reverse, nodesOf, nodes_eq]
  simp

/-- The set of questions that an expression reads. -/
def references (e : Expr) : List String := collect [e] []

end Expr

end Questionnaire
