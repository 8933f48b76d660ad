import Questionnaire.Expr.Basic
import Questionnaire.Function.Library

/-!
# Evaluation

The value of an expression under the current answers, today's date, and a function library.  Evaluation is a
function: the outcome of a node depends on the outcomes of its children alone.  A call passes the outcomes of
its arguments on, so that the conditional function can leave one of them aside.
-/
namespace Questionnaire

/-- What an expression is evaluated against. -/
structure Context where
  answers : Fields
  today : Date
  functions : Library

/-- A number beyond the range of doubles in a calculation is reported under the name of the calculation. -/
def inRange (cause : EvalError) : Except Stop α → Except Stop α
  | .error (.fault .overflow) => .error (.error cause)
  | outcome => outcome

def liftError : Except EvalError α → Except Stop α
  | .ok a => .ok a
  | .error e => .error (.error e)

namespace Arithmetic

/-- The outcome of a power. -/
def raise (a b : Number) : Except Stop Number :=
  match a.pow b with
  | .ok n => .ok n
  | .error .tooLarge => .error (.error .powerTooLarge)
  | .error .undefined => .error (.error .powerUndefined)
  | .error .notReal => .error (.error .powerNotReal)
  | .error .overflow => .error (.fault .overflow)

/-- An operator applied to two numbers. -/
def onNumbers (op : Arithmetic) (a b : Number) : Except Stop Number :=
  match op with
  | add => liftFault (a.add b)
  | subtract => liftFault (a.sub b)
  | multiply => liftFault (a.mul b)
  | divide => if b.isZero then .error (.error .division) else liftFault (a.div b)
  | modulo => if b.isZero then .error (.error .modulo) else liftFault (a.mod b)
  | power => raise a b

/-- Whether an operator joins its operands as texts. -/
def joinsTexts : Arithmetic → Value → Value → Bool
  | add, .text _, _ => true
  | add, _, .text _ => true
  | _, _, _ => false

/-- An operator applied to two values. -/
def apply (op : Arithmetic) (left right : Value) : Except Stop Value :=
  if op.joinsTexts left right then do
    let first ← liftFault left.toText
    return .text (first ++ (← liftFault right.toText))
  else do
    let a ← left.toNumber
    let b ← right.toNumber
    return .number (← inRange (.operatorRange op.symbol) (op.onNumbers a b)).normalize

end Arithmetic

/-- An operator applied to one value. -/
def UnaryOp.apply (op : UnaryOp) (v : Value) : Except Stop Value :=
  match op with
  | not => .ok (.boolean (!v.truthy))
  | negate => do return .number (← v.toNumber).neg.normalize
  | empty => .ok (.boolean v.isEmpty)
  | notEmpty => .ok (.boolean (!v.isEmpty))

namespace Context

/-- The value at a path of the answers. -/
def reference (c : Context) (path : String) : Except Stop Value :=
  match Path.ofText path with
  | .ok p => .ok (p.resolve c.answers)
  | .error _ => .error (.fault .badValue)

/-- An operator between two values; the two that look for a part are functions of the library. -/
def binary (c : Context) (op : BinaryOp) (left right : Value) : Except Stop Value :=
  let viaLibrary : Except Stop Value := do
    let f ← liftError (c.functions.require op.symbol)
    f.builtin.run c.today [left, right]
  match op with
  | .equal => liftFault (Value.boolean <$> left.equal right)
  | .notEqual => liftFault ((Value.boolean ∘ not) <$> left.equal right)
  | .relation r => liftFault (Value.boolean <$> r.holds left right)
  | .contains => viaLibrary
  | .notContains => viaLibrary
  | .arithmetic op => op.apply left right

/-- The outcome of a call from the outcomes of its arguments. -/
def call (c : Context) (name : String) (outcomes : List (Except Stop Value)) : Except Stop Value := do
  let f ← liftError (c.functions.require name)
  liftError (f.checkArity outcomes.length)
  if f.builtin.isLazy then inRange (.callRange name) (Builtin.choose outcomes)
  else
    let values ← outcomes.mapM id
    inRange (.callRange name) (f.builtin.run c.today values)

end Context

namespace Expr

mutual

/-- The outcome of an expression. -/
def evaluate (c : Context) : Expr → Except Stop Value
  | literal v => .ok v
  | reference path => c.reference path
  | unary op operand => do op.apply (← evaluate c operand)
  | binary op left right => do
    let first ← evaluate c left
    c.binary op first (← evaluate c right)
  | logical op left right => do
    let first := (← evaluate c left).truthy
    match op, first with
    | .and, false => return .boolean false
    | .or, true => return .boolean true
    | _, _ => return .boolean (← evaluate c right).truthy
  | call name arguments => c.call name (outcomes c arguments)

/-- The outcomes of several expressions. -/
def outcomes (c : Context) : List Expr → List (Except Stop Value)
  | [] => []
  | e :: rest => evaluate c e :: outcomes c rest

end

/-- Whether an expression holds. -/
def holds (c : Context) (e : Expr) : Except Stop Bool := do return (← evaluate c e).truthy

end Expr

end Questionnaire
