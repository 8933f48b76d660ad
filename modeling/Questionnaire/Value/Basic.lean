import Questionnaire.Value.Key

/-!
# Answer values

An answer is undefined, a boolean, a number, a text, a sequence of values, or a structured value of fields.  Fields
keep the order in which they were given; no two of them have the same key.
-/
namespace Questionnaire

inductive Value where
  | undefined
  | boolean (b : Bool)
  | number (n : Number)
  | text (s : String)
  | sequence (items : List Value)
  | structured (fields : List (Key × Value))
  deriving Inhabited, Repr

/-- Values under keys: the fields of a structured value, or the answers of a session. -/
abbrev Fields := Table Key Value

/-- The kinds of value, as the language names them. -/
inductive Kind where
  | undefined
  | boolean
  | number
  | text
  | sequence
  | structured
  deriving DecidableEq, Repr

def Kind.name : Kind → String
  | .undefined => "undefined"
  | .boolean => "boolean"
  | .number => "number"
  | .text => "text"
  | .sequence => "sequence"
  | .structured => "structured"

namespace Value

def int (n : Int) : Value := .number (.int n)

def float (d : Double) : Value := .number (.float d)

def kind : Value → Kind
  | undefined => .undefined
  | boolean _ => .boolean
  | number _ => .number
  | text _ => .text
  | sequence _ => .sequence
  | structured _ => .structured

/-- The name of a value's type in messages about a definition; integers and doubles have two names. -/
def typeName : Value → String
  | undefined => "NoneType"
  | boolean _ => "bool"
  | number (.int _) => "int"
  | number (.float _) => "float"
  | text _ => "str"
  | sequence _ => "list"
  | structured _ => "dict"

def isDefined : Value → Bool
  | undefined => false
  | _ => true

/-- Nothing is there: no value, no characters, no items or no fields. -/
def isEmpty : Value → Bool
  | undefined => true
  | text s => s.isEmpty
  | sequence items => items.isEmpty
  | structured fields => fields.isEmpty
  | _ => false

/-- A value as a condition: false, zero and what is empty do not hold, all else does. -/
def truthy : Value → Bool
  | boolean b => b
  | number n => !n.isZero
  | v => !v.isEmpty

def isNumber : Value → Bool
  | number _ => true
  | _ => false

/-- Whether a value is a text that writes a number. -/
def isNumericText : Value → Bool
  | text s => (Number.ofText? s).isSome
  | _ => false

/-- The number that a boolean or a number stands for. -/
def numeric? : Value → Option Number
  | boolean b => some (.int (if b then 1 else 0))
  | number n => some n
  | _ => none

/-- The numbers of two values that are compared as numbers: one of them is a number and the other is a number
too or a text that writes one. -/
def numericPair? : Value → Value → Option (Number × Number)
  | number a, number b => some (a, b)
  | number a, text t => (Number.ofText? t).map (a, ·)
  | text s, number b => (Number.ofText? s).map (·, b)
  | _, _ => none

/-- A value as a key; sequences and structured values are none. -/
def key? : Value → Option Key
  | undefined => some .undefined
  | boolean b => some (.boolean b)
  | number n => some (.number n)
  | text s => some (.text s)
  | _ => none

end Value

/-- A key as a value. -/
def Key.value : Key → Value
  | undefined => .undefined
  | boolean b => .boolean b
  | number n => .number n
  | text s => .text s

namespace Fields

/-- The value under a key; a field that is missing is undefined. -/
def lookUp (fields : Fields) (key : Key) : Value := (fields.find? key).getD .undefined

/-- The value of the field of a name. -/
def get (fields : Fields) (name : String) : Value := fields.lookUp (.text name)

end Fields

end Questionnaire
