/-!
# Failures

Four kinds of failure have rules of their own: text that cannot be split into tokens, tokens that form no
expression, expressions that have no value under the current answers, and definitions that cannot work.  Each
is a cause, and its wording is a function of the cause.

A `Fault` is what remains: an operation met data that no rule covers.  It is not collected as a diagnostic but
ends the operation.
-/
namespace Questionnaire

/-- What no rule covers: data of the wrong type, data of the right type with a value that does not work,
numbers beyond the range of an operation, and calls that are nested too deep. -/
inductive Fault where
  | wrongType
  | badValue
  | overflow
  | tooDeep
  deriving DecidableEq, Repr

/-- Why a text cannot be split into tokens. -/
inductive LexCause where
  | unexpectedCharacter (c : Char)
  | unterminatedString
  | unterminatedReference
  | invalidReference (raw : String)
  | numberTooLong (length : Nat)
  deriving DecidableEq, Repr

structure LexError where
  cause : LexCause
  position : Nat
  deriving DecidableEq, Repr

def LexCause.text : LexCause → String
  | .unexpectedCharacter c => "Unexpected character '" ++ String.singleton c ++ "'"
  | .unterminatedString => "Unterminated string literal"
  | .unterminatedReference => "Unterminated reference, missing '\x7d'"
  | .invalidReference raw => s!"Invalid reference '{raw}'"
  | .numberTooLong length => s!"Number literal too long ({length} digits)"

def LexError.message (e : LexError) : String :=
  "Lex error at position " ++ toString e.position ++ ": " ++ e.cause.text

/-- Why tokens form no expression. -/
inductive ParseCause where
  | emptyExpression
  | trailingToken (text : String)
  | unclosedGroup
  | unclosedArguments
  | invalidReference (text : String)
  | missingOperand
  | unexpectedToken (text : String)
  deriving DecidableEq, Repr

structure ParseError where
  cause : ParseCause
  position : Nat
  deriving DecidableEq, Repr

def ParseCause.text : ParseCause → String
  | .emptyExpression => "Empty expression"
  | .trailingToken text => s!"Unexpected token '{text}'"
  | .unclosedGroup => "Expected ')' after grouped expression"
  | .unclosedArguments => "Expected ',' or ')' in argument list"
  | .invalidReference text => s!"Invalid reference '{text}'"
  | .missingOperand => "Unexpected end of expression"
  | .unexpectedToken text => s!"Unexpected token '{text}'"

/-- What would have been accepted instead. -/
def ParseCause.expected : ParseCause → String
  | .emptyExpression => "an expression"
  | .trailingToken _ => "end of expression"
  | .unclosedGroup => "')'"
  | .unclosedArguments => "',' or ')'"
  | .invalidReference _ => "a question name"
  | .missingOperand => "an operand"
  | .unexpectedToken _ => "an operand"

def ParseError.message (e : ParseError) : String :=
  "Parse error at position " ++ toString e.position ++ ": " ++ e.cause.text ++
    " (expected " ++ e.cause.expected ++ ")"

/-- The kinds of evaluation failure. -/
inductive EvalKind where
  | typeMismatch
  | divisionByZero
  | unknownFunction
  | arityMismatch
  deriving DecidableEq, Repr

def EvalKind.name : EvalKind → String
  | .typeMismatch => "TypeMismatch"
  | .divisionByZero => "DivisionByZero"
  | .unknownFunction => "UnknownFunction"
  | .arityMismatch => "ArityMismatch"

/-- Why an expression has no value under the current answers. -/
inductive EvalError where
  /-- A value of the named kind, shown as text, stands where a number is needed. -/
  | notANumber (kind shown : String)
  | notADate (shown : String)
  | division
  | modulo
  | operatorRange (op : String)
  | powerTooLarge
  | powerUndefined
  | powerNotReal
  | roundDigits
  | callRange (name : String)
  | unknownFunction (name : String)
  | arity (name : String) (least : Int) (most : Option Int) (count : Nat)
  deriving DecidableEq, Repr

def EvalError.kind : EvalError → EvalKind
  | .division | .modulo => .divisionByZero
  | .unknownFunction _ => .unknownFunction
  | .arity .. => .arityMismatch
  | _ => .typeMismatch

/-- The argument counts that a function takes, in words. -/
def arityText (least : Int) : Option Int → String
  | none => s!"at least {least}"
  | some most => if least == most then toString least else s!"{least} to {most}"

def EvalError.text : EvalError → String
  | .notANumber kind shown => s!"cannot use {kind} value {shown} as a number"
  | .notADate shown => s!"cannot use {shown} as a date"
  | .division => "division by zero"
  | .modulo => "modulo by zero"
  | .operatorRange op => s!"{op} result out of range"
  | .powerTooLarge => "power result exceeds 1e308"
  | .powerUndefined => "invalid power"
  | .powerNotReal => "power result is not a real number"
  | .roundDigits => "round() takes at most 308 digits"
  | .callRange name => s!"{name}() result out of range"
  | .unknownFunction name => s!"unknown function '{name}'"
  | .arity name least most count =>
    name ++ "() takes " ++ arityText least most ++ " argument(s), got " ++ toString count

def EvalError.message (e : EvalError) : String := e.kind.name ++ ": " ++ e.text

/-- How an evaluation ends without a value: by a failure that is reported, or by a fault. -/
inductive Stop where
  | error (e : EvalError)
  | fault (f : Fault)
  deriving DecidableEq, Repr

instance : Coe Fault Stop := ⟨Stop.fault⟩

/-- A fault where a reported failure would also be possible. -/
def liftFault : Except Fault α → Except Stop α
  | .ok a => .ok a
  | .error f => .error (.fault f)

/-- The kinds of problem that a definition's logic can have as a whole. -/
inductive ConfigKind where
  | cyclicSetValue
  | unstableLogic
  | triggerLoop
  deriving DecidableEq, Repr

def ConfigKind.name : ConfigKind → String
  | .cyclicSetValue => "CyclicSetValue"
  | .unstableLogic => "UnstableLogic"
  | .triggerLoop => "TriggerLoop"

/-- Why a binding or a trigger is switched off. -/
inductive ConfigCause where
  /-- The binding feeds back into its own owner along a path of questions. -/
  | cycle (binding : String) (path : List String)
  | unstable (binding : String) (passes : Nat)
  | triggerLoop (label : String) (passes : Nat)
  deriving DecidableEq, Repr

structure ConfigError where
  cause : ConfigCause
  owner : String
  deriving DecidableEq, Repr

def ConfigCause.kind : ConfigCause → ConfigKind
  | .cycle .. => .cyclicSetValue
  | .unstable .. => .unstableLogic
  | .triggerLoop .. => .triggerLoop

def ConfigCause.text : ConfigCause → String
  | .cycle binding path =>
    binding ++ " depends on its own value (" ++ " -> ".intercalate path ++ ")"
  | .unstable binding passes => s!"{binding} still changing after {passes} passes"
  | .triggerLoop label passes => s!"more than {passes} trigger writes in one pass; disabling {label}"

def ConfigError.message (e : ConfigError) : String := e.cause.kind.name ++ ": " ++ e.cause.text

/-- Why a document is no definition, or a part of a definition cannot be used. -/
inductive DefinitionError where
  /-- A part of the document is of the named type and not a mapping. -/
  | notMapping (part type : String)
  | nameless (part shown : String)
  | unknownTrigger (shown : String)
  | unconditionalTrigger (shown : String)
  | duplicateNames (names : List String)
  | invalidJson
  | invalidYaml
  | answersNotObject
  | triggerWithoutTarget (type : String)
  | triggerWithoutSource
  deriving DecidableEq, Repr

def DefinitionError.message : DefinitionError → String
  | .notMapping part type => s!"{part} must be a mapping, got {type}"
  | .nameless part shown => s!"{part} without a name: {shown}"
  | .unknownTrigger shown => s!"unknown trigger type: {shown}"
  | .unconditionalTrigger shown => s!"trigger without a condition: {shown}"
  | .duplicateNames names => "Duplicate question names: " ++ ", ".intercalate names
  | .invalidJson => "invalid survey JSON"
  | .invalidYaml => "invalid survey YAML"
  | .answersNotObject => "answer set must be a JSON object"
  | .triggerWithoutTarget type => s!"{type} trigger needs a target question"
  | .triggerWithoutSource => "copyvalue trigger needs a source question"

end Questionnaire
