import Questionnaire.Expr.Basic
import Questionnaire.Expr.Token

/-!
# Parsing expressions

Expressions are read by recursive descent.  Six levels of operators group to the left; from the loosest to the
tightest they are `or`, `and`, the equalities, the relations, sums, and products.  At the level of the relations
`empty` and `notempty` follow their operand.  Powers bind tighter and group to the right, and tighter still are
`not` and the minus sign in front of an operand.

Every reader takes at least one token, so it gives back a shorter list; that, together with the level, is what
the recursion goes down on.
-/
namespace Questionnaire

/-- The levels of operators that group to the left, loosest first. -/
inductive Level where
  | or
  | and
  | equality
  | relational
  | additive
  | multiplicative
  deriving DecidableEq, Repr

/-- An operator between two operands. -/
inductive Connective where
  | binary (op : BinaryOp)
  | logical (op : LogicalOp)
  deriving DecidableEq, Repr

def Connective.join (left : Expr) : Connective → Expr → Expr
  | binary op, right => .binary op left right
  | logical op, right => .logical op left right

namespace Level

/-- How many levels of grammar lie below, down to the operands. -/
def rank : Level → Nat
  | or => 8
  | and => 7
  | equality => 6
  | relational => 5
  | additive => 4
  | multiplicative => 3

/-- The operator between operands of a level that a symbol writes. -/
def connective? : Level → String → Option Connective
  | or, "or" => some (.logical .or)
  | and, "and" => some (.logical .and)
  | equality, "=" => some (.binary .equal)
  | equality, "!=" => some (.binary .notEqual)
  | relational, "<" => some (.binary (.relation .less))
  | relational, ">" => some (.binary (.relation .greater))
  | relational, "<=" => some (.binary (.relation .lessEqual))
  | relational, ">=" => some (.binary (.relation .greaterEqual))
  | relational, "contains" => some (.binary .contains)
  | relational, "notcontains" => some (.binary .notContains)
  | additive, "+" => some (.binary (.arithmetic .add))
  | additive, "-" => some (.binary (.arithmetic .subtract))
  | multiplicative, "*" => some (.binary (.arithmetic .multiply))
  | multiplicative, "/" => some (.binary (.arithmetic .divide))
  | multiplicative, "%" => some (.binary (.arithmetic .modulo))
  | _, _ => none

/-- The operator after an operand that a symbol writes. -/
def mark? : Level → String → Option UnaryOp
  | relational, "empty" => some .empty
  | relational, "notempty" => some .notEmpty
  | _, _ => none

end Level

namespace Token

/-- The symbol of an operator. -/
def operator? (t : Token) : Option String :=
  match t.kind, t.value with
  | .operator, .text symbol => some symbol
  | _, _ => none

/-- Whether a token is the given punctuation. -/
def isPunctuation (symbol : String) (t : Token) : Bool :=
  match t.kind, t.value with
  | .punctuation, .text s => s == symbol
  | _, _ => false

end Token

/-- The operator in front of an operand that a symbol writes. -/
def UnaryOp.leading? (symbol : String) : Option UnaryOp :=
  if symbol == "not" then some .not else if symbol == "-" then some .negate else none

/-- The literals that are written as names, in any case. -/
def Value.keyword? (name : String) : Option Value :=
  match Lexeme.lowered name with
  | "true" => some (.boolean true)
  | "false" => some (.boolean false)
  | "null" => some .undefined
  | "undefined" => some .undefined
  | _ => none

/-- What was read from the front of some tokens, and the tokens after it, of which there are fewer. -/
structure Parsed (α : Type) (tokens : List Token) where
  tree : α
  rest : List Token
  shorter : rest.length < tokens.length

/-- The same for a reader that may take no token. -/
structure Extended (tokens : List Token) where
  tree : Expr
  rest : List Token
  notLonger : rest.length ≤ tokens.length

/-- What was read from some tokens as a part of what is read from more of them. -/
def Parsed.within {few many : List Token} (p : Parsed α few) (f : α → β) (h : few.length ≤ many.length) :
    Parsed β many :=
  ⟨f p.tree, p.rest, Nat.lt_of_lt_of_le p.shorter h⟩

def Extended.within {few many : List Token} (p : Extended few) (h : few.length ≤ many.length) : Extended many :=
  ⟨p.tree, p.rest, Nat.le_trans p.notLonger h⟩

def Extended.strictly {few many : List Token} (p : Extended few) (h : few.length < many.length) :
    Parsed Expr many :=
  ⟨p.tree, p.rest, Nat.lt_of_le_of_lt p.notLonger h⟩

namespace Parser

/-- A bare name: a literal, or the question of that name. -/
def bareName (t : Token) (name : String) : Except ParseError Expr :=
  match Value.keyword? name with
  | some v => .ok (.literal v)
  | none =>
    if Path.isValid name then .ok (.reference name) else .error ⟨.invalidReference t.text, t.position⟩

/-- One token as a whole expression. -/
def leaf (t : Token) (rest : List Token) (e : Expr) : Parsed Expr (t :: rest) := ⟨e, rest, by simp⟩

/-- A token that no expression begins with. -/
def refused (t : Token) : Except ParseError α := .error ⟨.unexpectedToken t.text, t.position⟩

mutual

/-- Operands of a level and the operators between them. -/
def chain (finish : Nat) (level : Level) (tokens : List Token) : Except ParseError (Parsed Expr tokens) :=
  match operand finish level tokens with
  | .error e => .error e
  | .ok first =>
    have := first.shorter
    match extend finish level first.tree first.rest with
    | .error e => .error e
    | .ok all => .ok (all.strictly first.shorter)
termination_by (tokens.length, level.rank, 1)

/-- An operand of a level: an expression of the next tighter one. -/
def operand (finish : Nat) (level : Level) (tokens : List Token) : Except ParseError (Parsed Expr tokens) :=
  match level with
  | .or => chain finish .and tokens
  | .and => chain finish .equality tokens
  | .equality => chain finish .relational tokens
  | .relational => chain finish .additive tokens
  | .additive => chain finish .multiplicative tokens
  | .multiplicative => power finish tokens
termination_by (tokens.length, level.rank, 0)
decreasing_by all_goals exact Prod.Lex.right _ (Prod.Lex.left _ _ (by decide))

/-- What follows a left operand on its level. -/
def extend (finish : Nat) (level : Level) (left : Expr) (tokens : List Token) :
    Except ParseError (Extended tokens) :=
  match tokens with
  | [] => .ok ⟨left, [], Nat.le_refl _⟩
  | t :: rest =>
    match t.operator?.bind level.mark? with
    | some op =>
      match extend finish level (.unary op left) rest with
      | .error e => .error e
      | .ok all => .ok (all.within (by simp))
    | none =>
      match t.operator?.bind level.connective? with
      | none => .ok ⟨left, t :: rest, Nat.le_refl _⟩
      | some op =>
        match operand finish level rest with
        | .error e => .error e
        | .ok right =>
          have := right.shorter
          match extend finish level (op.join left right.tree) right.rest with
          | .error e => .error e
          | .ok all => .ok (all.within (by simp only [List.length_cons]; omega))
termination_by (tokens.length, 0, 0)

/-- A power, or an operand with the operators in front of it. -/
def power (finish : Nat) (tokens : List Token) : Except ParseError (Parsed Expr tokens) :=
  match signed finish tokens with
  | .error e => .error e
  | .ok ⟨base, [], shorter⟩ => .ok ⟨base, [], shorter⟩
  | .ok ⟨base, t :: rest, shorter⟩ =>
    have less : rest.length < tokens.length := Nat.lt_of_succ_lt shorter
    if t.operator? == some "^" then
      match power finish rest with
      | .error e => .error e
      | .ok exponent => .ok (exponent.within (.binary (.arithmetic .power) base) (Nat.le_of_lt less))
    else .ok ⟨base, t :: rest, shorter⟩
termination_by (tokens.length, 2, 0)

/-- An operand with the operators in front of it. -/
def signed (finish : Nat) (tokens : List Token) : Except ParseError (Parsed Expr tokens) :=
  match tokens with
  | [] => .error ⟨.missingOperand, finish⟩
  | t :: rest =>
    match t.operator?.bind UnaryOp.leading? with
    | some op =>
      match signed finish rest with
      | .error e => .error e
      | .ok inner => .ok (inner.within (.unary op) (by simp))
    | none => primary finish t rest
termination_by (tokens.length, 1, 0)

/-- A literal, a reference, a group, a call or a bare name, which begins with the token `t`. -/
def primary (finish : Nat) (t : Token) (rest : List Token) : Except ParseError (Parsed Expr (t :: rest)) :=
  match t.kind, t.value with
  | .number, v => .ok (leaf t rest (.literal v))
  | .string, v => .ok (leaf t rest (.literal v))
  | .reference, .text path => .ok (leaf t rest (.reference path))
  | .operator, .text symbol =>
    if symbol == "contains" || symbol == "notcontains" then called finish t symbol rest (refused t)
    else refused t
  | .identifier, .text name => called finish t name rest (bareName t name)
  | .punctuation, .text symbol =>
    if symbol == "(" then
      match chain finish .or rest with
      | .error e => .error e
      | .ok ⟨_, [], _⟩ => .error ⟨.unclosedGroup, finish⟩
      | .ok ⟨inner, closing :: tail, shorter⟩ =>
        if closing.isPunctuation ")" then
          .ok ⟨inner, tail, Nat.lt_succ_of_lt (Nat.lt_of_succ_lt shorter)⟩
        else .error ⟨.unclosedGroup, closing.position⟩
    else refused t
  | _, _ => refused t
termination_by (rest.length + 1, 0, 1)

/-- A call when an opening parenthesis follows the name, and otherwise what the name is on its own. -/
def called (finish : Nat) (t : Token) (name : String) (rest : List Token) (alone : Except ParseError Expr) :
    Except ParseError (Parsed Expr (t :: rest)) :=
  match rest with
  | [] => alone.map (leaf t [])
  | opening :: tail =>
    if opening.isPunctuation "(" then
      match arguments finish tail with
      | .error e => .error e
      | .ok found => .ok (found.within (.call name) (by simp only [List.length_cons]; omega))
    else alone.map (leaf t (opening :: tail))
termination_by (rest.length + 1, 0, 0)

/-- The arguments of a call up to its closing parenthesis, after the opening one. -/
def arguments (finish : Nat) (tokens : List Token) : Except ParseError (Parsed (List Expr) tokens) :=
  match tokens with
  | [] => argumentList finish []
  | t :: rest =>
    if t.isPunctuation ")" then .ok ⟨[], rest, by simp⟩ else argumentList finish (t :: rest)
termination_by (tokens.length, 10, 0)

/-- One or more arguments and the closing parenthesis. -/
def argumentList (finish : Nat) (tokens : List Token) : Except ParseError (Parsed (List Expr) tokens) :=
  match chain finish .or tokens with
  | .error e => .error e
  | .ok ⟨_, [], _⟩ => .error ⟨.unclosedArguments, finish⟩
  | .ok ⟨first, t :: rest, shorter⟩ =>
    have less : rest.length < tokens.length := Nat.lt_of_succ_lt shorter
    if t.isPunctuation ")" then .ok ⟨[first], rest, less⟩
    else if t.isPunctuation "," then
      match argumentList finish rest with
      | .error e => .error e
      | .ok others => .ok (others.within (first :: ·) (Nat.le_of_lt less))
    else .error ⟨.unclosedArguments, t.position⟩
termination_by (tokens.length, 9, 0)
decreasing_by
  · exact Prod.Lex.right _ (Prod.Lex.left _ _ (by decide))
  · exact Prod.Lex.left _ _ less

end

/-- The position after the last token. -/
def endPosition (tokens : List Token) : Nat :=
  match tokens.getLast? with
  | some t => t.position + t.text.length
  | none => 0

/-- The tokens before the end of the text, and the position of the end. -/
def splitEnd (tokens : List Token) : List Token × Nat :=
  let body := tokens.takeWhile (·.kind != .endOfText)
  match tokens.find? (·.kind == .endOfText) with
  | some t => (body, t.position)
  | none => (body, endPosition tokens)

end Parser

namespace Expr

/-- The expression that a list of tokens forms. -/
def ofTokens (tokens : List Token) : Except ParseError Expr :=
  let (body, finish) := Parser.splitEnd tokens
  if body.isEmpty then .error ⟨.emptyExpression, 0⟩
  else
    match Parser.chain finish .or body with
    | .error e => .error e
    | .ok parsed =>
      match parsed.rest with
      | [] => .ok parsed.tree
      | t :: _ => .error ⟨.trailingToken t.text, t.position⟩

/-- Why a text is no expression. -/
inductive SourceError where
  | lex (e : LexError)
  | parse (e : ParseError)
  deriving DecidableEq, Repr

def SourceError.message : SourceError → String
  | .lex e => e.message
  | .parse e => e.message

/-- The expression that a text writes. -/
def ofText (source : String) : Except SourceError Expr :=
  match Token.ofText source with
  | .error e => .error (.lex e)
  | .ok tokens =>
    match ofTokens tokens with
    | .error e => .error (.parse e)
    | .ok e => .ok e

end Expr

end Questionnaire
