import Questionnaire.Expr.Parser

/-!
# The grammar of expressions

Which lists of tokens write which expressions, as rules and without a procedure.  The operators are named in tables,
one for those between two operands, one for those behind an operand and one for those in front of it.  A phrase of a
level is an operand, or a phrase of the same level that goes on with an operator, so operators of a level group to the
left.  A power has a power on its right, so powers group to the right.

The rules refer neither to the tables nor to the readers of the parser.
-/
namespace Questionnaire

namespace Grammar

/-- The operators between two operands: their levels, and what they join their operands to. -/
inductive Between : Level → String → Connective → Prop
  | or : Between .or "or" (.logical .or)
  | and : Between .and "and" (.logical .and)
  | equal : Between .equality "=" (.binary .equal)
  | notEqual : Between .equality "!=" (.binary .notEqual)
  | less : Between .relational "<" (.binary (.relation .less))
  | greater : Between .relational ">" (.binary (.relation .greater))
  | lessEqual : Between .relational "<=" (.binary (.relation .lessEqual))
  | greaterEqual : Between .relational ">=" (.binary (.relation .greaterEqual))
  | contains : Between .relational "contains" (.binary .contains)
  | notContains : Between .relational "notcontains" (.binary .notContains)
  | add : Between .additive "+" (.binary (.arithmetic .add))
  | subtract : Between .additive "-" (.binary (.arithmetic .subtract))
  | multiply : Between .multiplicative "*" (.binary (.arithmetic .multiply))
  | divide : Between .multiplicative "/" (.binary (.arithmetic .divide))
  | modulo : Between .multiplicative "%" (.binary (.arithmetic .modulo))

/-- The operators behind an operand. -/
inductive Behind : Level → String → UnaryOp → Prop
  | empty : Behind .relational "empty" .empty
  | notEmpty : Behind .relational "notempty" .notEmpty

/-- The operators in front of an operand. -/
inductive InFront : String → UnaryOp → Prop
  | not : InFront "not" .not
  | negate : InFront "-" .negate

/-- The names that are literals, in any case. -/
inductive Keyword (name : String) : Value → Prop
  | true : Lexeme.lowered name = "true" → Keyword name (.boolean true)
  | false : Lexeme.lowered name = "false" → Keyword name (.boolean false)
  | null : Lexeme.lowered name = "null" → Keyword name .undefined
  | undefined : Lexeme.lowered name = "undefined" → Keyword name .undefined

/-- The kinds of phrase, from the loosest to the tightest. -/
inductive Phrase where
  | level (l : Level)
  | power
  | signed
  | primary

/-- The operands of a level are phrases of the next tighter kind. -/
def operandOf : Level → Phrase
  | .or => .level .and
  | .and => .level .equality
  | .equality => .level .relational
  | .relational => .level .additive
  | .additive => .level .multiplicative
  | .multiplicative => .power

end Grammar

namespace Token

/-- A token is an operator of a symbol. -/
def IsOperator (t : Token) (symbol : String) : Prop := t.kind = .operator ∧ t.value = .text symbol

/-- A token is a punctuation mark. -/
def IsMark (t : Token) (symbol : String) : Prop := t.kind = .punctuation ∧ t.value = .text symbol

/-- A token is a bare name. -/
def IsName (t : Token) (name : String) : Prop := t.kind = .identifier ∧ t.value = .text name

end Token

namespace Grammar

/-- A call begins with a bare name, or with one of the two operators that are functions too. -/
inductive Callee (t : Token) : String → Prop
  | name {name : String} : t.IsName name → Callee t name
  | contains : t.IsOperator "contains" → Callee t "contains"
  | notContains : t.IsOperator "notcontains" → Callee t "notcontains"

/-- Lists of tokens in a row, with a comma between neighbours. -/
inductive Separated : List (List Token) → List Token → Prop
  | none : Separated [] []
  | one {tokens : List Token} : Separated [tokens] tokens
  | more {tokens following : List Token} {others : List (List Token)} {comma : Token} :
      comma.IsMark "," → others ≠ [] → Separated others following →
      Separated (tokens :: others) (tokens ++ comma :: following)

/-- Tokens that form a phrase, and the expression that it writes. -/
inductive Derives : Phrase → List Token → Expr → Prop
  | operand {l : Level} {tokens : List Token} {x : Expr} :
      Derives (operandOf l) tokens x → Derives (.level l) tokens x
  | joined {l : Level} {before following : List Token} {left right : Expr} {t : Token} {symbol : String}
      {c : Connective} :
      Derives (.level l) before left → t.IsOperator symbol → Between l symbol c →
      Derives (operandOf l) following right → Derives (.level l) (before ++ t :: following) (c.join left right)
  | marked {l : Level} {before : List Token} {x : Expr} {t : Token} {symbol : String} {op : UnaryOp} :
      Derives (.level l) before x → t.IsOperator symbol → Behind l symbol op →
      Derives (.level l) (before ++ [t]) (.unary op x)
  | base {tokens : List Token} {x : Expr} : Derives .signed tokens x → Derives .power tokens x
  | raised {before following : List Token} {x exponent : Expr} {t : Token} :
      Derives .signed before x → t.IsOperator "^" → Derives .power following exponent →
      Derives .power (before ++ t :: following) (.binary (.arithmetic .power) x exponent)
  | plain {tokens : List Token} {x : Expr} : Derives .primary tokens x → Derives .signed tokens x
  | signed {following : List Token} {x : Expr} {t : Token} {symbol : String} {op : UnaryOp} :
      t.IsOperator symbol → InFront symbol op → Derives .signed following x →
      Derives .signed (t :: following) (.unary op x)
  | number {t : Token} : t.kind = .number → Derives .primary [t] (.literal t.value)
  | string {t : Token} : t.kind = .string → Derives .primary [t] (.literal t.value)
  | reference {t : Token} {path : String} :
      t.kind = .reference → t.value = .text path → Derives .primary [t] (.reference path)
  | group {inner : List Token} {x : Expr} {opening closing : Token} :
      opening.IsMark "(" → Derives (.level .or) inner x → closing.IsMark ")" →
      Derives .primary (opening :: (inner ++ [closing])) x
  | call {t opening closing : Token} {name : String} {inner : List Token} {arguments : List (List Token × Expr)} :
      Callee t name → opening.IsMark "(" → Separated (arguments.map (·.1)) inner →
      (∀ a ∈ arguments, Derives (.level .or) a.1 a.2) → closing.IsMark ")" →
      Derives .primary (t :: opening :: (inner ++ [closing])) (.call name (arguments.map (·.2)))
  | keyword {t : Token} {name : String} {v : Value} :
      t.IsName name → Keyword name v → Derives .primary [t] (.literal v)
  | question {t : Token} {name : String} :
      t.IsName name → (∀ v, ¬ Keyword name v) → Path.isValid name = true →
      Derives .primary [t] (.reference name)

/-- Tokens that write an expression. -/
abbrev Writes (tokens : List Token) (x : Expr) : Prop := Derives (.level .or) tokens x

end Grammar

namespace Token

variable {t : Token} {symbol other : String}

theorem IsOperator.not_isMark (h : t.IsOperator symbol) : ¬ t.IsMark other := by
  rintro ⟨kind, -⟩
  rw [h.1] at kind
  cases kind

theorem IsOperator.unique (h : t.IsOperator symbol) (h' : t.IsOperator other) : symbol = other := by
  have := h.2.symm.trans h'.2
  cases this
  rfl

theorem IsMark.unique (h : t.IsMark symbol) (h' : t.IsMark other) : symbol = other := by
  have := h.2.symm.trans h'.2
  cases this
  rfl

end Token

namespace Grammar

/-- A token that a phrase in front of it can go on with. -/
inductive GoesOn (t : Token) : Phrase → Prop
  | call {n : Phrase} : t.IsMark "(" → GoesOn t n
  | raised : t.IsOperator "^" → GoesOn t .power
  | joined {l : Level} {symbol : String} {c : Connective} :
      t.IsOperator symbol → Between l symbol c → GoesOn t (.level l)
  | marked {l : Level} {symbol : String} {op : UnaryOp} :
      t.IsOperator symbol → Behind l symbol op → GoesOn t (.level l)
  | operand {l : Level} : GoesOn t (operandOf l) → GoesOn t (.level l)

/-- A phrase of a kind ends where these tokens begin. -/
def Stops (n : Phrase) (rest : List Token) : Prop := ∀ t ∈ rest.head?, ¬ GoesOn t n

theorem Stops.nil {n : Phrase} : Stops n [] := by simp [Stops]

theorem stops_cons {n : Phrase} {t : Token} {rest : List Token} : Stops n (t :: rest) ↔ ¬ GoesOn t n := by
  simp [Stops]

theorem Stops.operand {l : Level} {rest : List Token} (h : Stops (.level l) rest) : Stops (operandOf l) rest :=
  fun t first goesOn => h t first (.operand goesOn)

theorem Stops.signed {rest : List Token} (h : Stops .power rest) : Stops .signed rest := by
  intro t first goesOn
  cases goesOn with
  | call opens => exact h t first (.call opens)

theorem Stops.primary {rest : List Token} (h : Stops .signed rest) : Stops .primary rest := by
  intro t first goesOn
  cases goesOn with
  | call opens => exact h t first (.call opens)

/-- How loosely the tokens of a phrase hold together. -/
def Phrase.looseness : Phrase → Nat
  | .level l => l.rank
  | .power => 2
  | .signed => 1
  | .primary => 0

theorem looseness_operandOf (l : Level) : (operandOf l).looseness < l.rank := by
  cases l <;> decide

/-- The level of an operator that follows an operand. -/
def levelOf : String → Option Level
  | "or" => some .or
  | "and" => some .and
  | "=" | "!=" => some .equality
  | "<" | ">" | "<=" | ">=" | "contains" | "notcontains" | "empty" | "notempty" => some .relational
  | "+" | "-" => some .additive
  | "*" | "/" | "%" => some .multiplicative
  | _ => none

theorem Between.level {l : Level} {symbol : String} {c : Connective} (h : Between l symbol c) :
    levelOf symbol = some l := by
  cases h <;> rfl

theorem Behind.level {l : Level} {symbol : String} {op : UnaryOp} (h : Behind l symbol op) :
    levelOf symbol = some l := by
  cases h <;> rfl

/-- A phrase that an operator goes on with is no tighter than the level of the operator. -/
theorem GoesOn.looseness {t : Token} {n : Phrase} {l : Level} {symbol : String} (goesOn : GoesOn t n)
    (operates : t.IsOperator symbol) (level : levelOf symbol = some l) : l.rank ≤ n.looseness := by
  induction goesOn with
  | call opens => exact absurd opens operates.not_isMark
  | raised raises =>
    obtain rfl := operates.unique raises
    cases level
  | joined operates' between =>
    obtain rfl := operates.unique operates'
    cases level.symm.trans between.level
    exact Nat.le_refl _
  | marked operates' behind =>
    obtain rfl := operates.unique operates'
    cases level.symm.trans behind.level
    exact Nat.le_refl _
  | operand _ ih => exact Nat.le_trans ih (Nat.le_of_lt (looseness_operandOf _))

theorem stops_of_level {t : Token} {l : Level} {symbol : String} {rest : List Token}
    (operates : t.IsOperator symbol) (level : levelOf symbol = some l) : Stops (operandOf l) (t :: rest) :=
  stops_cons.mpr fun goesOn => Nat.not_le_of_lt (looseness_operandOf l) (goesOn.looseness operates level)

theorem stops_of_raised {t : Token} {rest : List Token} (raises : t.IsOperator "^") : Stops .signed (t :: rest) := by
  refine stops_cons.mpr ?_
  rintro ⟨opens⟩
  exact raises.not_isMark opens

/-- No phrase goes on with a comma or a closing parenthesis. -/
theorem stops_of_mark {t : Token} {n : Phrase} {symbol : String} {rest : List Token} (mark : t.IsMark symbol)
    (other : symbol ≠ "(") : Stops n (t :: rest) := by
  refine stops_cons.mpr fun goesOn => ?_
  induction goesOn with
  | call opens => exact other (mark.unique opens)
  | raised operates | joined operates | marked operates => exact operates.not_isMark mark
  | operand _ ih => exact ih

theorem Separated.front {tokens inner : List Token} {others : List (List Token)}
    (h : Separated (tokens :: others) inner) : ∃ behind, inner = tokens ++ behind := by
  cases h with
  | one => exact ⟨[], (List.append_nil _).symm⟩
  | more => exact ⟨_, rfl⟩

/-- A phrase has a first token, which closes nothing. -/
theorem Derives.first {n : Phrase} {tokens : List Token} {x : Expr} (h : Derives n tokens x) :
    ∃ t tail, tokens = t :: tail ∧ ¬ t.IsMark ")" := by
  induction h with
  | operand _ ih | base _ ih | plain _ ih => exact ih
  | joined _ _ _ _ ih | marked _ _ _ ih | raised _ _ _ ih =>
    obtain ⟨t, tail, rfl, opens⟩ := ih
    exact ⟨t, _, rfl, opens⟩
  | signed operates => exact ⟨_, _, rfl, operates.not_isMark⟩
  | number kind | string kind | reference kind =>
    refine ⟨_, _, rfl, fun mark => ?_⟩
    rw [mark.1] at kind
    cases kind
  | group opens =>
    refine ⟨_, _, rfl, fun mark => ?_⟩
    exact absurd (opens.unique mark) (by decide)
  | call callee =>
    refine ⟨_, _, rfl, fun mark => ?_⟩
    cases callee with
    | name named => exact absurd (mark.1.symm.trans named.1) (by decide)
    | contains operates | notContains operates => exact operates.not_isMark mark
  | keyword named | question named =>
    refine ⟨_, _, rfl, fun mark => ?_⟩
    exact absurd (mark.1.symm.trans named.1) (by decide)

end Grammar

end Questionnaire
