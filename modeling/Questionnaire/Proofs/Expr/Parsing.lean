import Mathlib.Data.List.TakeWhile
import Questionnaire.Proofs.Expr.Grammar

/-!
# The parser and the grammar

The parser reads a list of tokens if and only if the grammar derives it, and then it builds the tree that the grammar
gives; every other list it refuses.

Soundness goes along the recursion of the parser: what a reader takes off the front of some tokens forms a phrase of
its kind.  Completeness goes along the derivation.  A reader of a level reads on for as long as it can, so the
statement about a phrase of a level speaks of whatever follows on that level, and asks of the tokens behind it only
that they do not go on with its last operand.  That a phrase has one tree follows, since the parser is a function.
-/
namespace Questionnaire

/-! ### The tables of the parser -/

namespace Token

variable {t : Token} {symbol : String}

theorem operator?_eq_some : t.operator? = some symbol ↔ t.IsOperator symbol := by
  unfold operator? IsOperator
  split
  · simp_all
  · rename_i other
    constructor
    · intro h
      cases h
    · rintro ⟨kind, value⟩
      exact absurd value (other _ kind)

theorem isPunctuation_iff : t.isPunctuation symbol = true ↔ t.IsMark symbol := by
  unfold isPunctuation IsMark
  split
  · simp_all
  · rename_i other
    constructor
    · intro h
      cases h
    · rintro ⟨kind, value⟩
      exact absurd value (other _ kind)

end Token

namespace Grammar

theorem between_iff {l : Level} {symbol : String} {c : Connective} :
    l.connective? symbol = some c ↔ Between l symbol c := by
  constructor
  · intro h
    unfold Level.connective? at h
    split at h
    all_goals
      cases h
      try constructor
  · rintro ⟨⟩ <;> rfl

theorem behind_iff {l : Level} {symbol : String} {op : UnaryOp} : l.mark? symbol = some op ↔ Behind l symbol op := by
  constructor
  · intro h
    unfold Level.mark? at h
    split at h
    all_goals
      cases h
      try constructor
  · rintro ⟨⟩ <;> rfl

theorem inFront_iff {symbol : String} {op : UnaryOp} : UnaryOp.leading? symbol = some op ↔ InFront symbol op := by
  constructor
  · intro h
    unfold UnaryOp.leading? at h
    split at h
    · rename_i same
      cases h
      rw [beq_iff_eq.mp same]
      exact .not
    · split at h
      · rename_i same
        cases h
        rw [beq_iff_eq.mp same]
        exact .negate
      · cases h
  · rintro ⟨⟩ <;> rfl

theorem keyword_iff {name : String} {v : Value} : Value.keyword? name = some v ↔ Keyword name v := by
  constructor
  · intro h
    unfold Value.keyword? at h
    split at h
    · rename_i lowered
      cases h
      exact .true lowered
    · rename_i lowered
      cases h
      exact .false lowered
    · rename_i lowered
      cases h
      exact .null lowered
    · rename_i lowered
      cases h
      exact .undefined lowered
    · cases h
  · intro h
    unfold Value.keyword?
    cases h with
    | true lowered =>
      rw [lowered]
      rfl
    | false lowered =>
      rw [lowered]
      rfl
    | null lowered =>
      rw [lowered]
      rfl
    | undefined lowered =>
      rw [lowered]
      rfl

theorem callee_of_operator {t : Token} {symbol : String} (kind : t.kind = .operator) (value : t.value = .text symbol)
    (callable : (symbol == "contains" || symbol == "notcontains") = true) : Callee t symbol := by
  rcases (Bool.or_eq_true _ _).mp callable with same | same
  · obtain rfl := beq_iff_eq.mp same
    exact .contains ⟨kind, value⟩
  · obtain rfl := beq_iff_eq.mp same
    exact .notContains ⟨kind, value⟩

theorem derives_of_bareName {t : Token} {name : String} {x : Expr} (named : t.IsName name)
    (h : Parser.bareName t name = .ok x) : Derives .primary [t] x := by
  unfold Parser.bareName at h
  split at h
  · rename_i v keyword
    cases h
    exact .keyword named (keyword_iff.mp keyword)
  · rename_i noKeyword
    split at h
    · rename_i valid
      cases h
      refine .question named ?_ valid
      intro v keyword
      rw [keyword_iff.mpr keyword] at noKeyword
      cases noKeyword
    · cases h

end Grammar

/-! ### What the readers take forms phrases -/

namespace Grammar

/-- The front of some tokens forms a phrase, and what is left of them. -/
def Takes (n : Phrase) (tokens : List Token) (x : Expr) (rest : List Token) : Prop :=
  ∃ used, tokens = used ++ rest ∧ Derives n used x

/-- The arguments of a call and its closing parenthesis, at the front of some tokens. -/
def TakesArguments (tokens : List Token) (arguments : List Expr) (rest : List Token) : Prop :=
  ∃ (inner : List Token) (closing : Token) (found : List (List Token × Expr)),
    tokens = inner ++ closing :: rest ∧ closing.IsMark ")" ∧ Separated (found.map (·.1)) inner ∧
      (∀ a ∈ found, Derives (.level .or) a.1 a.2) ∧ arguments = found.map (·.2)

end Grammar

namespace Parser
open Grammar

theorem map_eq_ok {ε α β : Type} {f : α → β} {r : Except ε α} {b : β} (h : r.map f = .ok b) :
    ∃ a, r = .ok a ∧ b = f a := by
  cases r with
  | error e => cases h
  | ok a =>
    cases h
    exact ⟨a, rfl, rfl⟩

/-- The reader of a kind of phrase. -/
def read (finish : Nat) : Phrase → (tokens : List Token) → Except ParseError (Parsed Expr tokens)
  | .level l, tokens => chain finish l tokens
  | .power, tokens => power finish tokens
  | .signed, tokens => signed finish tokens
  | .primary, [] => .error ⟨.missingOperand, finish⟩
  | .primary, t :: rest => primary finish t rest

theorem operand_eq {finish : Nat} {l : Level} {tokens : List Token} :
    operand finish l tokens = read finish (operandOf l) tokens := by
  cases l <;> rw [operand] <;> rfl

mutual

theorem takes_of_chain {finish : Nat} {level : Level} {tokens : List Token} {p : Parsed Expr tokens}
    (h : chain finish level tokens = .ok p) : Takes (.level level) tokens p.tree p.rest := by
  rw [chain] at h
  split at h
  · cases h
  · rename_i first found
    have := first.shorter
    split at h
    · cases h
    · rename_i all extended
      cases h
      obtain ⟨used, split, derived⟩ := takes_of_operand found
      obtain ⟨more, split', derived'⟩ := takes_of_extend (.operand derived) extended
      refine ⟨used ++ more, ?_, derived'⟩
      calc tokens = used ++ first.rest := split
        _ = used ++ more ++ all.rest := by rw [List.append_assoc, ← split']
termination_by (tokens.length, level.rank, 1)

theorem takes_of_operand {finish : Nat} {tokens : List Token} {p : Parsed Expr tokens} : ∀ {level : Level},
    operand finish level tokens = .ok p → Takes (operandOf level) tokens p.tree p.rest
  | .or, h => takes_of_chain (operand_eq.symm.trans h)
  | .and, h => takes_of_chain (operand_eq.symm.trans h)
  | .equality, h => takes_of_chain (operand_eq.symm.trans h)
  | .relational, h => takes_of_chain (operand_eq.symm.trans h)
  | .additive, h => takes_of_chain (operand_eq.symm.trans h)
  | .multiplicative, h => takes_of_power (operand_eq.symm.trans h)
termination_by level => (tokens.length, level.rank, 0)
decreasing_by all_goals exact Prod.Lex.right _ (Prod.Lex.left _ _ (by decide))

theorem takes_of_extend {finish : Nat} {level : Level} {left : Expr} {before : List Token}
    (done : Derives (.level level) before left) : ∀ {tokens : List Token} {p : Extended tokens},
    extend finish level left tokens = .ok p →
      ∃ used, tokens = used ++ p.rest ∧ Derives (.level level) (before ++ used) p.tree
  | [], p, h => by
    rw [extend] at h
    cases h
    exact ⟨[], rfl, by rwa [List.append_nil]⟩
  | t :: rest, p, h => by
    rw [extend] at h
    split at h
    · rename_i op behind
      obtain ⟨symbol, operates, behind⟩ := Option.bind_eq_some_iff.mp behind
      split at h
      · cases h
      · rename_i all extended
        cases h
        obtain ⟨used, split, derived⟩ := takes_of_extend
          (.marked done (Token.operator?_eq_some.mp operates) (behind_iff.mp behind)) extended
        exact ⟨t :: used, congrArg (t :: ·) split, by rw [List.append_assoc] at derived; exact derived⟩
    · split at h
      · cases h
        exact ⟨[], rfl, by rwa [List.append_nil]⟩
      · rename_i c between
        obtain ⟨symbol, operates, between⟩ := Option.bind_eq_some_iff.mp between
        split at h
        · cases h
        · rename_i right found
          have := right.shorter
          split at h
          · cases h
          · rename_i all extended
            cases h
            obtain ⟨following, split, derived⟩ := takes_of_operand found
            obtain ⟨more, split', derived'⟩ := takes_of_extend
              (.joined done (Token.operator?_eq_some.mp operates) (between_iff.mp between) derived) extended
            refine ⟨t :: (following ++ more), ?_, by rw [List.append_assoc] at derived'; exact derived'⟩
            calc t :: rest = t :: (following ++ right.rest) := congrArg (t :: ·) split
              _ = t :: (following ++ more) ++ all.rest := by rw [List.cons_append, List.append_assoc, ← split']
termination_by tokens => (tokens.length, 0, 0)

theorem takes_of_power {finish : Nat} {tokens : List Token} {p : Parsed Expr tokens}
    (h : power finish tokens = .ok p) : Takes .power tokens p.tree p.rest := by
  rw [power] at h
  split at h
  · cases h
  · rename_i found
    cases h
    obtain ⟨used, split, derived⟩ := takes_of_signed found
    exact ⟨used, split, .base derived⟩
  · rename_i base t rest shorter found
    obtain ⟨before, split, derived⟩ := takes_of_signed found
    have less : rest.length < tokens.length := Nat.lt_of_succ_lt shorter
    split at h
    · rename_i raises
      have raises := Token.operator?_eq_some.mp (beq_iff_eq.mp raises)
      split at h
      · cases h
      · rename_i exponent found'
        cases h
        obtain ⟨following, split', derived'⟩ := takes_of_power found'
        refine ⟨before ++ t :: following, ?_, .raised derived raises derived'⟩
        calc tokens = before ++ t :: rest := split
          _ = before ++ t :: following ++ exponent.rest := by
            rw [List.append_assoc, List.cons_append, ← split']
    · cases h
      exact ⟨before, split, .base derived⟩
termination_by (tokens.length, 2, 0)

theorem takes_of_signed {finish : Nat} : ∀ {tokens : List Token} {p : Parsed Expr tokens},
    signed finish tokens = .ok p → Takes .signed tokens p.tree p.rest
  | [], p, h => by
    rw [signed] at h
    cases h
  | t :: rest, p, h => by
    rw [signed] at h
    split at h
    · rename_i op leads
      obtain ⟨symbol, operates, leads⟩ := Option.bind_eq_some_iff.mp leads
      split at h
      · cases h
      · rename_i inner found
        cases h
        obtain ⟨used, split, derived⟩ := takes_of_signed found
        exact ⟨t :: used, congrArg (t :: ·) split,
          .signed (Token.operator?_eq_some.mp operates) (inFront_iff.mp leads) derived⟩
    · obtain ⟨used, split, derived⟩ := takes_of_primary h
      exact ⟨used, split, .plain derived⟩
termination_by tokens => (tokens.length, 1, 0)

theorem takes_of_primary {finish : Nat} {t : Token} {rest : List Token} {p : Parsed Expr (t :: rest)}
    (h : primary finish t rest = .ok p) : Takes .primary (t :: rest) p.tree p.rest := by
  have alone {x : Expr} (derived : Derives .primary [t] x) : Takes .primary (t :: rest) x rest :=
    ⟨[t], rfl, derived⟩
  rw [primary] at h
  split at h
  · rename_i kind
    cases h
    exact alone (.number kind)
  · rename_i kind
    cases h
    exact alone (.string kind)
  · rename_i kind value
    cases h
    exact alone (.reference kind value)
  · rename_i symbol kind value
    split at h
    · rename_i callable
      refine takes_of_called (callee_of_operator kind value callable) ?_ h
      intro x refusal
      cases refusal
    · cases h
  · rename_i name kind value
    exact takes_of_called (.name ⟨kind, value⟩) (fun x => derives_of_bareName ⟨kind, value⟩) h
  · rename_i symbol kind value
    split at h
    · rename_i opens
      have opening : t.IsMark "(" := ⟨kind, by rw [value, beq_iff_eq.mp opens]⟩
      split at h
      · cases h
      · cases h
      · rename_i inner closing tail shorter found
        split at h
        · rename_i closes
          cases h
          obtain ⟨used, split, derived⟩ := takes_of_chain found
          refine ⟨t :: (used ++ [closing]), ?_, .group opening derived (Token.isPunctuation_iff.mp closes)⟩
          calc t :: rest = t :: (used ++ closing :: tail) := congrArg (t :: ·) split
            _ = t :: (used ++ [closing]) ++ tail := by simp
        · cases h
    · cases h
  · cases h
termination_by (rest.length + 1, 0, 1)

theorem takes_of_called {finish : Nat} {t : Token} {name : String} (callee : Callee t name)
    {alone : Except ParseError Expr} (bare : ∀ x, alone = .ok x → Derives .primary [t] x) :
    ∀ {rest : List Token} {p : Parsed Expr (t :: rest)}, called finish t name rest alone = .ok p →
      Takes .primary (t :: rest) p.tree p.rest
  | [], p, h => by
    rw [called] at h
    obtain ⟨x, found, rfl⟩ := map_eq_ok h
    exact ⟨[t], rfl, bare x found⟩
  | opening :: tail, p, h => by
    rw [called] at h
    split at h
    · rename_i opens
      split at h
      · cases h
      · rename_i found taken
        cases h
        obtain ⟨inner, closing, each, split, closes, separated, derived, trees⟩ := takes_of_arguments taken
        refine ⟨t :: opening :: (inner ++ [closing]), ?_, ?_⟩
        · calc t :: opening :: tail = t :: opening :: (inner ++ closing :: found.rest) :=
              congrArg (t :: opening :: ·) split
            _ = t :: opening :: (inner ++ [closing]) ++ found.rest := by simp
        · have := Derives.call callee (Token.isPunctuation_iff.mp opens) separated derived closes
          rwa [← trees] at this
    · obtain ⟨x, found, rfl⟩ := map_eq_ok h
      exact ⟨[t], rfl, bare x found⟩
termination_by rest => (rest.length + 1, 0, 0)

theorem takes_of_arguments {finish : Nat} : ∀ {tokens : List Token} {p : Parsed (List Expr) tokens},
    arguments finish tokens = .ok p → TakesArguments tokens p.tree p.rest
  | [], p, h => by
    rw [arguments] at h
    exact (takes_of_argumentList h).1
  | t :: rest, p, h => by
    rw [arguments] at h
    split at h
    · rename_i closes
      cases h
      exact ⟨[], t, [], rfl, Token.isPunctuation_iff.mp closes, .none, by simp, rfl⟩
    · exact (takes_of_argumentList h).1
termination_by tokens => (tokens.length, 10, 0)

theorem takes_of_argumentList {finish : Nat} {tokens : List Token} {p : Parsed (List Expr) tokens}
    (h : argumentList finish tokens = .ok p) : TakesArguments tokens p.tree p.rest ∧ p.tree ≠ [] := by
  rw [argumentList] at h
  split at h
  · cases h
  · cases h
  · rename_i first t rest shorter found
    obtain ⟨used, split, derived⟩ := takes_of_chain found
    have less : rest.length < tokens.length := Nat.lt_of_succ_lt shorter
    split at h
    · rename_i closes
      cases h
      refine ⟨⟨used, t, [(used, first)], split, Token.isPunctuation_iff.mp closes, .one, ?_, rfl⟩, by simp⟩
      simpa using derived
    · split at h
      · rename_i comma
        split at h
        · cases h
        · rename_i others taken
          cases h
          obtain ⟨behind, some⟩ := takes_of_argumentList taken
          obtain ⟨inner, closing, each, split', closes, separated, derived', trees⟩ := behind
          have trees' : first :: others.tree = first :: each.map (·.2) := congrArg (first :: ·) trees
          refine ⟨⟨used ++ t :: inner, closing, (used, first) :: each, ?_, closes, ?_, ?_, trees'⟩,
            List.cons_ne_nil _ _⟩
          · calc tokens = used ++ t :: rest := split
              _ = used ++ t :: inner ++ closing :: others.rest := by
                rw [List.append_assoc, List.cons_append, ← split']
          · refine .more (Token.isPunctuation_iff.mp comma) ?_ separated
            rintro none
            exact some (trees.trans (by rw [List.map_eq_nil_iff.mp none]; rfl))
          · exact List.forall_mem_cons.mpr ⟨derived, derived'⟩
      · cases h
termination_by (tokens.length, 9, 0)
decreasing_by
  · exact Prod.Lex.right _ (Prod.Lex.left _ _ (by decide))
  · exact Prod.Lex.left _ _ less

end

/-! ### The readers read every phrase -/

/-- The reader of a phrase reads an expression and leaves some tokens. -/
def Reads (finish : Nat) (n : Phrase) (tokens : List Token) (x : Expr) (rest : List Token) : Prop :=
  ∃ shorter, read finish n tokens = .ok ⟨x, rest, shorter⟩

/-- A left operand is taken to an expression by what follows it. -/
def Extends (finish : Nat) (l : Level) (left : Expr) (tokens : List Token) (x : Expr) (rest : List Token) : Prop :=
  ∃ notLonger, extend finish l left tokens = .ok ⟨x, rest, notLonger⟩

variable {finish : Nat} {l : Level} {x left right : Expr} {t : Token} {tokens used rest mid : List Token}

theorem reads_chain (first : Reads finish (operandOf l) tokens left mid) (all : Extends finish l left mid x rest) :
    Reads finish (.level l) tokens x rest := by
  obtain ⟨shorter, found⟩ := first
  obtain ⟨notLonger, extended⟩ := all
  refine ⟨Nat.lt_of_le_of_lt notLonger shorter, ?_⟩
  rw [read, chain, operand_eq, found]
  dsimp only
  rw [extended]
  rfl

theorem extends_stops (stops : Stops (.level l) tokens) : Extends finish l x tokens x tokens := by
  refine ⟨Nat.le_refl _, ?_⟩
  cases tokens with
  | nil => rw [extend]
  | cons t rest =>
    have ends := stops_cons.mp stops
    have unmarked : t.operator?.bind l.mark? = none := by
      refine Option.eq_none_iff_forall_ne_some.mpr fun op h => ends ?_
      obtain ⟨symbol, operates, behind⟩ := Option.bind_eq_some_iff.mp h
      exact .marked (Token.operator?_eq_some.mp operates) (behind_iff.mp behind)
    have unjoined : t.operator?.bind l.connective? = none := by
      refine Option.eq_none_iff_forall_ne_some.mpr fun c h => ends ?_
      obtain ⟨symbol, operates, between⟩ := Option.bind_eq_some_iff.mp h
      exact .joined (Token.operator?_eq_some.mp operates) (between_iff.mp between)
    rw [extend, unmarked, unjoined]

theorem extends_joined {symbol : String} {c : Connective} (operates : t.IsOperator symbol)
    (between : Between l symbol c) (found : Reads finish (operandOf l) tokens right mid)
    (all : Extends finish l (c.join left right) mid x rest) : Extends finish l left (t :: tokens) x rest := by
  obtain ⟨shorter, found⟩ := found
  obtain ⟨notLonger, extended⟩ := all
  have operator : t.operator? = some symbol := Token.operator?_eq_some.mpr operates
  have unmarked : t.operator?.bind l.mark? = none := by
    rw [operator]
    cases between <;> rfl
  have joined : t.operator?.bind l.connective? = some c := by
    rw [operator]
    exact between_iff.mpr between
  refine ⟨by simp only [List.length_cons]; omega, ?_⟩
  rw [extend, unmarked, joined]
  dsimp only
  rw [operand_eq, found]
  dsimp only
  rw [extended]
  rfl

theorem extends_marked {symbol : String} {op : UnaryOp} (operates : t.IsOperator symbol) (behind : Behind l symbol op)
    (all : Extends finish l (.unary op left) tokens x rest) : Extends finish l left (t :: tokens) x rest := by
  obtain ⟨notLonger, extended⟩ := all
  have marked : t.operator?.bind l.mark? = some op := by
    rw [Token.operator?_eq_some.mpr operates]
    exact behind_iff.mpr behind
  refine ⟨Nat.le_succ_of_le notLonger, ?_⟩
  rw [extend, marked]
  dsimp only
  rw [extended]
  rfl

theorem reads_power_base (base : Reads finish .signed tokens x rest) (stops : Stops .power rest) :
    Reads finish .power tokens x rest := by
  obtain ⟨shorter, found⟩ := base
  refine ⟨shorter, ?_⟩
  change signed finish tokens = _ at found
  change power finish tokens = _
  rw [power, found]
  cases rest with
  | nil => rfl
  | cons t rest =>
    have : ¬ (t.operator? == some "^") = true := fun raises =>
      stops_cons.mp stops (.raised (Token.operator?_eq_some.mp (beq_iff_eq.mp raises)))
    dsimp only
    rw [if_neg this]

theorem reads_power_raised {exponent : Expr} (base : Reads finish .signed tokens x (t :: mid))
    (raises : t.IsOperator "^") (raised : Reads finish .power mid exponent rest) :
    Reads finish .power tokens (.binary (.arithmetic .power) x exponent) rest := by
  obtain ⟨shorter, found⟩ := base
  obtain ⟨shorter', found'⟩ := raised
  refine ⟨by simp only [List.length_cons] at shorter; omega, ?_⟩
  change signed finish tokens = _ at found
  change power finish mid = _ at found'
  change power finish tokens = _
  rw [power, found]
  dsimp only
  rw [if_pos (beq_iff_eq.mpr (Token.operator?_eq_some.mpr raises)), found']
  rfl

theorem reads_signed {symbol : String} {op : UnaryOp} (operates : t.IsOperator symbol) (leads : InFront symbol op)
    (found : Reads finish .signed tokens x rest) : Reads finish .signed (t :: tokens) (.unary op x) rest := by
  obtain ⟨shorter, found⟩ := found
  refine ⟨Nat.lt_succ_of_lt shorter, ?_⟩
  change signed finish tokens = _ at found
  change signed finish (t :: tokens) = _
  rw [signed, Token.operator?_eq_some.mpr operates, Option.bind_some, inFront_iff.mpr leads]
  dsimp only
  rw [found]
  rfl

theorem reads_signed_plain (plain : t.operator?.bind UnaryOp.leading? = none)
    (found : Reads finish .primary (t :: tokens) x rest) : Reads finish .signed (t :: tokens) x rest := by
  obtain ⟨shorter, found⟩ := found
  refine ⟨shorter, ?_⟩
  change signed finish (t :: tokens) = _
  rw [signed, plain]
  exact found


theorem called_alone {name : String} (stops : Stops .primary rest) :
    called finish t name rest (.ok x) = .ok (leaf t rest x) := by
  cases rest with
  | nil =>
    rw [called]
    rfl
  | cons opening tail =>
    have : ¬ opening.isPunctuation "(" = true := fun opens =>
      stops_cons.mp stops (.call (Token.isPunctuation_iff.mp opens))
    rw [called, if_neg this]
    rfl

theorem bareName_of_keyword {name : String} {v : Value} (keyword : Keyword name v) :
    bareName t name = .ok (.literal v) := by
  rw [bareName, keyword_iff.mpr keyword]

theorem bareName_of_valid {name : String} (noKeyword : ∀ v, ¬ Keyword name v) (valid : Path.isValid name = true) :
    bareName t name = .ok (.reference name) := by
  have : Value.keyword? name = none :=
    Option.eq_none_iff_forall_ne_some.mpr fun v h => noKeyword v (keyword_iff.mp h)
  rw [bareName, this]
  dsimp only
  rw [if_pos valid]

theorem primary_of_isName {name : String} (named : t.IsName name) :
    primary finish t rest = called finish t name rest (bareName t name) := by
  rw [primary, named.1, named.2]

theorem primary_of_isMark (opens : t.IsMark "(") {closing : Token} (closes : closing.IsMark ")")
    (found : Reads finish (.level .or) tokens x (closing :: rest)) : Reads finish .primary (t :: tokens) x rest := by
  obtain ⟨shorter, found⟩ := found
  change chain finish .or tokens = _ at found
  refine ⟨by simp only [List.length_cons] at shorter ⊢; omega, ?_⟩
  change primary finish t tokens = _
  rw [primary, opens.1, opens.2]
  dsimp only
  rw [if_pos (by rfl), found]
  dsimp only
  rw [if_pos (Token.isPunctuation_iff.mpr closes)]

theorem primary_of_callee {name : String} {opening : Token} (callee : Callee t name) :
    ∃ alone, primary finish t (opening :: tokens) = called finish t name (opening :: tokens) alone := by
  cases callee with
  | name named => exact ⟨_, primary_of_isName named⟩
  | contains operates | notContains operates =>
    refine ⟨refused t, ?_⟩
    rw [primary, operates.1, operates.2]
    rfl

theorem reads_call {name : String} {opening : Token} {found : Parsed (List Expr) tokens} (callee : Callee t name)
    (opens : opening.IsMark "(") (taken : arguments finish tokens = .ok found) :
    Reads finish .primary (t :: opening :: tokens) (.call name found.tree) found.rest := by
  obtain ⟨alone, calls⟩ := primary_of_callee callee
  refine ⟨Nat.lt_succ_of_lt (Nat.lt_succ_of_lt found.shorter), calls.trans ?_⟩
  rw [called, if_pos (Token.isPunctuation_iff.mpr opens), taken]
  rfl

/-- Tokens of a phrase are read as its expression, before anything that does not go on with it. -/
def ReadsAlone (finish : Nat) (n : Phrase) (used : List Token) (x : Expr) : Prop :=
  ∀ rest, Stops n rest → Reads finish n (used ++ rest) x rest

theorem argumentList_one {closing : Token} (closes : closing.IsMark ")")
    (found : Reads finish (.level .or) tokens x (closing :: rest)) :
    ∃ shorter, argumentList finish tokens = .ok ⟨[x], rest, shorter⟩ := by
  obtain ⟨shorter, found⟩ := found
  change chain finish .or tokens = _ at found
  refine ⟨Nat.lt_of_succ_lt shorter, ?_⟩
  rw [argumentList, found]
  dsimp only
  rw [if_pos (Token.isPunctuation_iff.mpr closes)]

theorem argumentList_more {comma : Token} {others : Parsed (List Expr) mid} (separates : comma.IsMark ",")
    (found : Reads finish (.level .or) tokens x (comma :: mid)) (taken : argumentList finish mid = .ok others) :
    ∃ shorter, argumentList finish tokens = .ok ⟨x :: others.tree, others.rest, shorter⟩ := by
  obtain ⟨shorter, found⟩ := found
  change chain finish .or tokens = _ at found
  have open' : ¬ comma.isPunctuation ")" = true := fun closes =>
    absurd (separates.unique (Token.isPunctuation_iff.mp closes)) (by decide)
  refine ⟨Nat.lt_trans others.shorter (Nat.lt_of_succ_lt shorter), ?_⟩
  rw [argumentList, found]
  dsimp only
  rw [if_neg open', if_pos (Token.isPunctuation_iff.mpr separates), taken]
  rfl

theorem argumentList_of_separated {each : List (List Token × Expr)} {inner : List Token} {closing : Token}
    (closes : closing.IsMark ")") (separated : Separated (each.map (·.1)) inner) (some : each ≠ [])
    (reads : ∀ a ∈ each, ReadsAlone finish (.level .or) a.1 a.2) (rest : List Token) :
    ∃ shorter, argumentList finish (inner ++ closing :: rest) = .ok ⟨each.map (·.2), rest, shorter⟩ := by
  induction each generalizing inner with
  | nil => exact absurd rfl some
  | cons a each ih =>
    obtain ⟨readsFirst, readsOthers⟩ := List.forall_mem_cons.mp reads
    cases each with
    | nil =>
      cases separated with
      | one => exact argumentList_one closes (readsFirst _ (stops_of_mark closes (by decide)))
      | more _ others => exact absurd rfl others
    | cons b each =>
      cases separated with
      | more separates _ separated =>
        obtain ⟨shorter, taken⟩ := ih separated (List.cons_ne_nil _ _) readsOthers
        rw [List.append_assoc, List.cons_append]
        exact argumentList_more separates (readsFirst _ (stops_of_mark separates (by decide))) taken

theorem arguments_of_separated {each : List (List Token × Expr)} {inner : List Token} {closing : Token}
    (closes : closing.IsMark ")") (separated : Separated (each.map (·.1)) inner)
    (derived : ∀ a ∈ each, Derives (.level .or) a.1 a.2)
    (reads : ∀ a ∈ each, ReadsAlone finish (.level .or) a.1 a.2) (rest : List Token) :
    ∃ shorter, arguments finish (inner ++ closing :: rest) = .ok ⟨each.map (·.2), rest, shorter⟩ := by
  cases each with
  | nil =>
    cases separated
    refine ⟨by simp, ?_⟩
    change arguments finish (closing :: rest) = _
    rw [arguments, if_pos (Token.isPunctuation_iff.mpr closes)]
    rfl
  | cons a each =>
    obtain ⟨shorter, taken⟩ :=
      argumentList_of_separated closes separated (List.cons_ne_nil _ _) reads rest
    obtain ⟨t, tail, first, opens⟩ := (derived a List.mem_cons_self).first
    obtain ⟨behind, rfl⟩ := separated.front
    obtain ⟨front, tree⟩ := a
    obtain rfl : front = t :: tail := first
    have open' : ¬ t.isPunctuation ")" = true := fun closes => opens (Token.isPunctuation_iff.mp closes)
    refine ⟨shorter, ?_⟩
    change arguments finish (t :: (tail ++ behind ++ closing :: rest)) = _
    rw [arguments, if_neg open']
    exact taken

/-- What the reader makes of a phrase: on a level of operators, whatever follows the phrase on that level is read
with it. -/
def Complete (finish : Nat) : Phrase → List Token → Expr → Prop
  | .level l, used, x => ∀ rest final tail, Stops (operandOf l) rest → Extends finish l x rest final tail →
      Reads finish (.level l) (used ++ rest) final tail
  | n, used, x => ReadsAlone finish n used x

theorem Complete.readsAlone : ∀ {n : Phrase}, Complete finish n used x → ReadsAlone finish n used x
  | .level _, h, _, stops => h _ _ _ stops.operand (extends_stops stops)
  | .power, h, _, stops => h _ stops
  | .signed, h, _, stops => h _ stops
  | .primary, h, _, stops => h _ stops

theorem leads_of_primary (h : Derives .primary tokens x) :
    ∃ t tail, tokens = t :: tail ∧ t.operator?.bind UnaryOp.leading? = none := by
  have plain {t : Token} (other : t.kind ≠ .operator) : t.operator?.bind UnaryOp.leading? = none := by
    unfold Token.operator?
    split
    · exact absurd ‹_› other
    · rfl
  cases h with
  | number kind | string kind | reference kind => exact ⟨_, _, rfl, plain (by rw [kind]; decide)⟩
  | group opens => exact ⟨_, _, rfl, plain (by rw [opens.1]; decide)⟩
  | keyword named | question named => exact ⟨_, _, rfl, plain (by rw [named.1]; decide)⟩
  | call callee =>
    refine ⟨_, _, rfl, ?_⟩
    cases callee with
    | name named => exact plain (by rw [named.1]; decide)
    | contains operates | notContains operates =>
      rw [Token.operator?_eq_some.mpr operates]
      rfl

theorem complete_of_derives {n : Phrase} (h : Derives n used x) : Complete finish n used x := by
  induction h with
  | operand _ ih =>
    intro rest final tail stops all
    exact reads_chain (ih.readsAlone _ stops) all
  | joined _ operates between _ ih ih' =>
    intro rest final tail stops all
    rw [List.append_assoc, List.cons_append]
    have joins := extends_joined operates between (ih'.readsAlone _ stops) all
    exact ih _ _ _ (stops_of_level operates between.level) joins
  | marked _ operates behind ih =>
    intro rest final tail stops all
    rw [List.append_assoc, List.cons_append, List.nil_append]
    exact ih _ _ _ (stops_of_level operates behind.level) (extends_marked operates behind all)
  | base _ ih =>
    intro rest stops
    exact reads_power_base (ih rest stops.signed) stops
  | raised _ raises _ ih ih' =>
    intro rest stops
    rw [List.append_assoc, List.cons_append]
    exact reads_power_raised (ih _ (stops_of_raised raises)) raises (ih' rest stops)
  | plain derived ih =>
    intro rest stops
    obtain ⟨t, tail, rfl, plain⟩ := leads_of_primary derived
    exact reads_signed_plain plain (ih rest stops.primary)
  | signed operates leads _ ih =>
    intro rest stops
    exact reads_signed operates leads (ih rest stops)
  | number kind =>
    intro rest stops
    refine ⟨by simp, ?_⟩
    change primary finish _ _ = _
    rw [primary, kind]
    rfl
  | string kind =>
    intro rest stops
    refine ⟨by simp, ?_⟩
    change primary finish _ _ = _
    rw [primary, kind]
    rfl
  | reference kind value =>
    intro rest stops
    refine ⟨by simp, ?_⟩
    change primary finish _ _ = _
    rw [primary, kind, value]
    rfl
  | group opens _ closes ih =>
    intro rest stops
    rw [List.cons_append, List.append_assoc]
    exact primary_of_isMark opens closes (ih.readsAlone _ (stops_of_mark closes (by decide)))
  | call callee opens separated derived closes ih =>
    intro rest stops
    have reads := fun a mem => (ih a mem).readsAlone
    obtain ⟨shorter, taken⟩ := arguments_of_separated closes separated derived reads rest
    rw [List.cons_append, List.cons_append, List.append_assoc]
    exact reads_call callee opens taken
  | keyword named keyword =>
    intro rest stops
    refine ⟨by simp, ?_⟩
    change primary finish _ rest = _
    rw [primary_of_isName named, bareName_of_keyword keyword, called_alone stops]
    rfl
  | question named noKeyword valid =>
    intro rest stops
    refine ⟨by simp, ?_⟩
    change primary finish _ rest = _
    rw [primary_of_isName named, bareName_of_valid noKeyword valid, called_alone stops]
    rfl

/-! ### Whole lists of tokens -/

theorem chain_eq_ok_iff (finish : Nat) {tree : Expr} :
    (∃ shorter, chain finish .or tokens = .ok ⟨tree, [], shorter⟩) ↔ Writes tokens tree := by
  constructor
  · rintro ⟨shorter, found⟩
    obtain ⟨used, split, derived⟩ := takes_of_chain found
    obtain rfl : tokens = used := split.trans (List.append_nil used)
    exact derived
  · intro h
    have complete : Complete finish (.level .or) tokens tree := complete_of_derives h
    have := complete.readsAlone [] .nil
    rwa [List.append_nil] at this

theorem splitEnd_of_noEnd (noEnd : ∀ t ∈ tokens, t.kind ≠ .endOfText) :
    splitEnd tokens = (tokens, endPosition tokens) := by
  have all : tokens.takeWhile (·.kind != .endOfText) = tokens := by
    rw [List.takeWhile_eq_self_iff]
    simpa using noEnd
  have none : tokens.find? (·.kind == .endOfText) = none := by
    rw [List.find?_eq_none]
    simpa using noEnd
  simp only [splitEnd, all, none]

theorem splitEnd_append_end {t : Token} (noEnd : ∀ t ∈ tokens, t.kind ≠ .endOfText) (ending : t.kind = .endOfText) :
    splitEnd (tokens ++ [t]) = (tokens, t.position) := by
  have all : (tokens ++ [t]).takeWhile (·.kind != .endOfText) = tokens := by
    rw [List.takeWhile_append_of_pos (by simpa using noEnd)]
    simp [ending]
  have found : (tokens ++ [t]).find? (·.kind == .endOfText) = some t := by
    rw [List.find?_append, List.find?_eq_none.mpr (by simpa using noEnd)]
    simp [ending]
  simp only [splitEnd, all, found]

end Parser

namespace Expr
open Grammar

variable {tokens : List Token} {tree : Expr}

theorem ofTokens_eq_ok_iff_of_splitEnd {body : List Token} {finish : Nat}
    (ends : Parser.splitEnd tokens = (body, finish)) : ofTokens tokens = .ok tree ↔ Writes body tree := by
  rw [← Parser.chain_eq_ok_iff finish, ofTokens, ends]
  dsimp only
  cases body with
  | nil =>
    constructor
    · intro h
      cases h
    · rintro ⟨shorter, -⟩
      exact absurd shorter (Nat.not_lt_zero _)
  | cons t rest =>
    rw [if_neg (by simp)]
    cases found : Parser.chain finish .or (t :: rest) with
    | error e => simp
    | ok p =>
      obtain ⟨x, left, shorter⟩ := p
      cases left with
      | nil => simp
      | cons trailing left => simp

theorem ofTokens_eq_ok_iff (noEnd : ∀ t ∈ tokens, t.kind ≠ .endOfText) :
    ofTokens tokens = .ok tree ↔ Writes tokens tree :=
  ofTokens_eq_ok_iff_of_splitEnd (Parser.splitEnd_of_noEnd noEnd)

theorem ofText_eq_ok_iff {source : String} {body : List Token} {last : Token}
    (cut : Token.ofText source = .ok (body ++ [last])) (noEnd : ∀ t ∈ body, t.kind ≠ .endOfText)
    (ends : last.kind = .endOfText) : ofText source = .ok tree ↔ Writes body tree := by
  rw [← ofTokens_eq_ok_iff_of_splitEnd (Parser.splitEnd_append_end noEnd ends), ofText, cut]
  dsimp only
  cases ofTokens (body ++ [last]) with
  | error e => simp
  | ok e => simp

/-- The parser accepts what the grammar derives, with the tree of the derivation; it refuses every other list of
tokens; and no list of tokens has two trees. -/
theorem ofTokens_recognizes_grammar (tokens : List Token) (noEnd : ∀ t ∈ tokens, t.kind ≠ .endOfText) :
    (∀ tree, ofTokens tokens = .ok tree ↔ Writes tokens tree) ∧
      ((∀ tree, ¬ Writes tokens tree) ↔ ∃ error, ofTokens tokens = .error error) ∧
      ∀ tree other, Writes tokens tree → Writes tokens other → tree = other := by
  refine ⟨fun tree => ofTokens_eq_ok_iff noEnd, ⟨fun none => ?_, ?_⟩, fun tree other first second => ?_⟩
  · cases result : ofTokens tokens with
    | ok tree => exact absurd ((ofTokens_eq_ok_iff noEnd).mp result) (none tree)
    | error e => exact ⟨e, rfl⟩
  · rintro ⟨error, refused⟩ tree writes
    rw [(ofTokens_eq_ok_iff noEnd).mpr writes] at refused
    cases refused
  · have := ((ofTokens_eq_ok_iff noEnd).mpr first).symm.trans ((ofTokens_eq_ok_iff noEnd).mpr second)
    cases this
    rfl

/-- The tokens of `-{a} ^ 2`. -/
def negatedSquare : List Token :=
  [⟨.operator, "-", 0, .text "-"⟩, ⟨.reference, "\x7ba\x7d", 1, .text "a"⟩, ⟨.operator, "^", 5, .text "^"⟩,
    ⟨.number, "2", 7, .number (.int 2)⟩]

/-- The minus sign binds tighter than the power, so `-{a} ^ 2` is the square of `-{a}`. -/
theorem negatedSquare_read :
    ofTokens negatedSquare =
      .ok (.binary (.arithmetic .power) (.unary .negate (.reference "a")) (.literal (.number (.int 2)))) := by
  have minus : Derives .signed (negatedSquare.take 2) (.unary .negate (.reference "a")) :=
    .signed ⟨rfl, rfl⟩ .negate (.plain (.reference rfl rfl))
  have square : Derives .power negatedSquare _ := .raised minus ⟨rfl, rfl⟩ (.base (.plain (.number rfl)))
  have sum : Derives (.level .additive) negatedSquare _ := .operand (.operand square)
  exact ((ofTokens_recognizes_grammar negatedSquare (by decide)).1 _).mpr
    (.operand (.operand (.operand (.operand sum))))

end Expr

end Questionnaire
