import Questionnaire.Proofs.Expr.Printing
import Questionnaire.Proofs.Expr.Tiling

/-!
# Where a text stops being an expression

The parser refuses a text at a place up to which nothing is wrong: what stands in front of it is the beginning of an
expression.  To complete it takes one operand at most, where one is missing, and closing parentheses for what is open.

The readers of the parser are gone through once more, now for the places where they fail.  A reader that fails has
taken some tokens off the front, which begin a phrase of its kind, and it fails at the first token that it has not
taken.
-/
namespace Questionnaire

namespace Grammar

/-! ## What completes a phrase -/

/-- The number zero, where an operand is missing. -/
def operandToken : Token := ⟨.number, "0", 0, .int 0⟩

def closingToken : Token := ⟨.punctuation, ")", 0, .text ")"⟩

/-- An operand, if one is missing, and closing parentheses. -/
def completion (missing : Bool) (depth : Nat) : List Token :=
  (if missing then [operandToken] else []) ++ List.replicate depth closingToken

theorem completion_succ (missing : Bool) (depth : Nat) :
    completion missing (depth + 1) = completion missing depth ++ [closingToken] := by
  rw [completion, completion, List.replicate_succ', List.append_assoc]

/-- Tokens that begin a phrase. -/
def Begins (n : Phrase) (used : List Token) : Prop :=
  ∃ missing depth x, Derives n (used ++ completion missing depth) x

/-- Tokens that begin the arguments of a call, of which there is one or more. -/
def BeginsArguments (used : List Token) : Prop :=
  ∃ missing depth, ∃ each : List (List Token × Expr), each ≠ [] ∧
    Separated (each.map (·.1)) (used ++ completion missing depth) ∧ ∀ a ∈ each, Derives (.level .or) a.1 a.2

variable {n : Phrase} {l : Level} {used before : List Token} {x : Expr} {t : Token} {symbol : String}

theorem Begins.of_derives (h : Derives n used x) : Begins n used :=
  ⟨false, 0, x, by simpa [completion] using h⟩

/-- Any phrase may begin with what is still to come. -/
theorem Begins.nil (n : Phrase) : Begins n [] :=
  ⟨true, 0, _, .ofPrimary (.number rfl)⟩

theorem Begins.operand (h : Begins (operandOf l) used) : Begins (.level l) used := by
  obtain ⟨missing, depth, x, derived⟩ := h
  exact ⟨missing, depth, x, .operand derived⟩

theorem Begins.base (h : Begins .signed used) : Begins .power used := by
  obtain ⟨missing, depth, x, derived⟩ := h
  exact ⟨missing, depth, x, .base derived⟩

theorem Begins.plain (h : Begins .primary used) : Begins .signed used := by
  obtain ⟨missing, depth, x, derived⟩ := h
  exact ⟨missing, depth, x, .plain derived⟩

theorem Begins.joined {c : Connective} (done : Derives (.level l) before x) (operates : t.IsOperator symbol)
    (between : Between l symbol c) (h : Begins (operandOf l) used) : Begins (.level l) (before ++ t :: used) := by
  obtain ⟨missing, depth, right, derived⟩ := h
  refine ⟨missing, depth, c.join x right, ?_⟩
  rw [List.append_assoc, List.cons_append]
  exact .joined done operates between derived

theorem Begins.raised (done : Derives .signed before x) (raises : t.IsOperator "^") (h : Begins .power used) :
    Begins .power (before ++ t :: used) := by
  obtain ⟨missing, depth, exponent, derived⟩ := h
  refine ⟨missing, depth, .binary (.arithmetic .power) x exponent, ?_⟩
  rw [List.append_assoc, List.cons_append]
  exact .raised done raises derived

theorem Begins.signed {op : UnaryOp} (operates : t.IsOperator symbol) (leads : InFront symbol op)
    (h : Begins .signed used) : Begins .signed (t :: used) := by
  obtain ⟨missing, depth, x, derived⟩ := h
  exact ⟨missing, depth, _, .signed operates leads derived⟩

theorem Begins.group (opens : t.IsMark "(") (h : Begins (.level .or) used) : Begins .primary (t :: used) := by
  obtain ⟨missing, depth, x, derived⟩ := h
  refine ⟨missing, depth + 1, x, ?_⟩
  rw [completion_succ, ← List.append_assoc, List.cons_append, List.cons_append]
  exact .group opens derived ⟨rfl, rfl⟩

theorem Begins.call {name : String} {opening : Token} (callee : Callee t name) (opens : opening.IsMark "(")
    (h : BeginsArguments used) : Begins .primary (t :: opening :: used) := by
  obtain ⟨missing, depth, each, -, separated, derived⟩ := h
  refine ⟨missing, depth + 1, .call name (each.map (·.2)), ?_⟩
  rw [completion_succ, ← List.append_assoc, List.cons_append, List.cons_append, List.cons_append, List.cons_append]
  exact .call callee opens separated derived ⟨rfl, rfl⟩

theorem BeginsArguments.one (h : Begins (.level .or) used) : BeginsArguments used := by
  obtain ⟨missing, depth, x, derived⟩ := h
  exact ⟨missing, depth, [(_, x)], List.cons_ne_nil _ _, .one, List.forall_mem_singleton.mpr derived⟩

theorem BeginsArguments.more (done : Derives (.level .or) before x) (separates : t.IsMark ",")
    (h : BeginsArguments used) : BeginsArguments (before ++ t :: used) := by
  obtain ⟨missing, depth, each, some, separated, derived⟩ := h
  refine ⟨missing, depth, (before, x) :: each, List.cons_ne_nil _ _, ?_, List.forall_mem_cons.mpr ⟨done, derived⟩⟩
  rw [List.append_assoc, List.cons_append]
  exact .more separates (fun none => some (List.map_eq_nil_iff.mp none)) separated

end Grammar

/-! ## Where the readers fail -/

namespace Parser
open Grammar

/-- Where some tokens begin; at the end, if there are none. -/
def startOf (finish : Nat) (tokens : List Token) : Nat := (tokens.head?.map (·.position)).getD finish

/-- An error stands behind tokens that have a property, which are at the front of some tokens. -/
def Fails (finish : Nat) (p : List Token → Prop) (tokens : List Token) (error : ParseError) : Prop :=
  ∃ used rest, tokens = used ++ rest ∧ error.position = startOf finish rest ∧ p used

variable {finish : Nat} {p q : List Token → Prop} {tokens rest : List Token} {error : ParseError} {t : Token}

theorem Fails.imp (h : Fails finish p tokens error) (implies : ∀ used, p used → q used) :
    Fails finish q tokens error := by
  obtain ⟨used, rest, split, place, here⟩ := h
  exact ⟨used, rest, split, place, implies used here⟩

/-- An error behind more tokens. -/
theorem Fails.behind (front : List Token) (h : Fails finish (fun used => p (front ++ used)) tokens error) :
    Fails finish p (front ++ tokens) error := by
  obtain ⟨used, rest, rfl, place, here⟩ := h
  exact ⟨front ++ used, rest, (List.append_assoc _ _ _).symm, place, here⟩

theorem Fails.cons (h : Fails finish (fun used => p (t :: used)) tokens error) : Fails finish p (t :: tokens) error :=
  Fails.behind [t] h

/-- An error at the first of some tokens. -/
theorem fails_at_once (start : error.position = startOf finish tokens) (here : p []) : Fails finish p tokens error :=
  ⟨[], tokens, rfl, start, here⟩

/-- A token that is refused is the first one that was not taken. -/
theorem fails_of_refused {α : Type} {n : Phrase} (h : (refused t : Except ParseError α) = .error error) :
    Fails finish (Begins n) (t :: rest) error := by
  cases h
  exact fails_at_once rfl (.nil n)

theorem fails_of_bareName {name : String} {n : Phrase} (h : bareName t name = .error error) :
    Fails finish (Begins n) (t :: rest) error := by
  unfold bareName at h
  split at h
  · cases h
  · split at h
    · cases h
    · cases h
      exact fails_at_once rfl (.nil n)

mutual

theorem fails_of_chain {level : Level} {tokens : List Token} (h : chain finish level tokens = .error error) :
    Fails finish (Begins (.level level)) tokens error := by
  rw [chain] at h
  split at h
  · rename_i failed
    cases h
    exact (fails_of_operand failed).imp fun _ => .operand
  · rename_i first found
    have := first.shorter
    split at h
    · rename_i failed
      cases h
      obtain ⟨used, split, derived⟩ := takes_of_operand found
      rw [split]
      exact (fails_of_extend (.operand derived) failed).behind _
    · cases h
termination_by (tokens.length, level.rank, 1)

theorem fails_of_operand {tokens : List Token} : ∀ {level : Level}, operand finish level tokens = .error error →
    Fails finish (Begins (operandOf level)) tokens error
  | .or, h => fails_of_chain (operand_eq.symm.trans h)
  | .and, h => fails_of_chain (operand_eq.symm.trans h)
  | .equality, h => fails_of_chain (operand_eq.symm.trans h)
  | .relational, h => fails_of_chain (operand_eq.symm.trans h)
  | .additive, h => fails_of_chain (operand_eq.symm.trans h)
  | .multiplicative, h => fails_of_power (operand_eq.symm.trans h)
termination_by level => (tokens.length, level.rank, 0)
decreasing_by all_goals exact Prod.Lex.right _ (Prod.Lex.left _ _ (by decide))

/-- What follows a left operand fails behind that operand. -/
theorem fails_of_extend {level : Level} {left : Expr} {before : List Token}
    (done : Derives (.level level) before left) : ∀ {tokens : List Token},
    extend finish level left tokens = .error error →
      Fails finish (fun used => Begins (.level level) (before ++ used)) tokens error
  | [], h => by
    rw [extend] at h
    cases h
  | t :: rest, h => by
    rw [extend] at h
    split at h
    · rename_i op behind
      obtain ⟨symbol, operates, behind⟩ := Option.bind_eq_some_iff.mp behind
      split at h
      · rename_i failed
        cases h
        have fails := fails_of_extend
          (.marked done (Token.operator?_eq_some.mp operates) (behind_iff.mp behind)) failed
        exact Fails.cons (fails.imp fun used begins => by rwa [List.append_assoc] at begins)
      · cases h
    · split at h
      · cases h
      · rename_i c between
        obtain ⟨symbol, operates, between⟩ := Option.bind_eq_some_iff.mp between
        have operates := Token.operator?_eq_some.mp operates
        have between := between_iff.mp between
        split at h
        · rename_i failed
          cases h
          exact Fails.cons ((fails_of_operand failed).imp fun used => .joined done operates between)
        · rename_i right found
          have := right.shorter
          split at h
          · rename_i failed
            cases h
            obtain ⟨following, split, derived⟩ := takes_of_operand found
            have fails := fails_of_extend (.joined done operates between derived) failed
            rw [split]
            exact Fails.cons (Fails.behind _ (fails.imp fun used begins => by rwa [List.append_assoc] at begins))
          · cases h
termination_by tokens => (tokens.length, 0, 0)

theorem fails_of_power {tokens : List Token} (h : power finish tokens = .error error) :
    Fails finish (Begins .power) tokens error := by
  rw [power] at h
  split at h
  · rename_i failed
    cases h
    exact (fails_of_signed failed).imp fun _ => .base
  · cases h
  · rename_i base t rest shorter found
    have less : rest.length < tokens.length := Nat.lt_of_succ_lt shorter
    split at h
    · rename_i raises
      have raises := Token.operator?_eq_some.mp (beq_iff_eq.mp raises)
      split at h
      · rename_i failed
        cases h
        obtain ⟨before, split, derived⟩ := takes_of_signed found
        rw [split]
        exact Fails.behind _ (Fails.cons ((fails_of_power failed).imp fun used => .raised derived raises))
      · cases h
    · cases h
termination_by (tokens.length, 2, 0)

theorem fails_of_signed : ∀ {tokens : List Token}, signed finish tokens = .error error →
    Fails finish (Begins .signed) tokens error
  | [], h => by
    rw [signed] at h
    cases h
    exact fails_at_once rfl (.nil _)
  | t :: rest, h => by
    rw [signed] at h
    split at h
    · rename_i op leads
      obtain ⟨symbol, operates, leads⟩ := Option.bind_eq_some_iff.mp leads
      split at h
      · rename_i failed
        cases h
        have leads := inFront_iff.mp leads
        exact Fails.cons ((fails_of_signed failed).imp fun used => .signed (Token.operator?_eq_some.mp operates) leads)
      · cases h
    · exact (fails_of_primary h).imp fun _ => .plain
termination_by tokens => (tokens.length, 1, 0)

theorem fails_of_primary {t : Token} {rest : List Token} (h : primary finish t rest = .error error) :
    Fails finish (Begins .primary) (t :: rest) error := by
  rw [primary] at h
  split at h
  · cases h
  · cases h
  · cases h
  · rename_i symbol kind value
    split at h
    · rename_i callable
      exact fails_of_called (callee_of_operator kind value callable) (fun _ => fails_of_refused) h
    · exact fails_of_refused h
  · rename_i name kind value
    exact fails_of_called (.name ⟨kind, value⟩) (fun _ => fails_of_bareName) h
  · rename_i symbol kind value
    split at h
    · rename_i opens
      have opening : t.IsMark "(" := ⟨kind, by rw [value, beq_iff_eq.mp opens]⟩
      split at h
      · rename_i failed
        cases h
        exact Fails.cons ((fails_of_chain failed).imp fun used => .group opening)
      · rename_i found
        cases h
        obtain ⟨used, split, derived⟩ := takes_of_chain found
        exact Fails.cons ⟨used, [], split, rfl, .group opening (.of_derives derived)⟩
      · rename_i inner closing tail shorter found
        split at h
        · cases h
        · cases h
          obtain ⟨used, split, derived⟩ := takes_of_chain found
          exact Fails.cons ⟨used, closing :: tail, split, rfl, .group opening (.of_derives derived)⟩
    · exact fails_of_refused h
  · exact fails_of_refused h
termination_by (rest.length + 1, 0, 1)

theorem fails_of_called {t : Token} {name : String} (callee : Callee t name) {alone : Except ParseError Expr}
    (bare : ∀ rest, alone = .error error → Fails finish (Begins .primary) (t :: rest) error) :
    ∀ {rest : List Token}, called finish t name rest alone = .error error →
      Fails finish (Begins .primary) (t :: rest) error
  | [], h => by
    rw [called] at h
    exact bare [] (Outcome.map_eq_error.mp h)
  | opening :: tail, h => by
    rw [called] at h
    split at h
    · rename_i opens
      split at h
      · rename_i failed
        cases h
        have opens := Token.isPunctuation_iff.mp opens
        exact Fails.cons (Fails.cons ((fails_of_arguments failed).imp fun used => .call callee opens))
      · cases h
    · exact bare _ (Outcome.map_eq_error.mp h)
termination_by rest => (rest.length + 1, 0, 0)

theorem fails_of_arguments : ∀ {tokens : List Token}, arguments finish tokens = .error error →
    Fails finish BeginsArguments tokens error
  | [], h => by
    rw [arguments] at h
    exact fails_of_argumentList h
  | t :: rest, h => by
    rw [arguments] at h
    split at h
    · cases h
    · exact fails_of_argumentList h
termination_by tokens => (tokens.length, 10, 0)

theorem fails_of_argumentList {tokens : List Token} (h : argumentList finish tokens = .error error) :
    Fails finish BeginsArguments tokens error := by
  rw [argumentList] at h
  split at h
  · rename_i failed
    cases h
    exact (fails_of_chain failed).imp fun _ => .one
  · rename_i found
    cases h
    obtain ⟨used, split, derived⟩ := takes_of_chain found
    exact ⟨used, [], split, rfl, .one (.of_derives derived)⟩
  · rename_i first t rest shorter found
    obtain ⟨used, split, derived⟩ := takes_of_chain found
    have less : rest.length < tokens.length := Nat.lt_of_succ_lt shorter
    split at h
    · cases h
    · split at h
      · rename_i comma
        have separates := Token.isPunctuation_iff.mp comma
        split at h
        · rename_i failed
          cases h
          rw [split]
          exact Fails.behind _ (Fails.cons ((fails_of_argumentList failed).imp fun used => .more derived separates))
        · cases h
      · cases h
        exact ⟨used, t :: rest, split, rfl, .one (.of_derives derived)⟩
termination_by (tokens.length, 9, 0)
decreasing_by
  · exact Prod.Lex.right _ (Prod.Lex.left _ _ (by decide))
  · exact Prod.Lex.left _ _ less

end

end Parser

/-! ## Tokens in front of a place -/

namespace Token

variable {position : Nat} {cs : List Char} {used rest : List Token}

theorem Stands.lt_length {t : Token} (stands : Stands position cs t) : t.position < position + cs.length := by
  have some : t.text.toList ≠ [] := fun none => stands.text (String.toList_eq_nil_iff.mp none)
  have inside : cs.drop (t.position - position) ≠ [] := by
    intro none
    have slice := stands.slice
    rw [none, List.take_nil] at slice
    exact some slice.symm
  have := List.length_pos_iff.mpr inside
  rw [List.length_drop] at this
  have := stands.after
  omega

/-- The tokens that start before the first token of a rest are those in front of the rest. -/
theorem Tiles.filter_lt (tiles : Tiles position cs (used ++ rest)) :
    (used ++ rest ++ [ending (position + cs.length)]).filter
      (·.position < Parser.startOf (position + cs.length) rest) = used := by
  obtain ⟨standing, behind⟩ := List.forall_mem_append.mp tiles.stands
  obtain ⟨-, ordered, apart⟩ := List.pairwise_append.mp tiles.ordered
  have before : ∀ t ∈ used, t.position < Parser.startOf (position + cs.length) rest := by
    intro t mem
    cases rest with
    | nil => exact (standing t mem).lt_length
    | cons u rest =>
      have next := apart t mem u List.mem_cons_self
      have some : 0 < t.text.length := Nat.pos_of_ne_zero fun none =>
        (standing t mem).text (String.length_eq_zero_iff.mp none)
      change t.position < u.position
      omega
  have after : ∀ u ∈ rest, ¬ u.position < Parser.startOf (position + cs.length) rest := by
    intro u mem
    cases rest with
    | nil => cases mem
    | cons first rest =>
      change ¬ u.position < first.position
      rcases List.mem_cons.mp mem with rfl | later
      · exact Nat.lt_irrefl _
      · have next := (List.pairwise_cons.mp ordered).1 u later
        omega
  have last : Parser.startOf (position + cs.length) rest ≤ position + cs.length := by
    cases rest with
    | nil => exact Nat.le_refl _
    | cons first rest => exact Nat.le_of_lt (behind first List.mem_cons_self).lt_length
  rw [List.filter_append, List.filter_append, List.filter_eq_self.mpr (by simpa using before),
    List.filter_eq_nil_iff.mpr (by simpa using after), List.filter_eq_nil_iff.mpr (by simpa [ending] using last),
    List.append_nil, List.append_nil]

end Token

namespace Expr
open Grammar

/-- Tokens that begin an expression are completed to tokens that the parser accepts. -/
theorem exists_ofTokens_of_begins {used : List Token} (begins : Begins (.level .or) used) :
    ∃ missing depth tree, ofTokens (used ++ completion missing depth) = .ok tree := by
  obtain ⟨missing, depth, tree, derived⟩ := begins
  exact ⟨missing, depth, tree, (ofTokens_eq_ok_iff derived.noEnd).mpr derived⟩

/-- An error in a list of tokens stands behind tokens that begin an expression. -/
theorem ofTokens_error {tokens body : List Token} {finish : Nat} {error : ParseError}
    (ends : Parser.splitEnd tokens = (body, finish)) (refused : ofTokens tokens = .error error) :
    (body = [] ∧ error.position = 0) ∨ Parser.Fails finish (Begins (.level .or)) body error := by
  rw [ofTokens, ends] at refused
  dsimp only at refused
  split at refused
  · rename_i none
    cases refused
    exact Or.inl ⟨List.isEmpty_iff.mp none, rfl⟩
  · split at refused
    · rename_i failed
      cases refused
      exact Or.inr (Parser.fails_of_chain failed)
    · rename_i parsed found
      split at refused
      · cases refused
      · rename_i t rest left
        cases refused
        obtain ⟨used, split, derived⟩ := Parser.takes_of_chain found
        rw [left] at split
        exact Or.inr ⟨used, t :: rest, split, rfl, .of_derives derived⟩

/-- Where the parser refuses a text, all that stands in front of the place of the error can be completed to an
expression: at most an operand is missing, and open parentheses have to be closed. -/
theorem completable_before_error {source : String} {error : ParseError} (refused : ofText source = .error (.parse error)) :
    ∃ tokens, Token.ofText source = .ok tokens ∧ ∃ missing depth tree,
      ofTokens (tokens.filter (·.position < error.position) ++ completion missing depth) = .ok tree := by
  unfold ofText at refused
  split at refused
  · cases refused
  · rename_i tokens cut
    obtain ⟨body, rfl, lexed⟩ := Token.scan_eq_ok_iff.mp cut
    have tiles := lexed.tiles
    have noEnd : ∀ t ∈ body, t.kind ≠ .endOfText := fun t mem => (tiles.stands t mem).kind
    split at refused
    · rename_i failed
      cases refused
      refine ⟨_, cut, ?_⟩
      rcases ofTokens_error (Parser.splitEnd_append_end noEnd rfl) failed with
        ⟨-, start⟩ | ⟨used, rest, rfl, place, begins⟩
      · rw [start, List.filter_eq_nil_iff.mpr (by simp)]
        exact exists_ofTokens_of_begins (.nil _)
      · change error.position = Parser.startOf (0 + source.toList.length) rest at place
        rw [place, tiles.filter_lt]
        exact exists_ofTokens_of_begins begins
    · cases refused

/-- In `f(1, (2 3)` the second number of the group is refused; two parentheses complete what stands in front of it. -/
theorem openGroup_completable :
    ofText "f(1, (2 3)" = .error (.parse ⟨.unclosedGroup, 8⟩) ∧
      ∃ tokens, Token.ofText "f(1, (2 3)" = .ok tokens ∧
        (tokens.filter (·.position < 8)).map (·.text) = ["f", "(", "1", ",", "(", "2"] ∧
        ∃ missing depth tree, ofTokens (tokens.filter (·.position < 8) ++ completion missing depth) = .ok tree := by
  have refused : ofText "f(1, (2 3)" = .error (.parse ⟨.unclosedGroup, 8⟩) := by cbv
  obtain ⟨tokens, cut, complete⟩ := completable_before_error refused
  have texts : (Token.ofText "f(1, (2 3)").map (fun tokens => (tokens.filter (·.position < 8)).map (·.text)) =
      .ok ["f", "(", "1", ",", "(", "2"] := by cbv
  rw [cut] at texts
  exact ⟨refused, tokens, cut, Except.ok.inj texts, complete⟩

end Expr

end Questionnaire
