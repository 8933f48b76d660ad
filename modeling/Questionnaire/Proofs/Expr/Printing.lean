import Questionnaire.Proofs.Expr.Lexemes
import Questionnaire.Proofs.Expr.Parsing

/-!
# What is written is read back

The text of an expression is cut into tokens that derive the expression, and so the expression is read from its text.
Every node is written as a phrase of the tightest kind: as one token, as a call, or as a group.  Such a phrase is an
operand of every operator, which is why nothing has to be known of the operators around it.
-/
namespace Questionnaire

open Lexeme Grammar

namespace Grammar

variable {n : Phrase} {l : Level} {tokens : List Token} {x : Expr}

/-! ## Looser phrases -/

theorem Derives.ofPower (h : Derives .power tokens x) : Derives (.level l) tokens x := by
  have product : Derives (.level .multiplicative) tokens x := .operand h
  have sum : Derives (.level .additive) tokens x := .operand product
  have relation : Derives (.level .relational) tokens x := .operand sum
  have equality : Derives (.level .equality) tokens x := .operand relation
  cases l with
  | multiplicative => exact product
  | additive => exact sum
  | relational => exact relation
  | equality => exact equality
  | and => exact .operand equality
  | or => exact .operand (.operand equality)

/-- A phrase of the tightest kind is one of every kind. -/
theorem Derives.ofPrimary (h : Derives .primary tokens x) : Derives n tokens x := by
  cases n with
  | primary => exact h
  | signed => exact .plain h
  | power => exact .base (.plain h)
  | level l => exact .ofPower (.base (.plain h))

/-- A phrase of any level is an expression. -/
theorem Derives.writes (h : Derives (.level l) tokens x) : Writes tokens x := by
  cases l with
  | or => exact h
  | and => exact .operand h
  | equality => exact .operand (.operand h)
  | relational => exact .operand (.operand (.operand h))
  | additive => exact .operand (.operand (.operand (.operand h)))
  | multiplicative => exact .operand (.operand (.operand (.operand (.operand h))))

/-- What holds of all tokens of some lists, and of commas, holds of the tokens of the lists in a row. -/
theorem Separated.forall_mem {p : Token → Prop} {lists : List (List Token)} (h : Separated lists tokens)
    (each : ∀ list ∈ lists, ∀ t ∈ list, p t) (comma : ∀ t : Token, t.IsMark "," → p t) : ∀ t ∈ tokens, p t := by
  induction h with
  | none => exact List.forall_mem_nil p
  | one => exact each _ List.mem_cons_self
  | more mark _ _ ih =>
    obtain ⟨first, later⟩ := List.forall_mem_cons.mp each
    exact List.forall_mem_append.mpr ⟨first, List.forall_mem_cons.mpr ⟨comma _ mark, ih later⟩⟩

/-- No phrase holds the end of a text. -/
theorem Derives.noEnd (h : Derives n tokens x) : ∀ t ∈ tokens, t.kind ≠ .endOfText := by
  have other {t : Token} {kind : TokenKind} (is : t.kind = kind) (no : kind ≠ .endOfText) : t.kind ≠ .endOfText :=
    is ▸ no
  induction h with
  | operand _ ih | base _ ih | plain _ ih => exact ih
  | joined _ operates _ _ ih ih' =>
    exact List.forall_mem_append.mpr ⟨ih, List.forall_mem_cons.mpr ⟨other operates.1 (by decide), ih'⟩⟩
  | marked _ operates _ ih =>
    exact List.forall_mem_append.mpr ⟨ih, List.forall_mem_singleton.mpr (other operates.1 (by decide))⟩
  | raised _ operates _ ih ih' =>
    exact List.forall_mem_append.mpr ⟨ih, List.forall_mem_cons.mpr ⟨other operates.1 (by decide), ih'⟩⟩
  | signed operates _ _ ih => exact List.forall_mem_cons.mpr ⟨other operates.1 (by decide), ih⟩
  | number kind | string kind | reference kind => exact List.forall_mem_singleton.mpr (other kind (by decide))
  | keyword named | question named => exact List.forall_mem_singleton.mpr (other named.1 (by decide))
  | group opens _ closes ih =>
    refine List.forall_mem_cons.mpr ⟨other opens.1 (by decide), List.forall_mem_append.mpr ⟨ih, ?_⟩⟩
    exact List.forall_mem_singleton.mpr (other closes.1 (by decide))
  | call callee opens separated _ closes ih =>
    have inner := separated.forall_mem (p := fun t => t.kind ≠ .endOfText) ?_ fun t comma => other comma.1 (by decide)
    · refine List.forall_mem_cons.mpr ⟨?_, List.forall_mem_cons.mpr ⟨other opens.1 (by decide),
        List.forall_mem_append.mpr ⟨inner, List.forall_mem_singleton.mpr (other closes.1 (by decide))⟩⟩⟩
      cases callee with
      | name named => exact other named.1 (by decide)
      | contains operates | notContains operates => exact other operates.1 (by decide)
    · intro list mem
      obtain ⟨a, mem', rfl⟩ := List.mem_map.mp mem
      exact ih a mem'

/-- Operators between two operands are written with their one symbol. -/
theorem canonical_binary (op : BinaryOp) : canonical op.symbol = op.symbol := by
  cases op with
  | arithmetic op => cases op <;> rfl
  | relation r => cases r <;> rfl
  | _ => rfl

theorem canonical_logical (op : LogicalOp) : canonical op.symbol = op.symbol := by
  cases op <;> rfl

/-- Operators of two operands other than the power stand between operands of a level. -/
theorem exists_between {op : BinaryOp} (other : op ≠ .arithmetic .power) :
    ∃ l, Between l op.symbol (.binary op) := by
  cases op with
  | arithmetic op =>
    cases op with
    | add => exact ⟨_, .add⟩
    | subtract => exact ⟨_, .subtract⟩
    | multiply => exact ⟨_, .multiply⟩
    | divide => exact ⟨_, .divide⟩
    | modulo => exact ⟨_, .modulo⟩
    | power => exact absurd rfl other
  | equal => exact ⟨_, .equal⟩
  | notEqual => exact ⟨_, .notEqual⟩
  | relation r =>
    cases r with
    | less => exact ⟨_, .less⟩
    | lessEqual => exact ⟨_, .lessEqual⟩
    | greater => exact ⟨_, .greater⟩
    | greaterEqual => exact ⟨_, .greaterEqual⟩
  | contains => exact ⟨_, .contains⟩
  | notContains => exact ⟨_, .notContains⟩

theorem exists_between_logical (op : LogicalOp) : ∃ l, Between l op.symbol (.logical op) := by
  cases op with
  | and => exact ⟨_, .and⟩
  | or => exact ⟨_, .or⟩

end Grammar

/-! ## Texts and their tokens -/

namespace Token

variable {position : Nat} {cs left right : List Char} {symbol : String} {t : Token}
  {tokens before following : List Token}

/-- The symbols that are names. -/
def words : List String := ["and", "or", "contains", "notcontains", "empty", "notempty"]

theorem mem_binary (op : BinaryOp) : op.symbol ∈ symbols ++ words := by
  cases op with
  | arithmetic op => cases op <;> decide
  | relation r => cases r <;> decide
  | equal | notEqual | contains | notContains => decide

theorem mem_logical (op : LogicalOp) : op.symbol ∈ symbols ++ words := by
  cases op <;> decide

theorem exists_operator (mem : symbol ∈ symbols ++ words) (position : Nat) :
    ∃ t : Token, Cuts position symbol.toList [t] ∧ t.IsOperator (canonical symbol) := by
  rcases List.mem_append.mp mem with mark | word
  · exact ⟨_, cuts_operator mark position, rfl, rfl⟩
  · have each : ∀ name ∈ words, isName name.toList = true ∧ lowered name ∈ wordOperators ∧
        lowered name = canonical name := by decide +kernel
    obtain ⟨name, operates, same⟩ := each symbol word
    exact ⟨_, cuts_word name operates position, rfl, congrArg Value.text same⟩

theorem Cuts.preceded (operator : Cuts position symbol.toList [t])
    (operand : Cuts (position + symbol.toList.length + 1) cs tokens) :
    Cuts position (Expr.preceded symbol cs) (t :: tokens) :=
  operator.append operand.blank (parting_cons.mpr List.mem_cons_self)

theorem Cuts.followed (operand : Cuts position cs tokens)
    (operator : Cuts (position + cs.length + 1) symbol.toList [t]) :
    Cuts position (Expr.followed cs symbol) (tokens ++ [t]) :=
  operand.append operator.blank (parting_cons.mpr List.mem_cons_self)

theorem Cuts.infixed (first : Cuts position left before)
    (operator : Cuts (position + left.length + 1) symbol.toList [t])
    (second : Cuts (position + left.length + 1 + symbol.toList.length + 1) right following) :
    Cuts position (Expr.infixed left symbol right) (before ++ t :: following) :=
  first.append (operator.preceded second).blank (parting_cons.mpr List.mem_cons_self)

end Token

namespace Expr
open Token

/-- Names that can be called: those that are no operators, and the two operators that are functions too. -/
def Callable (name : String) : Prop :=
  isName name.toList = true ∧ (lowered name ∉ wordOperators ∨ name = "contains" ∨ name = "notcontains")

/-- The expressions that can be written: literals are nothing, booleans, naturals with few enough digits, and texts;
references are paths without blanks at their ends; and what is called can be called. -/
inductive Printable : Expr → Prop
  | nothing : Printable (.literal .undefined)
  | boolean (b : Bool) : Printable (.literal (.boolean b))
  | natural {n : Nat} : n < digitBound → Printable (.literal (.number (.int n)))
  | text (s : String) : Printable (.literal (.text s))
  | reference {path : String} : Path.isValid path = true → Text.strip path.toList = path.toList →
      Printable (.reference path)
  | unary {op : UnaryOp} {operand : Expr} : Printable operand → Printable (.unary op operand)
  | binary {op : BinaryOp} {left right : Expr} : Printable left → Printable right → Printable (.binary op left right)
  | logical {op : LogicalOp} {left right : Expr} :
      Printable left → Printable right → Printable (.logical op left right)
  | call {name : String} {arguments : List Expr} : Callable name → (∀ a ∈ arguments, Printable a) →
      Printable (.call name arguments)

/-- Wherever a text begins, it is cut into tokens that derive an expression as a phrase of the tightest kind. -/
def Spells (cs : List Char) (x : Expr) : Prop :=
  ∀ position, ∃ tokens, Cuts position cs tokens ∧ Derives .primary tokens x

variable {cs left right : List Char} {x y : Expr} {symbol : String}

/-- A text in parentheses spells what the text writes. -/
theorem spells_grouped (h : ∀ position, ∃ tokens, Cuts position cs tokens ∧ Writes tokens x) :
    Spells (grouped cs) x := by
  intro position
  obtain ⟨tokens, cut, writes⟩ := h (position + 1)
  exact ⟨_, cut.grouped, .group ⟨rfl, rfl⟩ writes ⟨rfl, rfl⟩⟩

theorem spells_name {name : String} {v : Value} (isName : isName name.toList = true)
    (plain : lowered name ∉ wordOperators) (keyword : Keyword name v) : Spells name.toList (.literal v) :=
  fun position => ⟨_, cuts_name isName plain position, .keyword ⟨rfl, rfl⟩ keyword⟩

theorem Spells.inFront {op : UnaryOp} (operand : Spells cs x) (mem : symbol ∈ symbols ++ words)
    (inFront : InFront (canonical symbol) op) : Spells (grouped (preceded symbol cs)) (.unary op x) := by
  refine spells_grouped fun position => ?_
  obtain ⟨t, cut, operates⟩ := exists_operator mem position
  obtain ⟨tokens, cut', derives⟩ := operand (position + symbol.toList.length + 1)
  exact ⟨_, cut.preceded cut', .ofPower (.base (.signed operates inFront derives.ofPrimary))⟩

theorem Spells.behind {op : UnaryOp} {l : Level} (operand : Spells cs x) (mem : symbol ∈ symbols ++ words)
    (behind : Behind l (canonical symbol) op) : Spells (grouped (followed cs symbol)) (.unary op x) := by
  refine spells_grouped fun position => ?_
  obtain ⟨tokens, cut, derives⟩ := operand position
  obtain ⟨t, cut', operates⟩ := exists_operator mem (position + cs.length + 1)
  exact ⟨_, cut.followed cut', (Derives.marked derives.ofPrimary operates behind).writes⟩

/-- Operands with an operator between them, if the operator joins what they derive. -/
theorem Spells.infixed {z : Expr} (first : Spells left x) (second : Spells right y) (mem : symbol ∈ symbols ++ words)
    (joins : ∀ (before following : List Token) (t : Token), Derives .primary before x →
      t.IsOperator (canonical symbol) → Derives .primary following y → Writes (before ++ t :: following) z) :
    Spells (grouped (Expr.infixed left symbol right)) z := by
  refine spells_grouped fun position => ?_
  obtain ⟨before, cut, derives⟩ := first position
  obtain ⟨t, cut', operates⟩ := exists_operator mem (position + left.length + 1)
  obtain ⟨following, cut'', derives'⟩ := second (position + left.length + 1 + symbol.toList.length + 1)
  exact ⟨_, cut.infixed cut' cut'', joins before following t derives operates derives'⟩

theorem exists_callee {name : String} (callable : Callable name) (position : Nat) :
    ∃ t, Cuts position name.toList [t] ∧ Callee t name := by
  obtain ⟨isName, plain | rfl | rfl⟩ := callable
  · exact ⟨_, cuts_name isName plain position, .name ⟨rfl, rfl⟩⟩
  · obtain ⟨t, cut, operates⟩ := exists_operator (by decide : "contains" ∈ symbols ++ words) position
    exact ⟨t, cut, .contains operates⟩
  · obtain ⟨t, cut, operates⟩ := exists_operator (by decide : "notcontains" ∈ symbols ++ words) position
    exact ⟨t, cut, .notContains operates⟩

/-- The arguments of a call are cut into the tokens of each, with a comma between neighbours. -/
theorem exists_arguments {arguments : List Expr} (each : ∀ a ∈ arguments, Spells (written a) a) (position : Nat) :
    ∃ (pairs : List (List Token × Expr)) (tokens : List Token),
      Cuts position (writtenArguments arguments) tokens ∧ Separated (pairs.map (·.1)) tokens ∧
        (∀ a ∈ pairs, Writes a.1 a.2) ∧ pairs.map (·.2) = arguments := by
  induction arguments generalizing position with
  | nil => exact ⟨[], [], cuts_nil position, .none, List.forall_mem_nil _, rfl⟩
  | cons first rest ih =>
    obtain ⟨here, later⟩ := List.forall_mem_cons.mp each
    obtain ⟨tokens, cut, derives⟩ := here position
    cases rest with
    | nil =>
      refine ⟨[(tokens, first)], tokens, ?_, .one, List.forall_mem_singleton.mpr derives.ofPrimary, rfl⟩
      rwa [writtenArguments]
    | cons next rest =>
      obtain ⟨pairs, following, cut', separated, writes, same⟩ := ih later (position + (written first).length + 1 + 1)
      have comma := cuts_mark (c := ',') (by decide) (position + (written first).length)
      have others : pairs.map (·.1) ≠ [] := by
        intro none
        rw [List.map_eq_nil_iff.mp none] at same
        cases same
      refine ⟨(tokens, first) :: pairs, tokens ++ mark (position + (written first).length) ',' :: following, ?_,
        .more ⟨rfl, rfl⟩ others separated,
        List.forall_mem_cons.mpr ⟨derives.ofPrimary, writes⟩, by rw [List.map_cons, same]⟩
      rw [writtenArguments]
      refine cut.append (comma.append cut'.blank ?_) (parting_cons.mpr (by decide))
      exact parting_cons.mpr List.mem_cons_self

theorem spells_call {name : String} {arguments : List Expr} (callable : Callable name)
    (each : ∀ a ∈ arguments, Spells (written a) a) :
    Spells (name.toList ++ grouped (writtenArguments arguments)) (.call name arguments) := by
  intro position
  obtain ⟨t, cut, callee⟩ := exists_callee callable position
  obtain ⟨pairs, tokens, cut', separated, writes, same⟩ :=
    exists_arguments each (position + name.toList.length + 1)
  refine ⟨_, cut.append cut'.grouped (parting_cons.mpr (by decide)), ?_⟩
  rw [← same]
  exact .call callee ⟨rfl, rfl⟩ separated writes ⟨rfl, rfl⟩

/-- What is written of an expression spells it. -/
theorem Printable.spells (h : x.Printable) : Spells (written x) x := by
  induction h with
  | nothing =>
    rw [written]
    exact spells_name (by decide : isName "null".toList = true) (by decide) (.null rfl)
  | boolean b =>
    rw [written]
    cases b with
    | true => exact spells_name (by decide : isName "true".toList = true) (by decide) (.true rfl)
    | false => exact spells_name (by decide : isName "false".toList = true) (by decide) (.false rfl)
  | natural small =>
    rw [written]
    exact fun position => ⟨_, cuts_number small position, .number rfl⟩
  | text s =>
    rw [written]
    exact fun position => ⟨_, cuts_quoted s position, .string rfl⟩
  | reference valid trimmed =>
    rw [written]
    exact fun position => ⟨_, cuts_reference valid trimmed position, .reference rfl rfl⟩
  | @unary op operand _ ih =>
    cases op with
    | not =>
      rw [written]
      exact ih.inFront (by decide) .not
    | negate =>
      rw [written]
      exact ih.inFront (by decide) .negate
    | empty =>
      rw [written]
      exact ih.behind (by decide) .empty
    | notEmpty =>
      rw [written]
      exact ih.behind (by decide) .notEmpty
  | @binary op left right _ _ ih ih' =>
    rw [written]
    refine ih.infixed ih' (mem_binary op) fun before following t derives operates derives' => ?_
    rw [canonical_binary] at operates
    by_cases power : op = .arithmetic .power
    · rw [power] at operates ⊢
      exact .ofPower (.raised derives.ofPrimary operates derives'.ofPrimary)
    · obtain ⟨l, between⟩ := exists_between power
      exact (Derives.joined derives.ofPrimary operates between derives'.ofPrimary).writes
  | @logical op left right _ _ ih ih' =>
    rw [written]
    refine ih.infixed ih' (mem_logical op) fun before following t derives operates derives' => ?_
    rw [canonical_logical] at operates
    obtain ⟨l, between⟩ := exists_between_logical op
    exact (Derives.joined derives.ofPrimary operates between derives'.ofPrimary).writes
  | call callable _ ih =>
    rw [written]
    exact spells_call callable ih

/-- Every expression that can be written is read back from its text. -/
theorem ofText_print (h : x.Printable) : ofText x.print = .ok x := by
  obtain ⟨tokens, cut, derives⟩ := h.spells 0
  have lexed : scan 0 (written x) = .ok (tokens ++ [⟨.endOfText, "", 0 + (written x).length, .undefined⟩]) := by
    have cut := cut [] parting_nil
    rw [List.append_nil, scan] at cut
    exact cut
  have ends := Parser.splitEnd_append_end (t := ⟨.endOfText, "", 0 + (written x).length, .undefined⟩) derives.noEnd rfl
  have parsed := (ofTokens_eq_ok_iff_of_splitEnd ends).mpr derives.ofPrimary
  rw [ofText, Token.ofText, print, String.toList_ofList, lexed]
  simp only [parsed]

/-- An operator used as a function and between operands, with a text that holds a quote, a backslash, braces and a line
break. -/
def hardTexts : Expr :=
  .logical .or (.unary .not (.call "contains" [.reference "a.b[0]", .literal (.text "it's \\ \x7bx\x7d\n")]))
    (.binary .contains (.unary .notEmpty (.literal .undefined)) (.unary .negate (.literal (.number (.int 12)))))

example : hardTexts.print =
    "((! contains(\x7ba.b[0]\x7d, 'it\\'s \\\\ \x7bx\x7d\n')) or ((null notempty) contains (- 12)))" := by
  decide +kernel

theorem hardTexts_read : hardTexts.Printable ∧ ofText hardTexts.print = .ok hardTexts := by
  have called : Printable (.call "contains" [.reference "a.b[0]", .literal (.text "it's \\ \x7bx\x7d\n")]) := by
    refine .call ⟨by decide +kernel, .inr (.inl rfl)⟩
      (List.forall_mem_cons.mpr ⟨?_, List.forall_mem_singleton.mpr (.text _)⟩)
    exact .reference (by decide +kernel) (by decide +kernel)
  have small : Printable (.literal (.number (.int 12))) := .natural (n := 12) (by decide +kernel)
  have printable : hardTexts.Printable := .logical called.unary (.binary (.unary .nothing) small.unary)
  exact ⟨printable, ofText_print printable⟩

end Expr

end Questionnaire
