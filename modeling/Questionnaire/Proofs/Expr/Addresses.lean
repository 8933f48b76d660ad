import Questionnaire.Proofs.Expr.Parsing
import Questionnaire.Proofs.Outcome

/-!
# References are paths

The references of an expression that a text writes are paths.  Tokens that stand for references were checked when the
text was cut into tokens, and bare names are checked by the parser; the induction is over the derivation of the tree.
-/
namespace Questionnaire

/-! ### Nodes -/

namespace Expr

theorem nodes_literal (v : Value) : (literal v).nodes = [literal v] := rfl

theorem nodes_reference (path : String) : (reference path).nodes = [reference path] := rfl

theorem nodes_unary (op : UnaryOp) (operand : Expr) : (unary op operand).nodes = unary op operand :: operand.nodes :=
  rfl

theorem nodes_binary (op : BinaryOp) (left right : Expr) :
    (binary op left right).nodes = binary op left right :: (left.nodes ++ right.nodes) := rfl

theorem nodes_logical (op : LogicalOp) (left right : Expr) :
    (logical op left right).nodes = logical op left right :: (left.nodes ++ right.nodes) := rfl

theorem nodes_call (name : String) (arguments : List Expr) :
    (call name arguments).nodes = call name arguments :: nodesOf arguments := rfl

theorem nodesOf_cons (x : Expr) (rest : List Expr) : nodesOf (x :: rest) = x.nodes ++ nodesOf rest := rfl

theorem mem_nodes_self (x : Expr) : x ∈ x.nodes := by
  cases x <;> exact List.mem_cons_self

theorem nodes_unary_subset (op : UnaryOp) (operand : Expr) : operand.nodes ⊆ (unary op operand).nodes := by
  rw [nodes_unary]
  exact List.subset_cons_self _ _

theorem nodes_binary_subset (op : BinaryOp) (left right : Expr) :
    left.nodes ⊆ (binary op left right).nodes ∧ right.nodes ⊆ (binary op left right).nodes := by
  rw [nodes_binary]
  constructor
  · exact List.subset_cons_of_subset _ (List.subset_append_left _ _)
  · exact List.subset_cons_of_subset _ (List.subset_append_right _ _)

theorem nodes_logical_subset (op : LogicalOp) (left right : Expr) :
    left.nodes ⊆ (logical op left right).nodes ∧ right.nodes ⊆ (logical op left right).nodes := by
  rw [nodes_logical]
  constructor
  · exact List.subset_cons_of_subset _ (List.subset_append_left _ _)
  · exact List.subset_cons_of_subset _ (List.subset_append_right _ _)

theorem nodes_subset_nodesOf {x : Expr} {xs : List Expr} (mem : x ∈ xs) : x.nodes ⊆ nodesOf xs := by
  induction xs with
  | nil => cases mem
  | cons first rest ih =>
    rw [nodesOf_cons]
    rcases List.mem_cons.mp mem with rfl | later
    · exact List.subset_append_left _ _
    · exact List.subset_append_of_subset_right _ (ih later)

theorem nodes_call_subset (name : String) {arguments : List Expr} {x : Expr} (mem : x ∈ arguments) :
    x.nodes ⊆ (call name arguments).nodes := by
  rw [nodes_call]
  exact List.subset_cons_of_subset _ (nodes_subset_nodesOf mem)

/-- Every reference of an expression is a path. -/
def Addressed (x : Expr) : Prop := ∀ path, reference path ∈ x.nodes → Path.isValid path = true

theorem Addressed.mono {x y : Expr} (h : y.Addressed) (sub : x.nodes ⊆ y.nodes) : x.Addressed :=
  fun path mem => h path (sub mem)

theorem Addressed.unary {op : UnaryOp} {operand : Expr} (h : operand.Addressed) : (unary op operand).Addressed := by
  intro path mem
  rw [nodes_unary] at mem
  rcases List.mem_cons.mp mem with own | below
  · cases own
  · exact h path below

theorem Addressed.join {left right : Expr} (first : left.Addressed) (second : right.Addressed) (c : Connective) :
    (c.join left right).Addressed := by
  have below {path : String} (mem : reference path ∈ left.nodes ++ right.nodes) : Path.isValid path = true :=
    (List.mem_append.mp mem).elim (first path) (second path)
  intro path mem
  cases c with
  | binary op =>
    rw [Connective.join, nodes_binary] at mem
    rcases List.mem_cons.mp mem with own | mem
    · cases own
    · exact below mem
  | logical op =>
    rw [Connective.join, nodes_logical] at mem
    rcases List.mem_cons.mp mem with own | mem
    · cases own
    · exact below mem

theorem Addressed.call {name : String} {arguments : List Expr} (h : ∀ x ∈ arguments, x.Addressed) :
    (call name arguments).Addressed := by
  have below {path : String} {xs : List Expr} (all : ∀ x ∈ xs, x.Addressed) (mem : reference path ∈ nodesOf xs) :
      Path.isValid path = true := by
    induction xs with
    | nil => cases mem
    | cons first rest ih =>
      obtain ⟨here, later⟩ := List.forall_mem_cons.mp all
      rw [nodesOf_cons] at mem
      exact (List.mem_append.mp mem).elim (here path) (ih later)
  intro path mem
  rw [nodes_call] at mem
  rcases List.mem_cons.mp mem with own | mem
  · cases own
  · exact below h mem

theorem addressed_literal (v : Value) : (literal v).Addressed := by
  intro path mem
  rw [nodes_literal] at mem
  cases List.mem_singleton.mp mem

theorem addressed_reference {path : String} (valid : Path.isValid path = true) : (reference path).Addressed := by
  intro other mem
  rw [nodes_reference] at mem
  cases List.mem_singleton.mp mem
  exact valid

end Expr

/-! ### Tokens -/

namespace Token

/-- A token that stands for a reference stands for a path. -/
def Sound (t : Token) : Prop := t.kind = .reference → ∀ path, t.value = .text path → Path.isValid path = true

theorem sound_of_kind {t : Token} (other : t.kind ≠ .reference) : t.Sound := fun kind => absurd kind other

theorem sound_of_token? {kind : LexemeKind} {raw : List Char} {position : Nat} {t : Token}
    (h : Lexeme.token? kind raw position = .ok (some t)) : t.Sound := by
  unfold Lexeme.token? at h
  extract_lets text body path at h
  split at h
  case h_5 =>
    split at h
    · rename_i valid
      cases h
      rintro - _ ⟨⟩
      exact valid
    · cases h
  case h_7 =>
    split at h
    · cases h
      exact sound_of_kind (by rintro ⟨⟩)
    · cases h
  case h_9 =>
    split at h
    · cases h
      exact sound_of_kind (by rintro ⟨⟩)
    · cases h
      exact sound_of_kind (by rintro ⟨⟩)
  case h_10 =>
    rename_i other _ _ _ _
    cases h
    exact sound_of_kind other
  case h_6 | h_8 =>
    cases h
    exact sound_of_kind (by rintro ⟨⟩)
  all_goals cases h

theorem sound_of_scan (position : Nat) (cs : List Char) {tokens : List Token} (h : scan position cs = .ok tokens) :
    ∀ t ∈ tokens, t.Sound := by
  induction position, cs using scan.induct generalizing tokens with
  | case1 position =>
    rw [scan] at h
    cases h
    exact List.forall_mem_singleton.mpr (sound_of_kind (by rintro ⟨⟩))
  | case2 position c rest kind length first ih =>
    rw [scan, first] at h
    simp only at h
    obtain ⟨found, token, h⟩ := Outcome.bind_eq_ok.mp h
    obtain ⟨others, scanned, h⟩ := Outcome.bind_eq_ok.mp h
    cases h
    refine List.forall_mem_append.mpr ⟨?_, ih scanned⟩
    intro t mem
    rw [Option.mem_toList.mp mem] at token
    exact sound_of_token? token

end Token

namespace Grammar

/-- Separated lists of tokens are parts of the whole. -/
theorem Separated.subset {lists : List (List Token)} {inner used : List Token} (h : Separated lists inner)
    (mem : used ∈ lists) : used ⊆ inner := by
  induction h with
  | none => cases mem
  | one =>
    rw [List.mem_singleton.mp mem]
    exact List.Subset.refl _
  | more _ _ _ ih =>
    rcases List.mem_cons.mp mem with rfl | later
    · exact List.subset_append_left _ _
    · exact List.subset_append_of_subset_right _ (List.subset_cons_of_subset _ (ih later))

theorem addressed_of_derives {n : Phrase} {tokens : List Token} {x : Expr} (h : Derives n tokens x)
    (sound : ∀ t ∈ tokens, t.Sound) : x.Addressed := by
  induction h with
  | operand _ ih | base _ ih | plain _ ih => exact ih sound
  | joined _ _ _ _ ih ih' =>
    obtain ⟨first, second⟩ := List.forall_mem_append.mp sound
    exact (ih first).join (ih' (List.forall_mem_cons.mp second).2) _
  | marked _ _ _ ih => exact (ih (List.forall_mem_append.mp sound).1).unary
  | raised _ _ _ ih ih' =>
    obtain ⟨first, second⟩ := List.forall_mem_append.mp sound
    exact (ih first).join (ih' (List.forall_mem_cons.mp second).2) (.binary (.arithmetic .power))
  | signed _ _ _ ih => exact (ih (List.forall_mem_cons.mp sound).2).unary
  | number | string | keyword => exact Expr.addressed_literal _
  | reference kind value => exact Expr.addressed_reference (sound _ List.mem_cons_self kind _ value)
  | question _ _ valid => exact Expr.addressed_reference valid
  | group _ _ _ ih => exact ih (List.forall_mem_append.mp (List.forall_mem_cons.mp sound).2).1
  | call _ _ separated _ _ ih =>
    have inner := (List.forall_mem_append.mp (List.forall_mem_cons.mp (List.forall_mem_cons.mp sound).2).2).1
    refine .call fun x mem => ?_
    obtain ⟨a, mem', rfl⟩ := List.mem_map.mp mem
    refine ih a mem' fun t ht => inner t ?_
    exact separated.subset (List.mem_map_of_mem mem') ht

end Grammar

theorem Parser.splitEnd_subset (tokens : List Token) : (splitEnd tokens).1 ⊆ tokens := by
  unfold splitEnd
  simp only
  split
  · exact List.takeWhile_subset _
  · exact List.takeWhile_subset _

/-- Every reference of an expression that a text writes is a path. -/
theorem Expr.addressed_of_ofText {source : String} {x : Expr} (h : Expr.ofText source = .ok x) : x.Addressed := by
  unfold ofText at h
  split at h
  · cases h
  · rename_i tokens lexed
    have sub := Parser.splitEnd_subset tokens
    rcases ends : Parser.splitEnd tokens with ⟨body, finish⟩
    rw [ends] at sub
    split at h
    · cases h
    · rename_i read
      cases h
      rw [ofTokens, ends] at read
      simp only at read
      split at read
      · cases read
      · split at read
        · cases read
        · rename_i p taken
          split at read
          · cases read
            obtain ⟨used, split, derived⟩ := Parser.takes_of_chain taken
            refine Grammar.addressed_of_derives derived fun t mem => ?_
            refine Token.sound_of_scan 0 _ lexed t (sub ?_)
            exact split ▸ List.mem_append_left _ mem
          · cases read

end Questionnaire
