import Questionnaire.Proofs.Expr.Addresses
import Questionnaire.Proofs.Expr.Operations

/-!
# Where evaluation ends by a fault

An evaluation gives a value or a failure that is reported, unless the operation of some node balks at what its operands
come to.  The induction is over the tree: a fault comes from an operand, or the operation of the node itself balks.
That references lead somewhere is the one thing that it needs of the tree.
-/
namespace Questionnaire

open Outcome (bind_eq_error liftFault_map_eq_fault)

theorem liftError_ne_fault {α : Type} {x : Except EvalError α} {f : Fault} : liftError x ≠ .error (.fault f) := by
  intro h
  cases x <;> cases h

theorem eq_ok_of_liftError {α : Type} {x : Except EvalError α} {a : α} (h : liftError x = .ok a) : x = .ok a := by
  cases x with
  | ok b =>
    cases h
    rfl
  | error e => cases h

/-- No two functions are known under one name. -/
theorem Builtin.eq_of_key {a b : Builtin} (h : Library.key a.signature.1 = Library.key b.signature.1) : a = b := by
  have apart : ∀ a ∈ all, ∀ b ∈ all, Library.key a.signature.1 = Library.key b.signature.1 → a = b := by
    decide +kernel
  have known (f : Builtin) : f ∈ all := by
    cases f <;> decide
  exact apart a (known a) b (known b) h

theorem Library.builtin_of_find? {library : Library} {own : Builtin} {f : Function} (itself : f = f.builtin.function)
    (known : library.find? own.signature.1 = some f) : f.builtin = own := by
  have same := List.find?_some known
  rw [itself] at same
  exact Builtin.eq_of_key (beq_iff_eq.mp same)

namespace Context

theorem find?_of_require {library : Library} {name : String} {f : Function} (h : library.require name = .ok f) :
    library.find? name = some f := by
  unfold Library.require at h
  split at h
  · cases h
    assumption
  · cases h

theorem eq_map_of_mapM {outcomes : List (Except Stop Value)} {values : List Value}
    (h : outcomes.mapM id = .ok values) : outcomes = values.map .ok := by
  have pairs := Outcome.forall₂_of_mapM h
  clear h
  induction pairs with
  | nil => rfl
  | cons first _ ih => rw [List.map_cons, ← ih, ← first, id]

/-- A call ends by a fault if an argument does, or if the function balks at the values of its arguments, or if it is
known under a signature that is not its own. -/
theorem call_fault {c : Context} {name : String} {outcomes : List (Except Stop Value)} {fault : Fault}
    (h : c.call name outcomes = .error (.fault fault)) :
    (∃ outcome ∈ outcomes, outcome = .error (.fault fault)) ∨
      ∃ f, c.functions.find? name = some f ∧
        (f ≠ f.builtin.function ∨ ∃ values, outcomes = values.map .ok ∧ f.builtin.Balks values) := by
  rcases bind_eq_error.mp h with failed | ⟨f, known, h⟩
  · cases liftError_ne_fault failed
  · have known := find?_of_require (eq_ok_of_liftError known)
    by_cases own : f = f.builtin.function
    · rcases bind_eq_error.mp h with failed | ⟨_, arity, h⟩
      · cases liftError_ne_fault failed
      · have arity : f.builtin.function.checkArity outcomes.length = .ok () := own ▸ eq_ok_of_liftError arity
        split at h
        · rename_i conditional
          exact Or.inl (Builtin.choose_fault conditional arity (inRange_fault h).1)
        · rename_i strict
          rcases bind_eq_error.mp h with failed | ⟨values, all, h⟩
          · exact Or.inl (Outcome.exists_of_mapM_eq_error failed)
          · have values_eq := eq_map_of_mapM all
            rw [values_eq, List.length_map] at arity
            obtain ⟨failed, other⟩ := inRange_fault h
            rcases Builtin.run_fault (Bool.eq_false_iff.mpr strict) arity failed with overflow | balks
            · exact absurd overflow other
            · exact Or.inr ⟨f, known, Or.inr ⟨values, values_eq, balks⟩⟩
    · exact Or.inr ⟨f, known, Or.inl own⟩

/-- An operator between two values ends by a fault if it balks at them, or if it is a function that is known under a
signature that is not its own. -/
theorem binary_fault {c : Context} {op : BinaryOp} {left right : Value} {fault : Fault}
    (h : c.binary op left right = .error (.fault fault)) :
    op.Balks left right ∨ (op = .contains ∨ op = .notContains) ∧
      ∃ f, c.functions.find? op.symbol = some f ∧ f ≠ f.builtin.function := by
  have searched (own : Builtin) (symbol : op.symbol = own.signature.1)
      (search : own.run c.today [left, right] = .error (.fault fault) → left.Textless ∨ right.Textless)
      (h : (do
        let f ← liftError (c.functions.require op.symbol)
        f.builtin.run c.today [left, right]) = .error (.fault fault)) :
      op.Balks left right ∨ ∃ f, c.functions.find? op.symbol = some f ∧ f ≠ f.builtin.function := by
    rcases bind_eq_error.mp h with failed | ⟨f, known, h⟩
    · cases liftError_ne_fault failed
    · have known := find?_of_require (eq_ok_of_liftError known)
      by_cases itself : f = f.builtin.function
      · rw [Library.builtin_of_find? itself (symbol ▸ known)] at h
        exact Or.inl (.of_textless (search h))
      · exact Or.inr ⟨f, known, itself⟩
  unfold binary at h
  cases op with
  | equal => exact Or.inl (.of_textless (Value.equal_error (liftFault_map_eq_fault.mp h)))
  | notEqual => exact Or.inl (.of_textless (Value.equal_error (liftFault_map_eq_fault.mp h)))
  | relation r => exact Or.inl (.of_textless (Relation.holds_error (liftFault_map_eq_fault.mp h)))
  | arithmetic op => exact Or.inl (Arithmetic.apply_fault h)
  | contains =>
    have searched := searched .contains rfl fun h => Search.contains_error (liftFault_map_eq_fault.mp h)
    exact (searched h).imp id fun altered => ⟨Or.inl rfl, altered⟩
  | notContains =>
    have searched := searched .notContains rfl fun h => Search.contains_error (liftFault_map_eq_fault.mp h)
    exact (searched h).imp id fun altered => ⟨Or.inr rfl, altered⟩

end Context

namespace Expr

/-- The function that a node calls. -/
def callee? : Expr → Option String
  | binary .contains _ _ => some "contains"
  | binary .notContains _ _ => some "notcontains"
  | call name _ => some name
  | _ => none

/-- The operation of a node balks at what its operands come to.  A function that is known under a signature that is
not its own may do so at anything. -/
inductive Balks (c : Context) : Expr → Prop
  | unary {operand : Expr} {v : Value} :
      operand.evaluate c = .ok v → v.Textless → Balks c (.unary .negate operand)
  | binary {op : BinaryOp} {left right : Expr} {v w : Value} :
      left.evaluate c = .ok v → right.evaluate c = .ok w → op.Balks v w → Balks c (.binary op left right)
  | call {name : String} {arguments : List Expr} {f : Function} {values : List Value} :
      c.functions.find? name = some f → outcomes c arguments = values.map .ok → f.builtin.Balks values →
      Balks c (.call name arguments)
  | altered {x : Expr} {name : String} {f : Function} :
      x.callee? = some name → c.functions.find? name = some f → f ≠ f.builtin.function → Balks c x

/-- Some node of an expression balks. -/
def Risky (c : Context) (x : Expr) : Prop := ∃ node ∈ x.nodes, node.Balks c

theorem Risky.mono {c : Context} {x y : Expr} (sub : x.nodes ⊆ y.nodes) (h : x.Risky c) : y.Risky c := by
  obtain ⟨node, mem, balks⟩ := h
  exact ⟨node, sub mem, balks⟩

theorem Balks.risky {c : Context} {x : Expr} (h : x.Balks c) : x.Risky c := ⟨x, mem_nodes_self x, h⟩

theorem mem_outcomes {c : Context} {outcome : Except Stop Value} {xs : List Expr} (mem : outcome ∈ outcomes c xs) :
    ∃ x ∈ xs, outcome = x.evaluate c := by
  induction xs with
  | nil => cases mem
  | cons first rest ih =>
    rw [outcomes] at mem
    rcases List.mem_cons.mp mem with rfl | later
    · exact ⟨first, List.mem_cons_self, rfl⟩
    · obtain ⟨x, mem', same⟩ := ih later
      exact ⟨x, List.mem_cons_of_mem first mem', same⟩

/-- An evaluation ends by a fault only if some node of the expression balks. -/
theorem evaluate_fault {c : Context} {fault : Fault} (x : Expr) (addressed : x.Addressed)
    (h : x.evaluate c = .error (.fault fault)) : x.Risky c := by
  cases x with
  | literal v =>
    rw [evaluate] at h
    cases h
  | reference path =>
    have valid := addressed path (mem_nodes_self _)
    rw [evaluate, Context.reference] at h
    unfold Path.isValid at valid
    split at h
    · cases h
    · rename_i refused
      rw [refused] at valid
      cases valid
  | unary op operand =>
    rw [evaluate] at h
    have sub := nodes_unary_subset op operand
    rcases bind_eq_error.mp h with failed | ⟨v, value, failed⟩
    · exact (evaluate_fault operand (addressed.mono sub) failed).mono sub
    · obtain ⟨rfl, textless⟩ := UnaryOp.apply_fault failed
      exact Balks.risky (.unary value textless)
  | binary op left right =>
    have sub := nodes_binary_subset op left right
    rw [evaluate] at h
    rcases bind_eq_error.mp h with failed | ⟨v, first, h⟩
    · exact (evaluate_fault left (addressed.mono sub.1) failed).mono sub.1
    · rcases bind_eq_error.mp h with failed | ⟨w, second, failed⟩
      · exact (evaluate_fault right (addressed.mono sub.2) failed).mono sub.2
      · rcases Context.binary_fault failed with balks | ⟨rfl | rfl, f, known, altered⟩
        · exact Balks.risky (.binary first second balks)
        · exact Balks.risky (.altered rfl known altered)
        · exact Balks.risky (.altered rfl known altered)
  | logical op left right =>
    have sub := nodes_logical_subset op left right
    rw [evaluate] at h
    rcases bind_eq_error.mp h with failed | ⟨v, -, h⟩
    · exact (evaluate_fault left (addressed.mono sub.1) failed).mono sub.1
    · simp only at h
      split at h
      · cases h
      · cases h
      · rcases bind_eq_error.mp h with failed | ⟨_, -, done⟩
        · exact (evaluate_fault right (addressed.mono sub.2) failed).mono sub.2
        · cases done
  | call name arguments =>
    rw [evaluate] at h
    rcases Context.call_fault h with ⟨outcome, mem, failed⟩ | ⟨f, known, altered | ⟨values, all, balks⟩⟩
    · obtain ⟨x, mem', same⟩ := mem_outcomes mem
      have sub := nodes_call_subset name mem'
      exact (evaluate_fault x (addressed.mono sub) (same.symm.trans failed)).mono sub
    · exact Balks.risky (.altered rfl known altered)
    · exact Balks.risky (.call known all balks)
termination_by sizeOf x

end Expr

end Questionnaire
