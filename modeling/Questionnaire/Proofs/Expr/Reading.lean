import Questionnaire.Expr.Evaluation

/-!
# What an evaluation reads

The outcome of an expression is a function of the answers to the questions that it refers to, of today's date and
of the function library.  Two contexts that agree on these give one outcome, whether it is a value, a failure that
is reported, or a fault.

The induction is over the tree.  Each step weakens the agreement from the names below a node to the names below one
of its children; only a reference uses it.
-/
namespace Questionnaire

/-- One date, one library, and the same answers to the questions of some names. -/
structure Context.Agree (names : List String) (c d : Context) : Prop where
  today : c.today = d.today
  functions : c.functions = d.functions
  answers : ∀ name ∈ names, Fields.get c.answers name = Fields.get d.answers name

namespace Context

theorem Agree.mono {few many : List String} {c d : Context} (h : Agree many c d) (sub : few ⊆ many) :
    Agree few c d :=
  ⟨h.today, h.functions, fun name hname => h.answers name (sub hname)⟩

theorem reference_congr {path : String} {c d : Context} (h : Agree (Expr.rootOf path) c d) :
    c.reference path = d.reference path := by
  rw [reference, reference]
  cases hp : Path.ofText path with
  | error _ => rfl
  | ok p =>
    have root : p.root ∈ Expr.rootOf path := by simp [Expr.rootOf, hp]
    simp only [Path.resolve, h.answers p.root root]

theorem binary_congr {names : List String} {c d : Context} (h : Agree names c d) (op : BinaryOp)
    (left right : Value) : c.binary op left right = d.binary op left right := by
  simp only [binary, h.today, h.functions]

theorem call_congr {names : List String} {c d : Context} (h : Agree names c d) (name : String)
    (outcomes : List (Except Stop Value)) : c.call name outcomes = d.call name outcomes := by
  simp only [call, h.today, h.functions]

end Context

namespace Expr

/-- The questions that the nodes of an expression read, in order and with repetitions. -/
def reads (e : Expr) : List String := e.nodes.flatMap ownReferences

def readsOf (es : List Expr) : List String := (nodesOf es).flatMap ownReferences

theorem readsOf_cons (e : Expr) (rest : List Expr) : readsOf (e :: rest) = e.reads ++ readsOf rest := by
  simp [reads, readsOf, nodesOf]

theorem readsOf_append (xs ys : List Expr) : readsOf (xs ++ ys) = readsOf xs ++ readsOf ys := by
  rw [readsOf, nodesOf_append, List.flatMap_append, ← readsOf, ← readsOf]

theorem mem_readsOf {name : String} {es : List Expr} : name ∈ readsOf es ↔ ∃ e ∈ es, name ∈ e.reads := by
  induction es with
  | nil => simp [readsOf, nodesOf]
  | cons e rest ih => simp [readsOf_cons, ih]

theorem reads_eq (e : Expr) : e.reads = ownReferences e ++ readsOf e.children := by
  rw [reads, nodes_eq, List.flatMap_cons, ← readsOf]

/-- What was found and what is still on the stack, with all that is below it, add up to the same at every turn. -/
theorem mem_collect {name : String} {stack : List Expr} {found : List String} :
    name ∈ collect stack found ↔ name ∈ found ∨ name ∈ readsOf stack := by
  fun_induction collect stack found with
  | case1 found => simp [readsOf, nodesOf]
  | case2 e stack found ih =>
    have below : name ∈ readsOf e.children.reverse ↔ name ∈ readsOf e.children := by
      simp only [mem_readsOf, List.mem_reverse]
    rw [ih, Names.mem_union, readsOf_append, List.mem_append, below, readsOf_cons, reads_eq]
    simp only [List.mem_append, or_assoc, or_left_comm]

theorem mem_references {name : String} {e : Expr} : name ∈ e.references ↔ name ∈ e.reads := by
  rw [references, mem_collect, mem_readsOf]
  simp

theorem reads_unary (op : UnaryOp) (operand : Expr) : (unary op operand).reads = operand.reads := by
  simp [reads, nodes, ownReferences]

theorem reads_binary (op : BinaryOp) (left right : Expr) :
    (binary op left right).reads = left.reads ++ right.reads := by
  simp [reads, nodes, ownReferences]

theorem reads_logical (op : LogicalOp) (left right : Expr) :
    (logical op left right).reads = left.reads ++ right.reads := by
  simp [reads, nodes, ownReferences]

theorem reads_call (name : String) (arguments : List Expr) :
    (call name arguments).reads = readsOf arguments := by
  simp [reads, readsOf, nodes, ownReferences]

mutual

theorem evaluate_congr_reads {c d : Context} :
    ∀ (e : Expr), Context.Agree e.reads c d → evaluate c e = evaluate d e
  | literal _, _ => by simp only [evaluate]
  | reference path, h => by
    simp only [evaluate]
    exact Context.reference_congr (h.mono (by simp [reads, nodes, ownReferences]))
  | unary op operand, h => by
    rw [reads_unary] at h
    simp only [evaluate, evaluate_congr_reads operand h]
  | binary op left right, h => by
    rw [reads_binary] at h
    have hl := evaluate_congr_reads left (h.mono (List.subset_append_left _ _))
    have hr := evaluate_congr_reads right (h.mono (List.subset_append_right _ _))
    simp only [evaluate, hl, hr, Context.binary_congr h]
  | logical op left right, h => by
    rw [reads_logical] at h
    have hl := evaluate_congr_reads left (h.mono (List.subset_append_left _ _))
    have hr := evaluate_congr_reads right (h.mono (List.subset_append_right _ _))
    simp only [evaluate, hl, hr]
  | call name arguments, h => by
    rw [reads_call] at h
    simp only [evaluate, outcomes_congr arguments h, Context.call_congr h]

theorem outcomes_congr {c d : Context} :
    ∀ (es : List Expr), Context.Agree (readsOf es) c d → outcomes c es = outcomes d es
  | [], _ => by simp only [outcomes]
  | e :: rest, h => by
    rw [readsOf_cons] at h
    have hfirst := evaluate_congr_reads e (h.mono (List.subset_append_left _ _))
    have hrest := outcomes_congr rest (h.mono (List.subset_append_right _ _))
    simp only [outcomes, hfirst, hrest]

end

/-- Contexts that agree on what an expression refers to give it one outcome. -/
theorem evaluate_congr {c d : Context} {e : Expr} (h : c.Agree e.references d) :
    e.evaluate c = e.evaluate d :=
  evaluate_congr_reads e (h.mono fun _ hname => mem_references.mpr hname)

theorem holds_congr {c d : Context} {e : Expr} (h : c.Agree e.references d) : e.holds c = e.holds d := by
  rw [holds, holds, evaluate_congr h]

/-- What an expression refers to bounds what its evaluation sees, whether for its value or as a condition. -/
theorem sees_only_references {c d : Context} {e : Expr} (h : c.Agree e.references d) :
    e.evaluate c = e.evaluate d ∧ e.holds c = e.holds d :=
  ⟨evaluate_congr h, holds_congr h⟩

/-- A choice between a place inside an answer and a failing operation. -/
def guarded : Expr :=
  .call "iif" [.reference "a", .reference "b.rows[0]", .unary .negate (.reference "c")]

/-- Answers to the questions of the choice, in front of others. -/
def guardedContext (others : Fields) : Context where
  answers := (.text "a", .boolean true) :: (.text "b", .structured [(.text "rows", .sequence [.text "x"])]) :: others
  today := ⟨2024, 2, 29⟩
  functions := .standard

/-- An answer of nothing is no answer, and the answers to other questions do not matter. -/
theorem guarded_sees :
    (guardedContext [(.text "z", .int 1)]).Agree guarded.references (guardedContext [(.text "c", .undefined)]) ∧
      guarded.evaluate (guardedContext [(.text "z", .int 1)]) =
        guarded.evaluate (guardedContext [(.text "c", .undefined)]) ∧
      guarded.holds (guardedContext [(.text "z", .int 1)]) =
        guarded.holds (guardedContext [(.text "c", .undefined)]) := by
  have names : guarded.references = ["a", "b", "c"] := by decide +kernel
  have agree : (guardedContext [(.text "z", .int 1)]).Agree guarded.references
      (guardedContext [(.text "c", .undefined)]) := by
    refine ⟨rfl, rfl, ?_⟩
    rw [names]
    exact List.forall_mem_cons.mpr ⟨rfl, List.forall_mem_cons.mpr ⟨rfl, List.forall_mem_singleton.mpr rfl⟩⟩
  exact ⟨agree, sees_only_references agree⟩

end Expr

end Questionnaire
