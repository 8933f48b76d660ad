import Mathlib.Algebra.BigOperators.Fin
import Mathlib.Data.List.Sort
import Mathlib.Data.Set.Card.Arithmetic
import Mathlib.Data.String.Basic
import Mathlib.Order.Bounds.Basic
import Questionnaire.Expr.Metrics
import Questionnaire.Expr.Parser
import Questionnaire.Proofs.Expr.Reading

/-!
# How large an expression is

The size of an expression is taken in one pass: each node adds up what its children come to.  What it should come to
is said by the places of the nodes, which are the ways down to them from the root.  There are as many nodes as places,
the depth is the length of the longest way down to a leaf, and the questions that are read are those that the
references at all places lead into.  The search with a stack goes through the same nodes in another order; it finds the
same questions, and since a set of names is in ascending order it comes to the same list.
-/
namespace Questionnaire

/-! ## Sets of names -/

namespace Names

theorem pairwise_insert (name : String) {names : List String} (ascending : names.Pairwise (· < ·)) :
    (insert name names).Pairwise (· < ·) := by
  induction names with
  | nil => exact List.pairwise_singleton _ _
  | cons first rest ih =>
    obtain ⟨least, later⟩ := List.pairwise_cons.mp ascending
    rw [insert]
    split
    · rename_i less
      refine List.pairwise_cons.mpr ⟨?_, ascending⟩
      intro other mem
      rcases List.mem_cons.mp mem with rfl | mem
      · exact less
      · exact less.trans (least other mem)
    · rename_i notLess
      split
      · exact ascending
      · rename_i differs
        have less : first < name := lt_of_le_of_ne (not_lt.mp notLess) fun same => differs (beq_iff_eq.mpr same.symm)
        refine List.pairwise_cons.mpr ⟨?_, ih later⟩
        intro other mem
        rcases mem_insert.mp mem with rfl | mem
        · exact less
        · exact least other mem

theorem pairwise_union (xs : List String) {ys : List String} (ascending : ys.Pairwise (· < ·)) :
    (union xs ys).Pairwise (· < ·) := by
  induction xs with
  | nil => exact ascending
  | cons name rest ih => exact pairwise_insert name ih

end Names

/-! ## A node and its children -/

namespace Metrics

variable {sizes : List Metrics}

theorem nodes_above (sizes : List Metrics) : (above sizes).nodes = 1 + (sizes.map (·.nodes)).sum := by
  induction sizes with
  | nil => rfl
  | cons child rest ih =>
    show child.nodes + (above rest).nodes = _
    rw [ih, List.map_cons, List.sum_cons]
    omega

theorem lt_depth_above {size : Metrics} (mem : size ∈ sizes) : size.depth < (above sizes).depth := by
  induction sizes with
  | nil => cases mem
  | cons child rest ih =>
    show size.depth < max (1 + child.depth) (above rest).depth
    rcases List.mem_cons.mp mem with rfl | later
    · exact lt_of_lt_of_le (by omega) (le_max_left _ _)
    · exact (ih later).trans_le (le_max_right _ _)

/-- The depth of a node comes from one of its children, unless it has none. -/
theorem depth_above (sizes : List Metrics) :
    sizes = [] ∧ (above sizes).depth = 0 ∨ ∃ size ∈ sizes, (above sizes).depth = size.depth + 1 := by
  induction sizes with
  | nil => exact Or.inl ⟨rfl, rfl⟩
  | cons child rest ih =>
    refine Or.inr ?_
    show ∃ size ∈ child :: rest, max (1 + child.depth) (above rest).depth = size.depth + 1
    rcases le_total (above rest).depth (1 + child.depth) with less | more
    · exact ⟨child, List.mem_cons_self, (max_eq_left less).trans (Nat.add_comm _ _)⟩
    · rcases ih with ⟨-, none⟩ | ⟨size, mem, depth⟩
      · omega
      · exact ⟨size, List.mem_cons_of_mem _ mem, (max_eq_right more).trans depth⟩

theorem mem_references_above {name : String} :
    name ∈ (above sizes).references ↔ ∃ size ∈ sizes, name ∈ size.references := by
  induction sizes with
  | nil => simp [above, leaf]
  | cons child rest ih =>
    rw [List.exists_mem_cons_iff, ← ih]
    exact Names.mem_union

theorem pairwise_references_above (sizes : List Metrics) : (above sizes).references.Pairwise (· < ·) := by
  induction sizes with
  | nil => exact List.Pairwise.nil
  | cons child rest ih => exact Names.pairwise_union child.references ih

end Metrics

namespace Expr

theorem sizeOf_lt_of_mem_children {c e : Expr} (mem : c ∈ e.children) : sizeOf c < sizeOf e := by
  cases e with
  | literal | reference => cases mem
  | unary op operand =>
    obtain rfl : c = operand := List.mem_singleton.mp mem
    rw [unary.sizeOf_spec]
    omega
  | binary op left right =>
    rw [binary.sizeOf_spec]
    rcases List.mem_pair.mp mem with rfl | rfl <;> omega
  | logical op left right =>
    rw [logical.sizeOf_spec]
    rcases List.mem_pair.mp mem with rfl | rfl <;> omega
  | call name arguments =>
    have less : sizeOf c < sizeOf arguments := List.sizeOf_lt_of_mem mem
    rw [call.sizeOf_spec]
    omega

/-- An induction from the leaves to the root, with one step for nodes of all kinds. -/
@[elab_as_elim]
theorem upward {P : Expr → Prop} (step : ∀ e : Expr, (∀ c ∈ e.children, P c) → P e) (e : Expr) : P e :=
  step e fun c _ => upward step c
termination_by sizeOf e
decreasing_by exact sizeOf_lt_of_mem_children ‹_›

theorem metricsOf_eq_map (es : List Expr) : metricsOf es = es.map metrics := by
  induction es with
  | nil => rfl
  | cons e rest ih => rw [metricsOf, ih, List.map_cons]

/-- The size of a node is what its children come to, with what it reads itself. -/
theorem metrics_eq (e : Expr) : e.metrics = { Metrics.above (e.children.map metrics) with
    references := Names.union (ownReferences e) (Metrics.above (e.children.map metrics)).references } := by
  cases e with
  | literal v => rfl
  | reference path =>
    have own : Names.union (rootOf path) [] = rootOf path := by
      rw [rootOf]
      split <;> rfl
    rw [metrics, ownReferences, children, List.map_nil, Metrics.above, Metrics.leaf, Metrics.leaf, own]
  | unary op operand => rfl
  | binary op left right => rfl
  | logical op left right => rfl
  | call name arguments =>
    rw [metrics, metricsOf_eq_map]
    rfl

/-! ## Places -/

/-- An expression stands at a place in another: the index of a child, then the index of a child of that, and so on
down. -/
inductive StandsAt : Expr → List Nat → Expr → Prop
  | root {e : Expr} : StandsAt e [] e
  | child {e c x : Expr} {i : Nat} {place : List Nat} : e.children[i]? = some c → StandsAt c place x →
      StandsAt e (i :: place) x

variable {e x : Expr}

theorem mem_nodesOf {es : List Expr} : x ∈ nodesOf es ↔ ∃ e ∈ es, x ∈ e.nodes := by
  induction es with
  | nil => simp [nodesOf]
  | cons e rest ih => rw [nodesOf, List.mem_append, ih, List.exists_mem_cons_iff]

/-- The nodes of an expression are what stands at its places. -/
theorem mem_nodes_iff : x ∈ e.nodes ↔ ∃ place, e.StandsAt place x := by
  induction e using upward with
  | step e ih =>
    rw [nodes_eq, List.mem_cons, mem_nodesOf]
    constructor
    · rintro (rfl | ⟨c, mem, below⟩)
      · exact ⟨[], .root⟩
      · obtain ⟨place, stands⟩ := (ih c mem).mp below
        obtain ⟨i, found⟩ := List.getElem?_of_mem mem
        exact ⟨i :: place, .child found stands⟩
    · rintro ⟨place, stands⟩
      cases stands with
      | root => exact Or.inl rfl
      | child found stands =>
        have mem := List.mem_of_getElem? found
        exact Or.inr ⟨_, mem, (ih _ mem).mpr ⟨_, stands⟩⟩

/-- The places of an expression are the root and, for each child, the places of that child behind its index. -/
theorem setOf_place_eq (e : Expr) : {place | ∃ x, e.StandsAt place x} =
    insert [] (⋃ i : Fin e.children.length, (i.val :: ·) '' {place | ∃ x, e.children[i].StandsAt place x}) := by
  ext place
  simp only [Set.mem_ofPred_eq, Set.mem_insert_iff, Set.mem_iUnion, Set.mem_image]
  constructor
  · rintro ⟨x, stands⟩
    cases stands with
    | root => exact Or.inl rfl
    | child found stands =>
      obtain ⟨within, rfl⟩ := List.getElem?_eq_some_iff.mp found
      exact Or.inr ⟨⟨_, within⟩, _, ⟨x, stands⟩, rfl⟩
  · rintro (rfl | ⟨i, place, ⟨x, stands⟩, rfl⟩)
    · exact ⟨e, .root⟩
    · exact ⟨x, .child (List.getElem?_eq_getElem i.isLt) stands⟩

/-- There are as many places as nodes are counted. -/
theorem encard_place (e : Expr) : {place | ∃ x, e.StandsAt place x}.encard = e.metrics.nodes := by
  induction e using upward with
  | step e ih =>
    have apart : Pairwise (Function.onFun Disjoint fun i : Fin e.children.length =>
        (i.val :: ·) '' {place | ∃ x, e.children[i].StandsAt place x}) := by
      intro i j differ
      refine Set.disjoint_left.mpr ?_
      rintro _ ⟨place, -, rfl⟩ ⟨place', -, same⟩
      exact differ (Fin.ext (List.cons.inj same).1.symm)
    have each (i : Fin e.children.length) :
        ((i.val :: ·) '' {place | ∃ x, e.children[i].StandsAt place x}).encard = (e.children[i].metrics.nodes : ℕ∞) :=
      (List.cons_injective.encard_image _).trans (ih _ (List.getElem_mem i.isLt))
    have root : [] ∉ ⋃ i : Fin e.children.length, (i.val :: ·) '' {place | ∃ x, e.children[i].StandsAt place x} := by
      simp
    have total : ∑ i : Fin e.children.length, e.children[i].metrics.nodes = (e.children.map (·.metrics.nodes)).sum :=
      Fin.sum_univ_fun_getElem e.children (·.metrics.nodes)
    rw [setOf_place_eq, Set.encard_insert_of_notMem root, Set.encard_iUnion_of_finite apart,
      finsum_eq_sum_of_fintype, Finset.sum_congr rfl fun i _ => each i, ← Nat.cast_sum, total, metrics_eq]
    simp only [Metrics.nodes_above, List.map_map]
    push_cast
    exact add_comm _ _

/-! ## The longest way down -/

theorem StandsAt.length_le {place : List Nat} (stands : e.StandsAt place x) : place.length ≤ e.metrics.depth := by
  induction stands with
  | root => exact Nat.zero_le _
  | @child e c x i place found _ ih =>
    have deeper : c.metrics.depth < e.metrics.depth := by
      rw [metrics_eq e]
      exact Metrics.lt_depth_above (List.mem_map_of_mem (List.mem_of_getElem? found))
    rw [List.length_cons]
    omega

theorem exists_leaf (e : Expr) : ∃ place leaf, e.StandsAt place leaf ∧ leaf.children = [] ∧
    place.length = e.metrics.depth := by
  induction e using upward with
  | step e ih =>
    rw [metrics_eq e]
    rcases Metrics.depth_above (e.children.map metrics) with ⟨none, depth⟩ | ⟨size, mem, depth⟩
    · exact ⟨[], e, .root, List.map_eq_nil_iff.mp none, depth.symm⟩
    · obtain ⟨c, child, rfl⟩ := List.mem_map.mp mem
      obtain ⟨place, leaf, stands, last, length⟩ := ih c child
      obtain ⟨i, found⟩ := List.getElem?_of_mem child
      exact ⟨i :: place, leaf, .child found stands, last, by rw [List.length_cons, length, depth]⟩

/-! ## The questions that are read -/

theorem mem_references_metrics {name : String} (e : Expr) : name ∈ e.metrics.references ↔ name ∈ e.reads := by
  induction e using upward with
  | step e ih =>
    rw [metrics_eq, reads_eq, Names.mem_union, List.mem_append, Metrics.mem_references_above, mem_readsOf]
    refine or_congr_right ?_
    constructor
    · rintro ⟨size, mem, read⟩
      obtain ⟨c, child, rfl⟩ := List.mem_map.mp mem
      exact ⟨c, child, (ih c child).mp read⟩
    · rintro ⟨c, child, read⟩
      exact ⟨c.metrics, List.mem_map_of_mem child, (ih c child).mpr read⟩

theorem pairwise_references_metrics (e : Expr) : e.metrics.references.Pairwise (· < ·) := by
  rw [metrics_eq]
  exact Names.pairwise_union _ (Metrics.pairwise_references_above _)

theorem pairwise_collect {stack : List Expr} {found : List String} (ascending : found.Pairwise (· < ·)) :
    (collect stack found).Pairwise (· < ·) := by
  fun_induction collect stack found with
  | case1 found => exact ascending
  | case2 e stack found ih => exact ih (Names.pairwise_union _ ascending)

theorem mem_reads_iff {name : String} : name ∈ e.reads ↔
    ∃ place path, e.StandsAt place (.reference path) ∧ name ∈ rootOf path := by
  rw [reads, List.mem_flatMap]
  constructor
  · rintro ⟨x, mem, own⟩
    obtain ⟨place, stands⟩ := mem_nodes_iff.mp mem
    cases x with
    | reference path => exact ⟨place, path, stands, own⟩
    | _ => cases own
  · rintro ⟨place, path, stands, own⟩
    exact ⟨.reference path, mem_nodes_iff.mpr ⟨place, stands⟩, own⟩

/-- The pass over an expression finds the questions that the search with a stack finds, which are those that the
references in it lead into; it counts one node for each place, and as its depth the steps of the longest way down to a
leaf. -/
theorem metrics_measure (e : Expr) :
    e.metrics.references = e.references ∧
    (∀ name, name ∈ e.references ↔ ∃ place path, e.StandsAt place (.reference path) ∧ name ∈ rootOf path) ∧
    {place | ∃ x, e.StandsAt place x}.encard = e.metrics.nodes ∧
    IsGreatest {steps | ∃ place leaf, e.StandsAt place leaf ∧ leaf.children = [] ∧ place.length = steps}
      e.metrics.depth := by
  refine ⟨?_, fun name => mem_references.trans mem_reads_iff, encard_place e, exists_leaf e, ?_⟩
  · refine (pairwise_references_metrics e).eq_of_mem_iff (pairwise_collect List.Pairwise.nil) ?_
    intro name
    exact (mem_references_metrics e).trans mem_references.symm
  · rintro _ ⟨place, leaf, stands, -, rfl⟩
    exact stands.length_le

example : (ofText "((\x7ba\x7d + 1) * 2 - 3) / 4 > 1 and \x7ba\x7d < 10").toOption.map metrics =
    some ⟨6, 15, ["a"]⟩ := by
  cbv

end Expr

end Questionnaire
