import Questionnaire.Proofs.Logic.Levels

/-!
# Writers come before readers

The bindings in use stand in an order in which no binding writes a question that an earlier one reads.  The order
goes by rank, so the claim is that a binding ranks below every reader of what it writes, and that is what levels are
for: a written question lies above everything that its writers read.
-/
namespace Questionnaire

/-! ## Definition order -/

namespace Binding

theorem insertInOrder_perm (b : Binding) (bindings : List Binding) :
    (insertInOrder b bindings).Perm (b :: bindings) := by
  induction bindings with
  | nil => exact .refl _
  | cons other rest ih =>
    rw [insertInOrder]
    split
    · exact .refl _
    · exact (ih.cons other).trans (.swap b other rest)

theorem inOrder_perm (bindings : List Binding) : (inOrder bindings).Perm bindings := by
  induction bindings with
  | nil => exact .refl _
  | cons b rest ih =>
    rw [inOrder, List.foldr_cons, ← inOrder]
    exact (insertInOrder_perm b _).trans (ih.cons b)

theorem mem_inOrder {b : Binding} {bindings : List Binding} : b ∈ inOrder bindings ↔ b ∈ bindings :=
  (inOrder_perm bindings).mem_iff

end Binding

/-! ## Order by rank -/

namespace Ranking

theorem mem_sort {rank : Binding → Nat} {bindings : List Binding} {b : Binding} :
    b ∈ sort rank bindings ↔ b ∈ bindings := by
  simp only [sort, List.mem_flatMap, List.mem_range, List.mem_filter, beq_iff_eq]
  constructor
  · rintro ⟨r, -, mem, -⟩
    exact mem
  · intro mem
    exact ⟨rank b, Nat.lt_succ_of_le (le_greatestOf (List.mem_map_of_mem mem)), mem, rfl⟩

/-- Sorted bindings do not go down in rank. -/
theorem pairwise_sort (rank : Binding → Nat) (bindings : List Binding) :
    (sort rank bindings).Pairwise fun a b => rank a ≤ rank b := by
  refine List.pairwise_flatMap.mpr ⟨?_, List.pairwise_lt_range.imp ?_⟩
  · intro r _
    refine List.pairwise_of_forall_mem_list ?_
    intro a ha b hb
    simp only [List.mem_filter, beq_iff_eq] at ha hb
    rw [ha.2, hb.2]
  · intro r t less a ha b hb
    simp only [List.mem_filter, beq_iff_eq] at ha hb
    rw [ha.2, hb.2]
    exact Nat.le_of_lt less

/-- Sorting loses and repeats nothing. -/
theorem sort_perm (rank : Binding → Nat) (bindings : List Binding) : (sort rank bindings).Perm bindings := by
  -- bucket by bucket: the bindings below a rank are those below the rank before it and those of that rank
  have below (n : Nat) : ((List.range n).flatMap fun r => bindings.filter fun b => rank b == r).Perm
      (bindings.filter fun b => rank b < n) := by
    induction n with
    | zero => simp
    | succ n ih =>
      have parts := List.filter_append_perm (fun b => decide (rank b < n)) (bindings.filter fun b => rank b < n + 1)
      rw [List.filter_filter, List.filter_filter] at parts
      rw [List.range_succ, List.flatMap_append, List.flatMap_singleton]
      refine (ih.append_right _).trans (.trans (.of_eq ?_) parts)
      congr 1 <;> refine List.filter_congr fun b _ => ?_
      · grind
      · grind
  refine (below _).trans (.of_eq (List.filter_eq_self.mpr ?_))
  intro b mem
  exact decide_eq_true (Nat.lt_succ_of_le (le_greatestOf (List.mem_map_of_mem mem)))

end Ranking

namespace Dependencies

/-- Bindings with numbers of their own, as the bindings of a survey have them. -/
def Numbered (bindings : List Binding) : Prop := (bindings.map (·.order)).Nodup

theorem Numbered.eq {bindings : List Binding} (h : Numbered bindings) {a b : Binding} (ha : a ∈ bindings)
    (hb : b ∈ bindings) (same : a.order = b.order) : a = b :=
  List.inj_on_of_nodup_map h ha hb same

/-- No binding writes what an earlier one reads. -/
def WritersFirst (bindings : List Binding) : Prop := bindings.Pairwise fun a b => ¬ b.Feeds a

theorem WritersFirst.sublist {few many : List Binding} (h : WritersFirst many) (sub : few.Sublist many) :
    WritersFirst few :=
  List.Pairwise.sublist sub h

variable {bindings : List Binding}

theorem accepted_subset : (ofBindings bindings).accepted ⊆ bindings := by
  intro b mem
  exact Binding.mem_inOrder.mp (List.filter_subset_self _ mem)

theorem Numbered.accepted (numbered : Numbered bindings) : Numbered (ofBindings bindings).accepted := by
  have sorted : Numbered (Binding.inOrder bindings) :=
    ((Binding.inOrder_perm bindings).map Binding.order).nodup_iff.mpr numbered
  exact List.Nodup.sublist (List.Sublist.map Binding.order List.filter_sublist) sorted

theorem accepted_acyclic (name : String) :
    ¬ Relation.TransGen (Feedback.Edge (ofBindings bindings).accepted) name name := by
  refine Feedback.acyclic (List.filter_subset_self _) ?_ name
  intro b hb
  simpa using (List.mem_filter.mp hb).2

/-- A writer ranks below its readers. -/
theorem rank_lt_of_feeds {w r : Binding} (hw : w ∈ (ofBindings bindings).accepted) (feeds : w.Feeds r) :
    (Levels.ofBindings (ofBindings bindings).accepted).rank w <
      (Levels.ofBindings (ofBindings bindings).accepted).rank r :=
  (Levels.rank_lt_of_owner accepted_acyclic hw feeds.1).trans_le (Levels.of_le_rank feeds.2)

theorem not_feeds_self {b : Binding} (hb : b ∈ (ofBindings bindings).accepted) : ¬ b.Feeds b :=
  fun feeds => Nat.lt_irrefl _ (rank_lt_of_feeds hb feeds)

theorem mem_ordered {b : Binding} : b ∈ (ofBindings bindings).ordered ↔ b ∈ (ofBindings bindings).accepted :=
  Ranking.mem_sort

theorem ordered_perm : (ofBindings bindings).ordered.Perm (ofBindings bindings).accepted :=
  Ranking.sort_perm _ _

/-- The bindings in use go by the ranks that levels give them. -/
theorem pairwise_ordered (numbered : Numbered bindings) : (ofBindings bindings).ordered.Pairwise fun a b =>
    (Levels.ofBindings (ofBindings bindings).accepted).rank a ≤
      (Levels.ofBindings (ofBindings bindings).accepted).rank b := by
  have found {b : Binding} (mem : b ∈ (ofBindings bindings).accepted) :
      Ranking.rankOf ((Ranking.ranks (ofBindings bindings).accepted (some 0)).getD []) b =
        (Levels.ofBindings (ofBindings bindings).accepted).rank b := by
    rw [Ranking.ranks_eq (some 0) accepted_acyclic (Levels.stratifies_ofBindings accepted_acyclic), Ranking.rankOf,
      Option.getD_some, Table.find?_map_of_mem (·.order) _ mem, Option.getD_some]
    · rfl
    · intro other mem' same
      rw [numbered.accepted.eq mem' mem same]
  refine List.Pairwise.imp_of_mem ?_
    (Ranking.pairwise_sort (Ranking.rankOf ((Ranking.ranks (ofBindings bindings).accepted (some 0)).getD [])) _)
  intro a b ha hb le
  rwa [found (Ranking.mem_sort.mp ha), found (Ranking.mem_sort.mp hb)] at le

theorem writersFirst_ordered (numbered : Numbered bindings) : WritersFirst (ofBindings bindings).ordered := by
  refine (pairwise_ordered numbered).imp_of_mem ?_
  intro a b _ hb le feeds
  exact Nat.not_le_of_lt (rank_lt_of_feeds (mem_ordered.mp hb) feeds) le

end Dependencies

end Questionnaire
