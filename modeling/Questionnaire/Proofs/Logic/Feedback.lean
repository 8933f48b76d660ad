import Mathlib.Data.Finset.Card
import Mathlib.Logic.Relation
import Questionnaire.Logic.Dependency

/-!
# The search for feedback misses nothing

A search that ends without a path has seen every question that the start leads to, and none of them is a target.
So the bindings that stay in use write no question from which a path leads back to a question they read: the edges
between questions have no cycle left.

Two facts carry the search.  Every seen question that is not waiting on the stack has been *explored*: what is
written from it is seen and is no target.  And the paths on the stack together with the questions not yet seen bound
the steps that are still to be made, because a question is put on the stack at most once.
-/
namespace Questionnaire

/-- The first binding writes a question that the second one reads. -/
def Binding.Feeds (writer reader : Binding) : Prop :=
  writer.writesValue = true ∧ writer.owner ∈ reader.references

namespace Feedback

/-- Some writing binding reads the first question and writes the second. -/
def Edge (bindings : List Binding) (source written : String) : Prop :=
  ∃ b ∈ bindings, b.writesValue = true ∧ source ∈ b.references ∧ b.owner = written

theorem Edge.mono {few many : List Binding} (sub : few ⊆ many) {x y : String} (h : Edge few x y) :
    Edge many x y := by
  obtain ⟨b, hb, rest⟩ := h
  exact ⟨b, sub hb, rest⟩

theorem mem_successors {bindings : List Binding} {x y : String} :
    y ∈ successors bindings x ↔ Edge bindings x y := by
  simp only [successors, Names.mem_ofList, List.mem_map, List.mem_filter, Bool.and_eq_true, Binding.reads,
    List.contains_iff_mem, Edge, and_assoc]

/-- The question that a path ends at. -/
def tip (path : List String) : String := path.getLast?.getD ""

@[simp] theorem tip_append (path : List String) (name : String) : tip (path ++ [name]) = name := by
  simp [tip]

/-! ## One visit -/

section Visit

variable {targets path : List String}

/-- What is gone through without an end to the search holds no target, and is seen from then on. -/
theorem visit_seen {names seen seen' : List String} {stack stack' : List (List String)}
    (h : visit targets path names seen stack = .ok (seen', stack')) :
    (∀ name ∈ names, name ∉ targets) ∧ ∀ name, name ∈ seen' ↔ name ∈ seen ∨ name ∈ names := by
  induction names generalizing seen stack with
  | nil =>
    cases h
    simp
  | cons name rest ih =>
    rw [visit] at h
    split at h
    · cases h
    · rename_i free
      split at h
      · rename_i known
        obtain ⟨none, mem⟩ := ih h
        refine ⟨List.forall_mem_cons.mpr ⟨by simpa using free, none⟩, ?_⟩
        intro other
        have : other = name → other ∈ seen := by rintro rfl; simpa using known
        rw [mem, List.mem_cons]
        tauto
      · obtain ⟨none, mem⟩ := ih h
        refine ⟨List.forall_mem_cons.mpr ⟨by simpa using free, none⟩, ?_⟩
        intro other
        rw [mem, List.mem_cons, List.mem_cons]
        tauto

/-- What waited goes on waiting, and what is newly seen waits too. -/
theorem visit_waiting {names seen seen' : List String} {stack stack' : List (List String)}
    (h : visit targets path names seen stack = .ok (seen', stack')) :
    (∀ name ∈ stack.map tip, name ∈ stack'.map tip) ∧ ∀ name ∈ names, name ∈ seen ∨ name ∈ stack'.map tip := by
  induction names generalizing seen stack with
  | nil =>
    cases h
    simp
  | cons name rest ih =>
    rw [visit] at h
    split at h
    · cases h
    · split at h
      · rename_i known
        obtain ⟨stays, waits⟩ := ih h
        exact ⟨stays, List.forall_mem_cons.mpr ⟨Or.inl (by simpa using known), waits⟩⟩
      · obtain ⟨stays, waits⟩ := ih h
        have pushed : name ∈ stack'.map tip := stays name (by simp)
        refine ⟨fun other hother => stays other (List.mem_cons_of_mem _ hother), ?_⟩
        refine List.forall_mem_cons.mpr ⟨Or.inr pushed, ?_⟩
        intro other hother
        rcases waits other hother with hseen | hwaits
        · rcases List.mem_cons.mp hseen with rfl | hseen
          · exact Or.inr pushed
          · exact Or.inl hseen
        · exact Or.inr hwaits

/-- A path is put on the stack only for a question that was not seen, so the two together do not grow. -/
theorem visit_bound {pool : Finset String} {names seen seen' : List String} {stack stack' : List (List String)}
    (hpool : ∀ name ∈ names, name ∈ pool) (h : visit targets path names seen stack = .ok (seen', stack')) :
    stack'.length + (pool \ seen'.toFinset).card ≤ stack.length + (pool \ seen.toFinset).card := by
  induction names generalizing seen stack with
  | nil =>
    cases h
    exact Nat.le_refl _
  | cons name rest ih =>
    obtain ⟨inPool, restInPool⟩ := List.forall_mem_cons.mp hpool
    rw [visit] at h
    split at h
    · cases h
    · split at h
      · exact ih restInPool h
      · rename_i fresh
        have bound := ih restInPool h
        have unseen : name ∈ pool \ seen.toFinset := by
          simp only [Finset.mem_sdiff, List.mem_toFinset]
          exact ⟨inPool, by simpa using fresh⟩
        have one := Finset.card_erase_add_one unseen
        rw [List.toFinset_cons, Finset.sdiff_insert, List.length_cons] at bound
        omega

end Visit

/-! ## The whole search -/

/-- What is written from a question is seen and is no target. -/
def Explored (bindings : List Binding) (targets seen : List String) (x : String) : Prop :=
  ∀ y, Edge bindings x y → y ∈ seen ∧ y ∉ targets

theorem Explored.mono {bindings : List Binding} {targets seen seen' : List String} {x : String}
    (h : Explored bindings targets seen x) (sub : seen ⊆ seen') : Explored bindings targets seen' x :=
  fun y hy => ⟨sub (h y hy).1, (h y hy).2⟩

/-- A search without a result ends with a set of questions that all are explored. -/
theorem search_none {bindings : List Binding} {targets : List String} {pool : Finset String}
    (hpool : ∀ b ∈ bindings, b.owner ∈ pool) {steps : Nat} {seen : List String} {stack : List (List String)}
    (explored : ∀ x ∈ seen, x ∈ stack.map tip ∨ Explored bindings targets seen x)
    (bound : stack.length + (pool \ seen.toFinset).card ≤ steps)
    (h : search bindings targets steps seen stack = none) :
    ∃ all, seen ⊆ all ∧ ∀ x ∈ all, Explored bindings targets all x := by
  induction steps generalizing seen stack with
  | zero =>
    have empty : stack = [] := List.length_eq_zero_iff.mp (by omega)
    subst empty
    exact ⟨seen, List.Subset.refl _, fun x hx => by simpa using explored x hx⟩
  | succ steps ih =>
    cases stack with
    | nil => exact ⟨seen, List.Subset.refl _, fun x hx => by simpa using explored x hx⟩
    | cons path stack =>
      rw [search] at h
      split at h
      · cases h
      · rename_i seen' stack' hvisit
        obtain ⟨free, mem⟩ := visit_seen hvisit
        obtain ⟨stays, waits⟩ := visit_waiting hvisit
        have inPool : ∀ name ∈ successors bindings (tip path), name ∈ pool := by
          intro name hname
          obtain ⟨b, hb, -, -, rfl⟩ := mem_successors.mp hname
          exact hpool b hb
        have grows : seen ⊆ seen' := by
          intro x hx
          exact (mem x).mpr (Or.inl hx)
        have ofSeen : ∀ x ∈ seen, x ∈ stack'.map tip ∨ Explored bindings targets seen' x := by
          intro x hx
          rcases explored x hx with waiting | done
          · rcases List.mem_cons.mp waiting with rfl | waiting
            -- the question that was just looked at
            · refine Or.inr ?_
              intro y hy
              have found := mem_successors.mpr hy
              exact ⟨(mem y).mpr (Or.inr found), free y found⟩
            · exact Or.inl (stays x waiting)
          · exact Or.inr (done.mono grows)
        have explored' : ∀ x ∈ seen', x ∈ stack'.map tip ∨ Explored bindings targets seen' x := by
          intro x hx
          rcases (mem x).mp hx with old | new
          · exact ofSeen x old
          · exact (waits x new).elim (ofSeen x) Or.inl
        have bound' := visit_bound inPool hvisit
        rw [List.length_cons] at bound
        obtain ⟨all, sub, closed⟩ := ih explored' (by omega) h
        exact ⟨all, List.Subset.trans grows sub, closed⟩

/-- Without a path to a target, no chain of edges leads to one. -/
theorem not_mem_of_path?_eq_none {bindings : List Binding} {start : String} {targets : List String}
    (h : path? bindings start targets = none) {name : String}
    (chain : Relation.ReflTransGen (Edge bindings) start name) : name ∉ targets := by
  unfold path? at h
  split at h
  · cases h
  · rename_i free
    have bound : [[start]].length + ((bindings.map (·.owner)).toFinset \ [start].toFinset).card
        ≤ bindings.length + 1 := by
      have fewer := (Finset.card_le_card (Finset.sdiff_subset (s := (bindings.map (·.owner)).toFinset)
        (t := [start].toFinset))).trans (List.toFinset_card_le _)
      simp only [List.length_map] at fewer
      simp only [List.length_singleton]
      omega
    obtain ⟨all, sub, closed⟩ := search_none
      (fun b hb => List.mem_toFinset.mpr (List.mem_map_of_mem hb))
      (fun x hx => Or.inl (by simpa [tip] using hx)) bound h
    have reached : name ∈ all ∧ name ∉ targets := by
      induction chain with
      | refl => exact ⟨sub List.mem_cons_self, by simpa using free⟩
      | tail _ edge ih => exact closed _ ih.1 _ edge
    exact reached.2

/-- A binding in use writes no question from which a chain of edges leads to a question that it reads. -/
theorem not_mem_of_cycle?_eq_none {bindings : List Binding} {b : Binding} (writes : b.writesValue = true)
    (h : cycle? bindings b = none) {name : String}
    (chain : Relation.ReflTransGen (Edge bindings) b.owner name) : name ∉ b.references := by
  rw [cycle?, if_pos writes, Option.map_eq_none_iff] at h
  exact not_mem_of_path?_eq_none h chain

/-- The bindings that do not feed back into themselves make no cycle of edges. -/
theorem acyclic {bindings kept : List Binding} (sub : kept ⊆ bindings)
    (none : ∀ b ∈ kept, cycle? bindings b = none) (name : String) :
    ¬ Relation.TransGen (Edge kept) name name := by
  intro cycle
  obtain ⟨next, edge, back⟩ := Relation.TransGen.head'_iff.mp cycle
  obtain ⟨b, hb, writes, reads, rfl⟩ := edge
  have chain : Relation.ReflTransGen (Edge bindings) b.owner name :=
    Relation.ReflTransGen.mono (fun _ _ edge => Edge.mono sub edge) _ _ back
  exact not_mem_of_cycle?_eq_none writes (none b hb) chain reads

end Feedback

end Questionnaire
