import Questionnaire.Proofs.Logic.Reach

/-!
# Ranks do not depend on the order in which they are found

The recursion that finds levels goes through the bindings, the writers of a question and the questions that a binding
reads, each in some order, and notes down what it finds on the way.  Another order changes neither the edges nor what
stratifies the questions, and these two fix the ranks.  A search for which a placeholder counts as nothing would end
without ranks if it met one, and it does not.

With ranks the order is settled: bindings go by rank, a writer has a lower rank than its readers, so it stands before
them, and that stays so in every part of the order.
-/
namespace Questionnaire

open Feedback (Edge)

namespace Ranking

/-- The same bindings in another order, each with the questions that it reads in another order. -/
def Rearranged (bindings arranged : List Binding) : Prop :=
  ∃ reads : Binding → List String, (∀ b ∈ bindings, ∀ x, x ∈ reads b ↔ x ∈ b.references) ∧
    arranged.Perm (bindings.map fun b => { b with references := reads b })

section

variable {bindings arranged : List Binding} {reads : Binding → List String}
variable (same : ∀ b ∈ bindings, ∀ x, x ∈ reads b ↔ x ∈ b.references)
variable (perm : arranged.Perm (bindings.map fun b => { b with references := reads b }))

include perm in
theorem mem_arranged {c : Binding} :
    c ∈ arranged ↔ ∃ b ∈ bindings, { b with references := reads b } = c := by
  rw [perm.mem_iff, List.mem_map]

include same perm

theorem edge_arranged {x y : String} : Edge arranged x y ↔ Edge bindings x y := by
  constructor
  · rintro ⟨c, hc, writes, hx, owns⟩
    obtain ⟨b, hb, rfl⟩ := (mem_arranged perm).mp hc
    exact ⟨b, hb, writes, (same b hb x).mp hx, owns⟩
  · rintro ⟨b, hb, writes, hx, owns⟩
    exact ⟨_, (mem_arranged perm).mpr ⟨b, hb, rfl⟩, writes, (same b hb x).mpr hx, owns⟩

omit perm in
/-- The deepest question that a binding reads is the deepest in whatever order it reads them. -/
theorem greatestOf_reads (level : String → Nat) {b : Binding} (hb : b ∈ bindings) :
    greatestOf ((reads b).map level) = greatestOf (b.references.map level) := by
  refine greatestOf_congr ?_
  intro n
  simp only [List.mem_map, same b hb]

theorem stratifies_arranged {level : String → Nat} (stratifies : Stratifies bindings level) :
    Stratifies arranged level := by
  intro name
  rw [stratifies name]
  refine greatestOf_congr ?_
  intro n
  simp only [List.mem_map, mem_writers, mem_arranged perm]
  constructor
  · rintro ⟨b, ⟨hb, writes, owns⟩, rfl⟩
    refine ⟨_, ⟨⟨b, hb, rfl⟩, writes, owns⟩, ?_⟩
    show 1 + greatestOf ((reads b).map level) = _
    rw [greatestOf_reads same level hb]
  · rintro ⟨_, ⟨⟨b, hb, rfl⟩, writes, owns⟩, rfl⟩
    refine ⟨b, ⟨hb, writes, owns⟩, ?_⟩
    show _ = 1 + greatestOf ((reads b).map level)
    rw [greatestOf_reads same level hb]

end

open Dependencies (Numbered)

/-- Whatever a placeholder counts as, and in whatever order they are asked for, the ranks of bindings without cycles
are those of the levels. -/
theorem ranks_arranged {bindings arranged : List Binding} {level : String → Nat} (numbered : Numbered bindings)
    (acyclic : ∀ name, ¬ Relation.TransGen (Edge bindings) name name) (stratifies : Stratifies bindings level)
    (rearranged : Rearranged bindings arranged) (unfinished : Option Nat) :
    ∃ found, ranks arranged unfinished = some found ∧
      ∀ b ∈ bindings, found.find? b.order = some (greatestOf (b.references.map level)) := by
  obtain ⟨reads, same, perm⟩ := rearranged
  have edges : Edge arranged = Edge bindings := by
    funext x y
    exact propext (edge_arranged same perm)
  refine ⟨_, ranks_eq unfinished (edges ▸ acyclic) (stratifies_arranged same perm stratifies), ?_⟩
  intro b hb
  rw [← greatestOf_reads same level hb]
  refine Table.find?_map_of_mem (·.order) (fun c => greatestOf (c.references.map level))
    ((mem_arranged perm).mpr ⟨b, hb, rfl⟩) ?_
  intro c hc order
  obtain ⟨other, mem, rfl⟩ := (mem_arranged perm).mp hc
  rw [numbered.eq mem hb order]

end Ranking

namespace Dependencies

variable {bindings : List Binding}

/-- Every binding is in use or left out, and none is both. -/
theorem partition_perm (bindings : List Binding) :
    ((ofBindings bindings).accepted ++ (ofBindings bindings).rejected.map (·.1)).Perm bindings := by
  have rejected : (ofBindings bindings).rejected.map (·.1) =
      (Binding.inOrder bindings).filter fun b => !(Feedback.cycle? (Binding.inOrder bindings) b).isNone := by
    show ((Binding.inOrder bindings).filterMap fun b => (Feedback.cycle? (Binding.inOrder bindings) b).map fun path =>
      (b, (⟨.cycle b.label path, b.owner⟩ : ConfigError))).map (·.1) = _
    rw [List.map_filterMap, ← List.filterMap_eq_filter]
    refine List.filterMap_congr ?_
    intro b _
    cases known : Feedback.cycle? (Binding.inOrder bindings) b with
    | none => simp [Option.guard, known]
    | some path => simp [Option.guard, known]
  rw [rejected]
  exact (List.filter_append_perm _ _).trans (Binding.inOrder_perm bindings)

/-- Where writers come first and nothing feeds itself, what feeds a binding stands before it. -/
theorem WritersFirst.lt_of_feeds {arranged : List Binding} (h : WritersFirst arranged)
    (apart : ∀ b ∈ arranged, ¬ b.Feeds b) {i j : Nat} (hi : i < arranged.length) (hj : j < arranged.length)
    (feeds : arranged[i].Feeds arranged[j]) : i < j := by
  by_contra not
  rcases Nat.eq_or_lt_of_le (Nat.le_of_not_lt not) with rfl | less
  · exact apart _ (List.getElem_mem hi) feeds
  · exact List.pairwise_iff_getElem.mp h j i hj hi less feeds

/-- The bindings in use and those left out make up the bindings, and the edges of those in use have no cycle.  The
order is one of the bindings in use, and both in it and in a propagation a writer stands before its readers.  The ranks
are those of levels that stratify the questions: they are found in whatever order they are asked for, and without a
question whose level is only being found. -/
theorem topologically_ordered (numbered : Numbered bindings) :
    ((ofBindings bindings).accepted ++ (ofBindings bindings).rejected.map (·.1)).Perm bindings ∧
    (∀ name, ¬ Relation.TransGen (Edge (ofBindings bindings).accepted) name name) ∧
    (ofBindings bindings).ordered.Perm (ofBindings bindings).accepted ∧
    (∀ arranged, (arranged = (ofBindings bindings).ordered ∨
        ∃ changed excluded, arranged = (ofBindings bindings).propagation changed excluded) →
      ∀ i j, (hi : i < arranged.length) → (hj : j < arranged.length) → arranged[i].Feeds arranged[j] → i < j) ∧
    ∃ level, Ranking.Stratifies (ofBindings bindings).accepted level ∧
      ∀ arranged, Ranking.Rearranged (ofBindings bindings).accepted arranged →
        ∀ unfinished, ∃ found, Ranking.ranks arranged unfinished = some found ∧
          ∀ b ∈ (ofBindings bindings).accepted, found.find? b.order = some (greatestOf (b.references.map level)) := by
  refine ⟨partition_perm bindings, accepted_acyclic, ordered_perm, ?_, ?_⟩
  · intro arranged which i j hi hj feeds
    have sub : arranged.Sublist (ofBindings bindings).ordered := by
      rcases which with rfl | ⟨changed, excluded, rfl⟩
      · exact .refl _
      · exact propagation_sublist _ changed excluded
    refine ((writersFirst_ordered numbered).sublist sub).lt_of_feeds ?_ hi hj feeds
    intro b mem
    exact not_feeds_self (mem_ordered.mp (sub.subset mem))
  · refine ⟨(Levels.ofBindings (ofBindings bindings).accepted).of, Levels.stratifies_ofBindings accepted_acyclic, ?_⟩
    intro arranged rearranged unfinished
    exact Ranking.ranks_arranged numbered.accepted accepted_acyclic (Levels.stratifies_ofBindings accepted_acyclic)
      rearranged unfinished

open Feedback.Sample in
/-- The ranks of the sample's bindings in use, asked for from the last one to the first. -/
theorem sample_ordered : (ofBindings copies).ordered.Perm (ofBindings copies).accepted ∧
    ∃ found n, Ranking.ranks (ofBindings copies).accepted.reverse none = some found ∧ found.find? 3 = some n := by
  obtain ⟨-, -, perm, -, level, -, ranked⟩ := topologically_ordered numbered
  have backwards : Ranking.Rearranged (ofBindings copies).accepted (ofBindings copies).accepted.reverse := by
    refine ⟨(·.references), fun b _ x => Iff.rfl, ?_⟩
    rw [List.map_id']
    exact List.reverse_perm _
  obtain ⟨found, eq, entries⟩ := ranked _ backwards none
  refine ⟨perm, found, _, eq, entries (copying 3 "d" "c") ?_⟩
  have accepted : (ofBindings copies).accepted = [copying 0 "d" "a", copying 1 "b" "a", copying 2 "c" "b",
      copying 3 "d" "c", copying 6 "z" "x"] := rfl
  simp [accepted]

end Dependencies

end Questionnaire
