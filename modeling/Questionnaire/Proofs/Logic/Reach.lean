import Mathlib.Order.Bounds.Basic
import Questionnaire.Proofs.Logic.Loops

/-!
# What a change can reach

A change reaches the readers of the changed questions, and with a writing binding the readers of its owner, as long as
they are not excluded.  The search looks at one question after the other, and skips a binding that was found before and
a question that was seen before.  It loses nothing by that: of every seen question that does not wait any more, all
readers are found.  It ends because a question waits at most once more than it changed: what is pending, together with
the owners not seen yet, bounds the steps.
-/
namespace Questionnaire.Dependencies

/-! ## Reached bindings -/

/-- What a change of some questions reaches: what reads one of them, and what reads a question that a reached binding
writes.  Excluded bindings are not reached, and nothing is reached through them. -/
inductive Reached (d : Dependencies) (changed : List String) (excluded : List Nat) : Binding → Prop
  | reads {b : Binding} {name : String} : b ∈ d.accepted → b.order ∉ excluded → name ∈ changed →
      name ∈ b.references → Reached d changed excluded b
  | fed {w b : Binding} : Reached d changed excluded w → b ∈ d.accepted → b.order ∉ excluded → w.Feeds b →
      Reached d changed excluded b

namespace Reached

variable {d : Dependencies} {changed : List String} {excluded : List Nat} {b : Binding}

theorem accepted (h : d.Reached changed excluded b) : b ∈ d.accepted := by
  cases h with
  | reads mem => exact mem
  | fed _ mem => exact mem

theorem active (h : d.Reached changed excluded b) : b.order ∉ excluded := by
  cases h with
  | reads _ active => exact active
  | fed _ _ active => exact active

/-- With fewer excluded bindings no less is reached. -/
theorem mono {fewer : List Nat} (sub : fewer ⊆ excluded) (h : d.Reached changed excluded b) :
    d.Reached changed fewer b := by
  induction h with
  | reads mem active hname reads => exact .reads mem (fun out => active (sub out)) hname reads
  | fed _ mem active feeds ih => exact .fed ih mem (fun out => active (sub out)) feeds

/-- Edges lead from a changed question to one that a reached binding reads. -/
theorem exists_path (h : d.Reached changed excluded b) :
    ∃ name ∈ changed, ∃ x ∈ b.references, Relation.ReflTransGen (Feedback.Edge d.accepted) name x := by
  induction h with
  | @reads b name _ _ hname reads => exact ⟨name, hname, name, reads, .refl⟩
  | @fed w b before _ _ feeds ih =>
    obtain ⟨name, hname, x, hx, path⟩ := ih
    exact ⟨name, hname, w.owner, feeds.2, path.tail ⟨w, before.accepted, feeds.1, hx, rfl⟩⟩

/-- A chain from a reached binding, each passing something on to the next, ends at a reached one. -/
theorem of_isChain {rest : List Binding} {w : Binding} (h : d.Reached changed excluded w)
    (chain : (w :: rest).IsChain Binding.Feeds) (active : ∀ c ∈ rest, c ∈ d.accepted ∧ c.order ∉ excluded)
    (last : (w :: rest).getLast? = some b) : d.Reached changed excluded b := by
  induction rest generalizing w with
  | nil =>
    cases last
    exact h
  | cons next rest ih =>
    obtain ⟨⟨mem, here⟩, later⟩ := List.forall_mem_cons.mp active
    obtain ⟨feeds, chain⟩ := List.isChain_cons_cons.mp chain
    rw [List.getLast?_cons_cons] at last
    exact ih (.fed h mem here feeds) chain later last

/-- What is reached is reached along a chain of bindings. -/
theorem exists_isChain (h : d.Reached changed excluded b) :
    ∃ first rest, (∃ name ∈ changed, name ∈ first.references) ∧ (first :: rest).IsChain Binding.Feeds ∧
      (∀ c ∈ first :: rest, c ∈ d.accepted ∧ c.order ∉ excluded) ∧ (first :: rest).getLast? = some b := by
  induction h with
  | @reads b name mem active hname reads =>
    refine ⟨b, [], ⟨name, hname, reads⟩, .singleton b, ?_, rfl⟩
    intro c hc
    rw [List.mem_singleton.mp hc]
    exact ⟨mem, active⟩
  | @fed w b _ mem active feeds ih =>
    obtain ⟨first, rest, starts, chain, all, last⟩ := ih
    refine ⟨first, rest ++ [b], starts, ?_, ?_, ?_⟩
    · rw [← List.cons_append]
      refine List.isChain_append.mpr ⟨chain, .singleton b, ?_⟩
      intro x hx y hy
      rw [last] at hx
      cases hx
      cases hy
      exact feeds
    · intro c hc
      rw [← List.cons_append, List.mem_append, List.mem_singleton] at hc
      rcases hc with hc | rfl
      · exact all c hc
      · exact ⟨mem, active⟩
    · rw [← List.cons_append, List.getLast?_concat]

end Reached

/-- A set that a change of some questions does not lead out of: a binding in use that is not excluded is in it if it
reads a changed question, or a question that a binding of the set writes. -/
structure Closed (d : Dependencies) (changed : List String) (excluded : List Nat) (S : Set Binding) : Prop where
  reads {b : Binding} {name : String} : b ∈ d.accepted → b.order ∉ excluded → name ∈ changed →
    name ∈ b.references → b ∈ S
  fed {w b : Binding} : w ∈ S → b ∈ d.accepted → b.order ∉ excluded → w.Feeds b → b ∈ S

/-- What a change reaches is the least set that it does not lead out of. -/
theorem isLeast_reached (d : Dependencies) (changed : List String) (excluded : List Nat) :
    IsLeast {S | d.Closed changed excluded S} {b | d.Reached changed excluded b} := by
  refine ⟨⟨.reads, .fed⟩, ?_⟩
  intro S closed b h
  induction h with
  | reads mem active hname reads => exact closed.reads mem active hname reads
  | fed _ mem active feeds ih => exact closed.fed ih mem active feeds

/-! ## Looking at the readers of a question -/

section Visit

variable {excluded : List Nat} {readers others : List Binding} {s t u : Spread}

/-- What comes of looking at some readers: each that is not excluded is found, nothing else is new, and what the new
ones write is seen and waits if it was not seen before. -/
structure Visited (excluded : List Nat) (readers : List Binding) (s t : Spread) : Prop where
  found : s.found ⊆ t.found
  seen : s.seen ⊆ t.seen
  pending : s.pending ⊆ t.pending
  complete : ∀ b ∈ readers, b.order ∉ excluded → ∃ f ∈ t.found, f.order = b.order
  added : ∀ f ∈ t.found, f ∈ s.found ∨
    f ∈ readers ∧ f.order ∉ excluded ∧ (f.writesValue = true → f.owner ∈ t.seen)
  fresh : ∀ x ∈ t.seen, x ∈ s.seen ∨ x ∈ t.pending ∧ ∃ w ∈ t.found, w.writesValue = true ∧ w.owner = x
  waits : ∀ x ∈ t.pending, x ∈ s.pending ∨ x ∈ t.seen

theorem Visited.refl (excluded : List Nat) (s : Spread) : Visited excluded [] s s where
  found := List.Subset.refl _
  seen := List.Subset.refl _
  pending := List.Subset.refl _
  complete _ h := absurd h List.not_mem_nil
  added _ h := Or.inl h
  fresh _ h := Or.inl h
  waits _ h := Or.inl h

theorem Visited.trans (first : Visited excluded readers s t) (second : Visited excluded others t u) :
    Visited excluded (readers ++ others) s u where
  found := List.Subset.trans first.found second.found
  seen := List.Subset.trans first.seen second.seen
  pending := List.Subset.trans first.pending second.pending
  complete b mem active := by
    rcases List.mem_append.mp mem with mem | mem
    · obtain ⟨f, found, same⟩ := first.complete b mem active
      exact ⟨f, second.found found, same⟩
    · exact second.complete b mem active
  added f found := by
    rcases second.added f found with found | ⟨mem, active, owner⟩
    · refine (first.added f found).imp id ?_
      rintro ⟨mem, active, owner⟩
      exact ⟨List.mem_append_left _ mem, active, fun writes => second.seen (owner writes)⟩
    · exact Or.inr ⟨List.mem_append_right _ mem, active, owner⟩
  fresh x hx := by
    rcases second.fresh x hx with hx | new
    · refine (first.fresh x hx).imp id ?_
      rintro ⟨waits, w, found, writes⟩
      exact ⟨second.pending waits, w, second.found found, writes⟩
    · exact Or.inr new
  waits x hx := by
    rcases second.waits x hx with hx | seen
    · exact (first.waits x hx).imp id fun seen => second.seen seen
    · exact Or.inr seen

theorem visited_visit (excluded : List Nat) (s : Spread) (b : Binding) :
    Visited excluded [b] s (s.visit excluded b) := by
  unfold Spread.visit
  split
  · rename_i skipped
    refine { Visited.refl excluded s with complete := ?_, added := fun _ h => Or.inl h }
    intro other mem active
    rw [List.mem_singleton.mp mem] at active ⊢
    simpa [active] using skipped
  · rename_i taken
    obtain ⟨active, -⟩ : b.order ∉ excluded ∧ _ := by simpa using taken
    have complete {t : Spread} (found : t.found = b :: s.found) :
        ∀ other ∈ [b], other.order ∉ excluded → ∃ f ∈ t.found, f.order = other.order := by
      intro other mem _
      rw [List.mem_singleton.mp mem, found]
      exact ⟨b, List.mem_cons_self, rfl⟩
    split
    · rename_i new
      obtain ⟨writes, -⟩ := Bool.and_eq_true_iff.mp new
      refine ⟨List.subset_cons_self _ _, List.subset_cons_self _ _, List.subset_cons_self _ _, complete rfl, ?_, ?_, ?_⟩
      · intro f found
        rcases List.mem_cons.mp found with rfl | found
        · exact Or.inr ⟨List.mem_singleton.mpr rfl, active, fun _ => List.mem_cons_self⟩
        · exact Or.inl found
      · intro x hx
        rcases List.mem_cons.mp hx with rfl | hx
        · exact Or.inr ⟨List.mem_cons_self, b, List.mem_cons_self, writes, rfl⟩
        · exact Or.inl hx
      · intro x hx
        rcases List.mem_cons.mp hx with rfl | hx
        · exact Or.inr List.mem_cons_self
        · exact Or.inl hx
    · rename_i old
      refine ⟨List.subset_cons_self _ _, List.Subset.refl _, List.Subset.refl _, complete rfl, ?_,
        fun _ h => Or.inl h, fun _ h => Or.inl h⟩
      intro f found
      rcases List.mem_cons.mp found with rfl | found
      · exact Or.inr ⟨List.mem_singleton.mpr rfl, active, fun writes => by simpa [writes] using old⟩
      · exact Or.inl found

theorem visited_foldl (excluded : List Nat) (readers : List Binding) (s : Spread) :
    Visited excluded readers s (readers.foldl (Spread.visit excluded) s) := by
  induction readers generalizing s with
  | nil => exact .refl excluded s
  | cons b rest ih => exact (visited_visit excluded s b).trans (ih _)

/-- What waits and the owners that are not seen yet. -/
def Spread.ahead (pool : Finset String) (s : Spread) : Nat := s.pending.length + (pool \ s.seen.toFinset).card

/-- A question waits only when it is seen for the first time, so there is no more ahead. -/
theorem ahead_visit_le {pool : Finset String} {b : Binding} (hb : b.owner ∈ pool) (s : Spread) :
    (s.visit excluded b).ahead pool ≤ s.ahead pool := by
  unfold Spread.visit
  split
  · exact Nat.le_refl _
  · split
    · rename_i new
      obtain ⟨-, unseen⟩ := Bool.and_eq_true_iff.mp new
      have mem : b.owner ∈ pool \ s.seen.toFinset := by
        simp only [Finset.mem_sdiff, List.mem_toFinset]
        exact ⟨hb, by simpa using unseen⟩
      have one := Finset.card_erase_add_one mem
      rw [Spread.ahead, Spread.ahead, List.toFinset_cons, Finset.sdiff_insert, List.length_cons]
      omega
    · exact Nat.le_refl _

theorem ahead_foldl_le {pool : Finset String} {readers : List Binding} (owners : ∀ b ∈ readers, b.owner ∈ pool)
    (s : Spread) : (readers.foldl (Spread.visit excluded) s).ahead pool ≤ s.ahead pool := by
  induction readers generalizing s with
  | nil => exact Nat.le_refl _
  | cons b rest ih =>
    obtain ⟨first, later⟩ := List.forall_mem_cons.mp owners
    exact (ih later _).trans (ahead_visit_le first s)

end Visit

/-! ## The whole search -/

section Search

variable {d : Dependencies} {changed : List String} {excluded : List Nat} {s t : Spread}

/-- How the search stands between two questions: what is found is reached, a question is seen for a reason, and of a
seen question that does not wait all readers are found. -/
structure Spread.Stands (d : Dependencies) (changed : List String) (excluded : List Nat) (s : Spread) : Prop where
  reached : ∀ b ∈ s.found, d.Reached changed excluded b
  caused : ∀ x ∈ s.seen, x ∈ changed ∨ ∃ w ∈ s.found, w.writesValue = true ∧ w.owner = x
  waits : s.pending ⊆ s.seen
  changed : changed ⊆ s.seen
  written : ∀ w ∈ s.found, w.writesValue = true → w.owner ∈ s.seen
  looked : ∀ x ∈ s.seen, x ∈ s.pending ∨
    ∀ b ∈ d.accepted, x ∈ b.references → b.order ∉ excluded → ∃ f ∈ s.found, f.order = b.order

theorem mem_readers {name : String} {b : Binding} : b ∈ d.readers name ↔ b ∈ d.accepted ∧ name ∈ b.references := by
  simp [readers, Binding.reads]

theorem Spread.Stands.step (stands : s.Stands d changed excluded) {name : String} {rest : List String}
    (next : s.pending = name :: rest) (visited : Visited excluded (d.readers name) { s with pending := rest } t) :
    t.Stands d changed excluded where
  reached b found := by
    rcases visited.added b found with found | ⟨mem, active, -⟩
    · exact stands.reached b found
    · obtain ⟨known, reads⟩ := mem_readers.mp mem
      rcases stands.caused name (stands.waits (next ▸ List.mem_cons_self)) with given | ⟨w, hw, writes, owner⟩
      · exact .reads known active given reads
      · exact .fed (stands.reached w hw) known active ⟨writes, owner ▸ reads⟩
  caused x hx := by
    rcases visited.fresh x hx with hx | ⟨-, new⟩
    · refine (stands.caused x hx).imp id ?_
      rintro ⟨w, found, writes⟩
      exact ⟨w, visited.found found, writes⟩
    · exact Or.inr new
  waits x hx := by
    rcases visited.waits x hx with hx | seen
    · exact visited.seen (stands.waits (next ▸ List.mem_cons_of_mem _ hx))
    · exact seen
  changed := List.Subset.trans stands.changed visited.seen
  written w found writes := by
    rcases visited.added w found with found | ⟨-, -, owner⟩
    · exact visited.seen (stands.written w found writes)
    · exact owner writes
  looked x hx := by
    rcases visited.fresh x hx with hx | ⟨waits, -⟩
    · rcases stands.looked x hx with waits | all
      · rcases List.mem_cons.mp (next ▸ waits) with rfl | waits
        -- the question whose readers were just looked at
        · exact Or.inr fun b mem reads active => visited.complete b (mem_readers.mpr ⟨mem, reads⟩) active
        · exact Or.inl (visited.pending waits)
      · refine Or.inr fun b mem reads active => ?_
        obtain ⟨f, found, same⟩ := all b mem reads active
        exact ⟨f, visited.found found, same⟩
    · exact Or.inl waits

theorem stands_start (d : Dependencies) (changed : List String) (excluded : List Nat) :
    Spread.Stands d changed excluded ⟨changed.reverse, changed, []⟩ where
  reached _ h := absurd h List.not_mem_nil
  caused _ h := Or.inl h
  waits _ h := List.mem_reverse.mp h
  changed := List.Subset.refl _
  written _ h := absurd h List.not_mem_nil
  looked _ h := Or.inl (List.mem_reverse.mpr h)

/-- With enough steps nothing waits in the end. -/
theorem stands_spread {pool : Finset String} (owners : ∀ b ∈ d.accepted, b.owner ∈ pool) {steps : Nat}
    (stands : s.Stands d changed excluded) (bound : s.ahead pool ≤ steps) :
    (d.spread excluded steps s).Stands d changed excluded ∧ (d.spread excluded steps s).pending = [] := by
  induction steps generalizing s with
  | zero =>
    have empty : s.pending.length = 0 := Nat.le_zero.mp ((Nat.le_add_right _ _).trans bound)
    exact ⟨stands, List.length_eq_zero_iff.mp empty⟩
  | succ steps ih =>
    rw [spread]
    split
    · rename_i empty
      exact ⟨stands, empty⟩
    · rename_i name rest next
      refine ih (stands.step next (visited_foldl excluded _ _)) ?_
      have readers : ∀ b ∈ d.readers name, b.owner ∈ pool := fun b mem => owners b (mem_readers.mp mem).1
      have less : Spread.ahead pool ((d.readers name).foldl (Spread.visit excluded) { s with pending := rest }) ≤
          Spread.ahead pool { s with pending := rest } := ahead_foldl_le readers _
      have popped : s.ahead pool = Spread.ahead pool { s with pending := rest } + 1 := by
        rw [Spread.ahead, next, List.length_cons]
        exact Nat.add_right_comm _ _ _
      omega

theorem stands_spreadOf (d : Dependencies) (changed : List String) (excluded : List Nat) :
    (d.spreadOf changed excluded).Stands d changed excluded ∧ (d.spreadOf changed excluded).pending = [] := by
  let pool := (d.accepted.map (·.owner)).toFinset
  have owners : ∀ b ∈ d.accepted, b.owner ∈ pool := fun b mem => List.mem_toFinset.mpr (List.mem_map_of_mem mem)
  refine stands_spread owners (stands_start d changed excluded) ?_
  have fewer := (Finset.card_le_card (Finset.sdiff_subset (s := pool) (t := changed.toFinset))).trans
    (List.toFinset_card_le _)
  rw [List.length_map] at fewer
  show changed.reverse.length + (pool \ changed.toFinset).card ≤ _
  rw [List.length_reverse]
  exact Nat.add_le_add_left fewer _

end Search

section Propagation

variable {bindings : List Binding}

theorem propagation_sublist (d : Dependencies) (changed : List String) (excluded : List Nat) :
    (d.propagation changed excluded).Sublist d.ordered :=
  List.filter_sublist

theorem mem_propagation_iff_found {changed : List String} {excluded : List Nat} {b : Binding} :
    b ∈ (ofBindings bindings).propagation changed excluded ↔ b ∈ (ofBindings bindings).accepted ∧
      ∃ f ∈ ((ofBindings bindings).spreadOf changed excluded).found, f.order = b.order := by
  simp only [propagation, List.mem_filter, List.contains_iff_mem, mem_ordered, List.mem_map]

/-- A propagation is what a change reaches. -/
theorem mem_propagation (numbered : Numbered bindings) {changed : List String} {excluded : List Nat}
    {b : Binding} :
    b ∈ (ofBindings bindings).propagation changed excluded ↔ (ofBindings bindings).Reached changed excluded b := by
  obtain ⟨stands, done⟩ := stands_spreadOf (ofBindings bindings) changed excluded
  have looked {x : String} (seen : x ∈ _) := (stands.looked x seen).resolve_left (by simp [done])
  rw [mem_propagation_iff_found]
  constructor
  · rintro ⟨mem, f, hf, same⟩
    have reached := stands.reached f hf
    rwa [numbered.accepted.eq reached.accepted mem same] at reached
  · intro reached
    refine ⟨reached.accepted, ?_⟩
    induction reached with
    | reads mem active hname reads => exact looked (stands.changed hname) _ mem reads active
    | @fed w b before mem active feeds ih =>
      obtain ⟨f, hf, same⟩ := ih
      rw [numbered.accepted.eq (stands.reached f hf).accepted before.accepted same] at hf
      exact looked (stands.written w hf feeds.1) b mem feeds.2 active

/-- What is not excluded and reads a changed question is in the propagation. -/
theorem mem_propagation_of_reads (numbered : Numbered bindings) {changed : List String} {excluded : List Nat}
    {b : Binding} (mem : b ∈ (ofBindings bindings).accepted) (active : b.order ∉ excluded)
    {name : String} (hname : name ∈ changed) (reads : name ∈ b.references) :
    b ∈ (ofBindings bindings).propagation changed excluded :=
  (mem_propagation numbered).mpr (.reads mem active hname reads)

/-- What is not excluded and reads a question that the propagation writes is in it too. -/
theorem mem_propagation_of_feeds (numbered : Numbered bindings) {changed : List String} {excluded : List Nat}
    {w b : Binding} (mem : b ∈ (ofBindings bindings).accepted) (active : b.order ∉ excluded)
    (found : w ∈ (ofBindings bindings).propagation changed excluded) (feeds : w.Feeds b) :
    b ∈ (ofBindings bindings).propagation changed excluded :=
  (mem_propagation numbered).mpr (.fed ((mem_propagation numbered).mp found) mem active feeds)

theorem writersFirst_propagation (numbered : Numbered bindings) (changed : List String) (excluded : List Nat) :
    WritersFirst ((ofBindings bindings).propagation changed excluded) :=
  (writersFirst_ordered numbered).sublist (propagation_sublist _ changed excluded)

theorem propagation_subset (changed : List String) (excluded : List Nat) :
    (ofBindings bindings).propagation changed excluded ⊆ (ofBindings bindings).accepted :=
  fun _ h => mem_ordered.mp ((propagation_sublist _ changed excluded).subset h)

/-- Without excluded bindings a change reaches no less. -/
theorem propagation_excluded_subset (numbered : Numbered bindings) (changed : List String) (excluded : List Nat) :
    (ofBindings bindings).propagation changed excluded ⊆ (ofBindings bindings).propagation changed [] := by
  intro b found
  exact (mem_propagation numbered).mpr (((mem_propagation numbered).mp found).mono (List.nil_subset _))

/-- A change of what a binding in use writes does not reach the binding. -/
theorem not_mem_propagation_owner (numbered : Numbered bindings) {b : Binding}
    (mem : b ∈ (ofBindings bindings).accepted) (writes : b.writesValue = true) (excluded : List Nat) :
    b ∉ (ofBindings bindings).propagation [b.owner] excluded := by
  intro found
  obtain ⟨name, own, x, hx, path⟩ := ((mem_propagation numbered).mp found).exists_path
  rw [List.mem_singleton.mp own] at path
  exact accepted_acyclic b.owner (.tail' path ⟨b, mem, writes, hx, rfl⟩)

/-- A propagation repeats nothing and is, of the bindings in use, the least set that holds whatever is not excluded and
reads a changed question or a question that a binding of the set writes.  Each of its bindings is reached along a
chain of bindings of the set, so what only an excluded binding leads to is left out. -/
theorem propagation_exact (numbered : Numbered bindings) (changed : List String) (excluded : List Nat) :
    ((ofBindings bindings).propagation changed excluded).Nodup ∧
    (∀ b ∈ (ofBindings bindings).propagation changed excluded,
      b ∈ (ofBindings bindings).accepted ∧ b.order ∉ excluded) ∧
    IsLeast {S | (ofBindings bindings).Closed changed excluded S}
      {b | b ∈ (ofBindings bindings).propagation changed excluded} ∧
    ∀ b, b ∈ (ofBindings bindings).propagation changed excluded ↔
      ∃ first rest, (∃ name ∈ changed, name ∈ first.references) ∧ (first :: rest).IsChain Binding.Feeds ∧
        (∀ c ∈ first :: rest, c ∈ (ofBindings bindings).accepted ∧ c.order ∉ excluded) ∧
        (first :: rest).getLast? = some b := by
  refine ⟨?_, ?_, ?_, ?_⟩
  · have distinct := ordered_perm.nodup_iff.mpr (List.Nodup.of_map _ numbered.accepted)
    exact distinct.sublist (propagation_sublist _ changed excluded)
  · intro b found
    have reached := (mem_propagation numbered).mp found
    exact ⟨reached.accepted, reached.active⟩
  · simp only [mem_propagation numbered]
    exact isLeast_reached _ changed excluded
  · intro b
    rw [mem_propagation numbered]
    constructor
    · exact Reached.exists_isChain
    · rintro ⟨first, rest, ⟨name, hname, reads⟩, chain, all, last⟩
      obtain ⟨⟨mem, active⟩, later⟩ := List.forall_mem_cons.mp all
      exact Reached.of_isChain (.reads mem active hname reads) chain later last

open Feedback.Sample in
/-- A change of `a` leads to what copies `c`, but not once the binding that writes `c` is excluded. -/
theorem sample_propagation :
    (∀ S, (ofBindings copies).Closed ["a"] [] S → copying 3 "d" "c" ∈ S) ∧
    ∃ S, (ofBindings copies).Closed ["a"] [2] S ∧ copying 3 "d" "c" ∉ S := by
  have all : (ofBindings copies).propagation ["a"] [] =
      [copying 0 "d" "a", copying 1 "b" "a", copying 2 "c" "b", copying 3 "d" "c"] := rfl
  have fewer : (ofBindings copies).propagation ["a"] [2] = [copying 0 "d" "a", copying 1 "b" "a"] := rfl
  constructor
  · intro S closed
    obtain ⟨-, -, ⟨-, least⟩, -⟩ := propagation_exact Feedback.Sample.numbered ["a"] []
    refine least closed ?_
    show _ ∈ (ofBindings copies).propagation ["a"] []
    simp [all]
  · obtain ⟨-, -, ⟨closed, -⟩, -⟩ := propagation_exact Feedback.Sample.numbered ["a"] [2]
    refine ⟨_, closed, ?_⟩
    show _ ∉ (ofBindings copies).propagation ["a"] [2]
    simp [fewer, copying]

end Propagation

end Questionnaire.Dependencies
