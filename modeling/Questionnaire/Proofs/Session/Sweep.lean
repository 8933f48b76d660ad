import Questionnaire.Proofs.Logic.Reach
import Questionnaire.Proofs.Session.Application

/-!
# One sweep settles

A sweep applies bindings in an order in which writers come first.  Two things follow.  No answer changes after one of
its readers was applied, so a sweep leaves nothing stale and one pass over what a change can reach is enough.  And a
binding that was brought up to date stays so to the end of the sweep, because what comes later writes nothing that it
reads; after a change, what the sweep leaves out was up to date before and reads nothing that the sweep writes.

The second part is about the bindings that alone decide what is shown in their place.
-/
namespace Questionnaire

open Session (Noted Recomputed Applied)
open Act

namespace Binding

/-- The owner of a binding shows a value: its answer is the same, or its flag is what the value says. -/
def Shows (b : Binding) (s : Session) (v : Value) : Prop :=
  (b.writesValue = true → (s.value b.owner).Matches v) ∧
  (b.writesValue = false → ∀ own, s.flags.find? b.owner = some own → own.get b.kind = v.truthy)

/-- A binding alone decides what is shown in its place: no other one shows something there, and if it writes a value
it computes it and has no gate. -/
structure Decides (bindings : List Binding) (b : Binding) : Prop where
  mem : b ∈ bindings
  sole : ∀ other ∈ bindings, other.target = b.target → other = b
  computed : b.writesValue = true → b.kind = .setValueExpression ∧ b.gate = none

end Binding

/-- The dependencies of an engine are those of some bindings, which are numbered and declare what they read. -/
structure Engine.Compiled (e : Engine) (bindings : List Binding) : Prop where
  dependencies : e.dependencies = .ofBindings bindings
  numbered : Dependencies.Numbered bindings
  declared : ∀ b ∈ bindings, b.Declared

namespace Engine

/-- The owner of a binding shows what the expression of the binding gives on the current answers. -/
def UpToDate (e : Engine) (s : Session) (b : Binding) : Prop :=
  ∃ v, e.current s b.expression = .ok v ∧ b.Shows s v

section

variable {e : Engine} {s t : Session} {b : Binding}

/-! ## Up to date -/

theorem UpToDate.congr (h : e.UpToDate s b) (declared : b.Declared)
    (reads : ∀ name ∈ b.references, t.value name = s.value name)
    (answer : b.writesValue = true → t.value b.owner = s.value b.owner)
    (flag : b.writesValue = false →
      (t.flags.find? b.owner).map (·.get b.kind) = (s.flags.find? b.owner).map (·.get b.kind)) :
    e.UpToDate t b := by
  obtain ⟨v, value, answered, flagged⟩ := h
  refine ⟨v, ?_, ?_, ?_⟩
  · rw [← value]
    exact current_congr rfl rfl fun name hname => reads name (declared hname)
  · intro writes
    rw [answer writes]
    exact answered writes
  · intro writes own found
    have same := flag writes
    rw [found] at same
    obtain ⟨before, hbefore, eq⟩ := Option.map_eq_some_iff.mp same.symm
    exact eq.symm.trans (flagged writes before hbefore)

/-- Answers that are found alike are alike. -/
theorem value_eq_of_find? {name : String}
    (h : t.answers.find? (.text name) = s.answers.find? (.text name)) : t.value name = s.value name := by
  rw [Session.value, Session.value, Fields.get, Fields.get, Fields.lookUp, Fields.lookUp, h]

/-- Other bindings leave a binding up to date if they write nothing that it reads and show nothing in its place. -/
theorem UpToDate.of_applied {bindings : List Binding} (h : e.UpToDate s b) (declared : b.Declared)
    (applied : Applied bindings s t) (silent : ∀ x ∈ bindings, ¬ x.Feeds b)
    (apart : ∀ x ∈ bindings, x.target ≠ b.target) : e.UpToDate t b := by
  refine h.congr declared ?_ ?_ ?_
  · intro name hname
    refine value_eq_of_find? (applied.answers _ ?_)
    intro x hx xWrites same
    cases same
    exact silent x hx ⟨xWrites, hname⟩
  · intro writes
    refine value_eq_of_find? (applied.answers _ ?_)
    intro x hx xWrites same
    refine apart x hx ?_
    simp [Binding.target, xWrites, writes, Key.text.inj same]
  · intro writes
    refine applied.flags.unset _ _ ?_
    intro x hx same
    refine apart x hx ?_
    rw [same]
    simp [Binding.target, writes]

/-- Right after it was applied, a binding that computes its value or sets a flag is up to date. -/
theorem ends_apply_upToDate (declared : b.Declared) (self : ¬ b.Feeds b)
    (computed : b.writesValue = true → b.kind = .setValueExpression ∧ b.gate = none) :
    Ends (fun _ t => e.UpToDate t b) (fun _ => True) (e.apply b) s := by
  cases writes : b.writesValue with
  | false =>
    rw [apply_flag e writes, ends_bind]
    refine (ends_partValue .expression b.expression).mono ?_ fun _ _ => trivial
    intro v t h
    refine ⟨v, ?_, fun h => by simp [writes] at h, ?_⟩
    · exact (current_of_answers (by simpa using h.1.answers)).trans h.2
    · intro _ own found
      simp only [Table.find?_modify, beq_self_eq_true, if_true] at found
      obtain ⟨before, -, rfl⟩ := Option.map_eq_some_iff.mp found
      exact Flags.get_put_self writes before v.truthy
  | true =>
    obtain ⟨kind, gate⟩ := computed writes
    rw [apply_computed e kind gate, ends_bind]
    refine (ends_partValue .expression b.expression).mono ?_ fun _ _ => trivial
    intro v t h
    refine ends_store.mpr ⟨v, ?_, fun _ => Fields.matches_put t.answers _ v, fun h => by simp [writes] at h⟩
    rw [← h.2]
    refine current_congr rfl rfl ?_
    intro name hname
    refine value_eq_of_find? ?_
    have other : Key.text name ≠ .text b.owner := by
      intro same
      cases same
      exact self ⟨writes, declared hname⟩
    rw [Fields.find?_put_of_differs v (Key.text_differs other), h.1.answers]

end

/-! ## One sweep -/

section Sweep

variable {e : Engine} {bindings : List Binding} (compiled : e.Compiled bindings)
include compiled

theorem Compiled.mem_accepted_declared {b : Binding} (mem : b ∈ e.dependencies.accepted) : b.Declared :=
  compiled.declared b (Dependencies.accepted_subset (compiled.dependencies ▸ mem))

theorem Compiled.eq_of_order {a b : Binding} (ha : a ∈ e.dependencies.accepted)
    (hb : b ∈ e.dependencies.accepted) (same : a.order = b.order) : a = b := by
  rw [compiled.dependencies] at ha hb
  exact compiled.numbered.eq (Dependencies.accepted_subset ha) (Dependencies.accepted_subset hb) same

theorem Compiled.not_feeds_self {b : Binding} (mem : b ∈ e.dependencies.accepted) : ¬ b.Feeds b :=
  Dependencies.not_feeds_self (compiled.dependencies ▸ mem)

/-- A sweep that lets writers come first changes what its bindings change, and adds nothing to what is stale. -/
theorem ends_sweep {l : List Binding} {ran : List Nat} {stale : List String} {s : Session}
    (sub : l ⊆ e.dependencies.accepted) (first : Dependencies.WritersFirst l)
    (done : ∀ r ∈ e.dependencies.accepted, r.order ∈ ran → ∀ b ∈ l, ¬ b.Feeds r) :
    Ends (fun out t => Applied l s t ∧ out = stale) (Applied l s) (e.sweep ran stale l) s := by
  induction l generalizing ran s with
  | nil => exact ⟨Applied.of_noted [] (Noted.refl s), rfl⟩
  | cons b rest ih =>
    obtain ⟨hb, hrest⟩ := List.cons_subset.mp sub
    obtain ⟨later, firstRest⟩ := List.pairwise_cons.mp first
    have head : [b] ⊆ b :: rest := by simp
    have tail : rest ⊆ b :: rest := List.subset_cons_self _ _
    rw [sweep, ends_bind, ends_get]
    split
    · refine (ih hrest firstRest fun r hr hran x hx => done r hr hran x (List.mem_cons_of_mem _ hx)).mono ?_ ?_
      · intro out t h
        exact ⟨h.1.mono tail, h.2⟩
      · intro t h
        exact h.mono tail
    · simp only
      rw [ends_bind]
      refine ends_apply.mono ?_ fun t h => h.mono head
      intro changed t h
      -- a reader that has run is the binding itself or an earlier one, and the binding feeds neither
      have prompt : (changed && (e.dependencies.readers b.owner).any ((b.order :: ran).contains ·.order)) = false := by
        rw [Bool.and_eq_false_iff]
        cases changed with
        | false => exact Or.inl rfl
        | true =>
          refine Or.inr (List.any_eq_false.mpr ?_)
          intro r hr
          obtain ⟨mem, reads⟩ := List.mem_filter.mp hr
          have feeds : b.Feeds r := ⟨h.2 rfl, by simpa [Binding.reads] using reads⟩
          intro hran
          rcases List.mem_cons.mp (List.contains_iff_mem.mp hran) with same | earlier
          · rw [compiled.eq_of_order mem hb same] at feeds
            exact compiled.not_feeds_self hb feeds
          · exact done r mem earlier b List.mem_cons_self feeds
      simp only [prompt, Bool.false_eq_true, if_false]
      have done' : ∀ r ∈ e.dependencies.accepted, r.order ∈ b.order :: ran → ∀ x ∈ rest, ¬ x.Feeds r := by
        intro r hr hran x hx
        rcases List.mem_cons.mp hran with same | earlier
        · rw [compiled.eq_of_order hr hb same]
          exact later x hx
        · exact done r hr earlier x (List.mem_cons_of_mem _ hx)
      refine (ih hrest firstRest done').mono ?_ ?_
      · intro out u h'
        exact ⟨(h.1.mono head).trans (h'.1.mono tail), h'.2⟩
      · intro u h'
        exact (h.1.mono head).trans (h'.mono tail)

/-- After a sweep the bindings that decide alone are up to date: those that were applied, and those that were up to
date before and that the sweep does not feed. -/
theorem ends_sweep_upToDate {l : List Binding} {ran : List Nat} {stale : List String} {s : Session}
    (active : s.disabled = []) (sub : l ⊆ e.dependencies.accepted) (first : Dependencies.WritersFirst l) :
    Ends (fun _ t => ∀ b, b.Decides e.dependencies.accepted →
        (b ∈ l ∨ e.UpToDate s b ∧ ∀ w ∈ l, ¬ w.Feeds b) → e.UpToDate t b)
      (fun _ => True) (e.sweep ran stale l) s := by
  induction l generalizing ran stale s with
  | nil =>
    intro b _ h
    exact (h.resolve_left List.not_mem_nil).1
  | cons x rest ih =>
    obtain ⟨hx, hrest⟩ := List.cons_subset.mp sub
    obtain ⟨later, firstRest⟩ := List.pairwise_cons.mp first
    rw [sweep, ends_bind, ends_get, active]
    simp only [List.contains_nil, Bool.false_eq_true, if_false]
    rw [ends_bind]
    have both : Ends (fun _ t => Applied [x] s t ∧ (x.Decides e.dependencies.accepted → e.UpToDate t x))
        (fun _ => True) (e.apply x) s := by
      by_cases decides : x.Decides e.dependencies.accepted
      · have fresh := ends_apply_upToDate (e := e) (s := s) (compiled.mem_accepted_declared hx)
          (compiled.not_feeds_self hx) decides.computed
        exact (ends_apply.and fresh).mono (fun _ t h => ⟨h.1.1, fun _ => h.2⟩) fun _ _ => trivial
      · exact ends_apply.mono (fun _ t h => ⟨h.1, fun h => absurd h decides⟩) fun _ _ => trivial
    refine both.mono ?_ fun _ _ => trivial
    intro changed t h
    have active' : t.disabled = [] := h.1.recomputed.disabled.trans active
    refine (ih active' hrest firstRest).mono ?_ fun _ _ => trivial
    intro _ u h' b decides cause
    refine h' b decides ?_
    by_cases same : x = b
    · subst same
      exact Or.inr ⟨h.2 decides, later⟩
    · rcases cause with mem | ⟨before, silent⟩
      · exact Or.inl ((List.mem_cons.mp mem).resolve_left (Ne.symm same))
      · refine Or.inr ⟨?_, fun w hw => silent w (List.mem_cons_of_mem _ hw)⟩
        refine before.of_applied (compiled.mem_accepted_declared decides.mem) h.1 ?_ ?_
        · simpa using silent x List.mem_cons_self
        · simpa using fun target => same (decides.sole x hx target)

end Sweep

end Engine

end Questionnaire
