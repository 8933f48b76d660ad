import Questionnaire.Proofs.Session.Sweep

/-!
# A change settles in one pass

Settling is one sweep over what a change can reach.  When an answer is stored and the change settled, every binding
that decides alone is up to date again, provided that nobody else wrote its answer.
-/
namespace Questionnaire.Engine

open Session (Applied)
open Act

/-- One sweep over what a change of some questions can reach. -/
def pass (e : Engine) (changed : List String) : Act Unit := do
  let _ ← e.sweep [] [] (e.dependencies.propagation changed (← get).disabled)
  return

theorem propagation_nil (d : Dependencies) (excluded : List Nat) : d.propagation [] excluded = [] := by
  have none (steps : Nat) : (d.spread excluded steps ⟨[], [], []⟩).found = [] := by
    cases steps with
    | zero => rfl
    | succ steps => rfl
  simp [Dependencies.propagation, Dependencies.spreadOf, none]

section

variable {e : Engine} {bindings : List Binding} (compiled : e.Compiled bindings)
include compiled

theorem Compiled.mem_ordered {b : Binding} : b ∈ e.dependencies.ordered ↔ b ∈ e.dependencies.accepted := by
  rw [compiled.dependencies]
  exact Dependencies.mem_ordered

theorem Compiled.ordered_subset : e.dependencies.ordered ⊆ e.dependencies.accepted :=
  fun _ h => compiled.mem_ordered.mp h

theorem Compiled.writersFirst_ordered : Dependencies.WritersFirst e.dependencies.ordered := by
  rw [compiled.dependencies]
  exact Dependencies.writersFirst_ordered compiled.numbered

theorem Compiled.propagation_subset (changed : List String) (excluded : List Nat) :
    e.dependencies.propagation changed excluded ⊆ e.dependencies.accepted := by
  rw [compiled.dependencies]
  exact Dependencies.propagation_subset changed excluded

theorem Compiled.writersFirst_propagation (changed : List String) (excluded : List Nat) :
    Dependencies.WritersFirst (e.dependencies.propagation changed excluded) := by
  rw [compiled.dependencies]
  exact Dependencies.writersFirst_propagation compiled.numbered changed excluded

/-- A sweep over what a change can reach leaves nothing stale. -/
theorem ends_sweep_propagation (changed : List String) (excluded : List Nat) (s : Session) :
    Ends (fun out t => Applied (e.dependencies.propagation changed excluded) s t ∧ out = [])
      (Applied (e.dependencies.propagation changed excluded) s)
      (e.sweep [] [] (e.dependencies.propagation changed excluded)) s :=
  ends_sweep compiled (compiled.propagation_subset changed excluded)
    (compiled.writersFirst_propagation changed excluded) fun _ _ h => absurd h List.not_mem_nil

/-- A sweep over all bindings leaves nothing stale. -/
theorem ends_sweep_ordered (s : Session) :
    Ends (fun out t => Applied e.dependencies.ordered s t ∧ out = []) (Applied e.dependencies.ordered s)
      (e.sweep [] [] e.dependencies.ordered) s :=
  ends_sweep compiled compiled.ordered_subset compiled.writersFirst_ordered fun _ _ h => absurd h List.not_mem_nil

/-- Settling makes one pass, and no second one. -/
theorem settle_eq_pass (changed : List String) (s : Session) : e.settle changed s = e.pass changed s := by
  obtain ⟨more, passes⟩ : ∃ more, e.settings.maxPasses = more + 1 :=
    Nat.exists_eq_succ_of_ne_zero (Nat.ne_of_gt e.settings.positive)
  rw [settle, passes, settleWithin, pass, get_bind]
  by_cases none : changed = []
  · rw [none, propagation_nil]
    rfl
  · rw [if_neg (by simpa using none), get_bind]
    simp only
    split
    · rename_i empty
      rw [List.isEmpty_iff.mp empty]
      rfl
    · have swept := ends_sweep_propagation compiled changed s.disabled s
      refine bind_congr_of_ends (swept.mono ?_ fun _ _ => trivial)
      intro out t h
      rw [h.2, settleWithin]
      rfl

/-- Settling changes what the bindings change that the change can reach, however it ends. -/
theorem ends_settle_propagation (changed : List String) (s : Session) :
    Ends (fun _ t => Applied (e.dependencies.propagation changed s.disabled) s t)
      (Applied (e.dependencies.propagation changed s.disabled) s) (e.settle changed) s := by
  rw [Ends, settle_eq_pass compiled, ← Ends, pass, ends_bind, ends_get, ends_bind]
  exact (ends_sweep_propagation compiled changed s.disabled s).mono (fun _ _ h => h.1) fun _ h => h

/-- Settling changes what the bindings in use change, however it ends. -/
theorem ends_settle (changed : List String) (s : Session) :
    Ends (fun _ t => Applied e.dependencies.accepted s t) (Applied e.dependencies.accepted s)
      (e.settle changed) s := by
  have sub := compiled.propagation_subset changed s.disabled
  exact (ends_settle_propagation compiled changed s).mono (fun _ _ h => h.mono sub) fun _ h => h.mono sub

/-- After a change settled, the bindings that decide alone are up to date if they are among what the change can
reach, or were up to date before and are fed by nothing there. -/
theorem ends_settle_upToDate (changed : List String) {s : Session} (active : s.disabled = []) :
    Ends (fun _ t => ∀ b, b.Decides e.dependencies.accepted →
        (b ∈ e.dependencies.propagation changed [] ∨
          e.UpToDate s b ∧ ∀ w ∈ e.dependencies.propagation changed [], ¬ w.Feeds b) → e.UpToDate t b)
      (fun _ => True) (e.settle changed) s := by
  rw [Ends, settle_eq_pass compiled, ← Ends, pass, ends_bind, ends_get, ends_bind, active]
  exact ends_sweep_upToDate compiled active (compiled.propagation_subset changed [])
    (compiled.writersFirst_propagation changed [])

/-- A binding that a change does not reach reads neither the changed answer nor what the change may rewrite. -/
theorem Compiled.unreached {b : Binding} (mem : b ∈ e.dependencies.accepted) {key : Key}
    (out : b ∉ e.dependencies.propagation key.text?.toList []) :
    (∀ name ∈ b.references, (key == Key.text name) = false) ∧
      ∀ w ∈ e.dependencies.propagation key.text?.toList [], ¬ w.Feeds b := by
  rw [compiled.dependencies] at mem out ⊢
  constructor
  · intro name reads
    rw [Bool.eq_false_iff]
    intro same
    rw [Key.text_same_iff.mp (PartialEquivBEq.symm same)] at out
    exact out (Dependencies.mem_propagation_of_reads compiled.numbered mem List.not_mem_nil
      (List.mem_singleton.mpr rfl) reads)
  · intro w hw feeds
    exact out (Dependencies.mem_propagation_of_feeds compiled.numbered mem List.not_mem_nil hw feeds)

end

/-! ## A write and what follows from it -/

/-- No binding is out of use, and every binding that decides alone is up to date; those that write a value need it
only if nobody outside writes that answer. -/
structure Settled (e : Engine) (outside : Value → Prop) (s : Session) : Prop where
  active : s.disabled = []
  upToDate : ∀ b, b.Decides e.dependencies.accepted →
    (b.writesValue = true → ¬ outside (.text b.owner)) → e.UpToDate s b

theorem eq_text_of_key? {target : Value} {name : String} (h : target.key? = some (.text name)) :
    target = .text name := by
  cases target <;> simp_all [Value.key?]

theorem Settled.of_store {e : Engine} {bindings : List Binding} (compiled : e.Compiled bindings)
    {outside : Value → Prop} {s : Session} (settled : e.Settled outside s) {target : Value} {key : Key}
    (hkey : target.key? = some key) (allowed : outside target) (v : Value) :
    Ends (fun _ t => e.Settled outside t) (fun _ => True) (e.settle key.text?.toList)
      { s with answers := s.answers.put key v } := by
  have run := (ends_settle compiled key.text?.toList { s with answers := s.answers.put key v }).and
    (ends_settle_upToDate compiled key.text?.toList settled.active)
  refine run.mono ?_ fun _ _ => trivial
  intro _ t h
  refine ⟨h.1.recomputed.disabled.trans settled.active, ?_⟩
  intro b decides quiet
  refine h.2 b decides ?_
  by_cases found : b ∈ e.dependencies.propagation key.text?.toList []
  · exact Or.inl found
  · obtain ⟨unread, unfed⟩ := compiled.unreached decides.mem found
    have unwritten (writes : b.writesValue = true) : (key == Key.text b.owner) = false := by
      rw [Bool.eq_false_iff]
      intro same
      rw [Key.text_same_iff.mp (PartialEquivBEq.symm same)] at hkey
      exact quiet writes (eq_text_of_key? hkey ▸ allowed)
    refine Or.inr ⟨?_, unfed⟩
    exact (settled.upToDate b decides quiet).congr (compiled.mem_accepted_declared decides.mem)
      (fun name reads => value_eq_of_find? (Fields.find?_put_of_differs v (unread name reads)))
      (fun writes => value_eq_of_find? (Fields.find?_put_of_differs v (unwritten writes))) fun _ => rfl

end Questionnaire.Engine
