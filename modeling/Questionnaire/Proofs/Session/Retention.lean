import Questionnaire.Proofs.Session.Notices

/-!
# What was written is found

A write of the host puts its value under a name, and if neither a binding nor a trigger writes that name, the value is
found under it afterwards: what follows from the write leaves the answer alone, as many writes as there may be.
Listeners may still write the name in turn.

The value is put there unless the store takes it for the one that it has.  Its test looks at the kind of the whole
value, and then at the data.  Within lists and objects data are the same that are not of one kind: a one and a true.
So what is found is the value that was written, or the one before it that the test takes for it.
-/
namespace Questionnaire

open Act
open Session (Applied)

namespace Value

/-- Whether no other value is the same as this one.  There are others for lists and objects, for either zero among the
doubles and for what is no number. -/
def isSole : Value → Bool
  | .sequence _ | .structured _ => false
  | .number (.float .nan) => false
  | .number (.float (.finite _ units)) => units != 0
  | _ => true

theorem eq_of_unchanged {stored v : Value} (same : stored.unchanged v = true) (sole : v.isSole = true) :
    stored = v := by
  cases v with
  | undefined => exact unchanged_undefined_right.mp same
  | boolean b => cases stored <;> simp_all [unchanged]
  | number n =>
    cases stored with
    | number m =>
      cases n with
      | int n => cases m <;> simp_all [unchanged]
      | float d =>
        cases m with
        | int m => simp [unchanged] at same
        | float c =>
          have apart : ∀ negative, d ≠ .finite negative 0 := by
            rintro negative rfl
            cases sole
          rw [Number.eq_of_eq_float same apart]
    | _ => simp [unchanged] at same
  | text s => cases stored <;> simp_all [unchanged]
  | sequence items => cases sole
  | structured fields => cases sole

end Value

/-- What is stored is found, unless it is taken for what is there. -/
theorem Fields.lookUp_put_self (answers : Fields) (key : Key) (v : Value) :
    (answers.put key v).lookUp key =
      if (answers.lookUp key).unchanged v then answers.lookUp key else v := by
  split
  · rename_i same
    rw [put, Engine.store?_eq_none_iff.mpr same, Option.getD_none]
  · rename_i differs
    cases defined : v.isDefined with
    | false =>
      obtain rfl := Value.eq_undefined_of_not_isDefined defined
      rcases matches_put answers key .undefined with same | same
      · exact same
      · exact Value.unchanged_undefined_right.mp same
    | true =>
      have stored : store? answers key v = some (Table.set key v answers) := by
        simp [store?, defined, differs]
      rw [put, stored, Option.getD_some, lookUp, Table.find?_set_self, Option.getD_some]

/-! ## An answer that nothing writes -/

namespace Engine

/-- Some answer is found under a name, and nothing that waits and no trigger writes it. -/
structure Retains (n : String) (x : Option Value) (s : Session) : Prop where
  answer : s.answers.find? (.text n) = x
  waiting : ∀ w ∈ s.queue, w.target ≠ .text n
  triggers : ∀ t ∈ s.triggers, t.kind.writes = true → t.setToName ≠ .text n

/-- No listener writes a name. -/
def Unheard (n : String) (s : Session) : Prop := ∀ l ∈ s.listeners, ∀ w ∈ l.writes, w.1 ≠ .text n

variable {e : Engine} {n : String} {x : Option Value} {s t : Session}

theorem fires_retains : Fires e (fun a => a.trigger.kind.writes = true → a.trigger.setToName ≠ .text n)
    (Retains n x) fun _ => True where
  fault _ := trivial
  slots h a mem := h.triggers a.trigger (List.mem_map_of_mem mem)
  report h _ := ⟨h.answer, h.waiting, h.triggers⟩
  noted {s} h index f same := by
    refine ⟨h.answer, h.waiting, ?_⟩
    rw [(Session.dispatched_modifySlot index same s).triggers]
    exact h.triggers
  act h _ _ _ _ := ⟨h.answer, h.waiting, h.triggers⟩
  wait h a other writes v := by
    refine ⟨h.answer, ?_, h.triggers⟩
    refine List.forall_mem_append.mpr ⟨h.waiting, ?_⟩
    exact List.forall_mem_singleton.mpr (other writes)
  drop h queue few := ⟨h.answer, fun w mem => h.waiting w (few mem), h.triggers⟩

/-- A write under another name leaves the answer alone. -/
theorem Retains.put (h : Retains n x s) {target : Value} (other : target ≠ .text n) {key : Key}
    (found : target.key? = some key) (v : Value) : Retains n x { s with answers := s.answers.put key v } := by
  have differs : (key == Key.text n) = false := by
    rw [BEq.comm]
    refine Key.text_differs ?_
    rintro rfl
    exact other (eq_text_of_key? found)
  refine ⟨?_, h.waiting, h.triggers⟩
  rw [Fields.find?_put_of_differs v differs]
  exact h.answer

section

variable {bindings : List Binding} (compiled : e.Compiled bindings)
variable (unbound : ∀ b ∈ e.dependencies.accepted, b.writesValue = true → b.owner ≠ n)
include unbound

theorem Retains.applied (h : Retains n x s) (applied : Applied e.dependencies.accepted s t) : Retains n x t where
  answer := by
    rw [applied.answers (.text n) fun b mem writes same => unbound b mem writes (Key.text.inj same).symm]
    exact h.answer
  waiting := applied.recomputed.queue ▸ h.waiting
  triggers := by
    rw [Session.triggers, applied.recomputed.slots]
    exact h.triggers

include compiled

theorem guards_drainWithin_retains (steps made : Nat) :
    Guards (Retains n x) (fun _ => True) (e.drainWithin steps made) :=
  fires_retains.drainWithin compiled (fun _ _ h applied => h.applied unbound applied) (fun w => w.target ≠ .text n)
    (fun _ h => h.waiting) (fun w other _ found _ h => h.put other found w.value) steps made

/-- The answer is stored in the first turn of the queue, and no later one writes it. -/
theorem ends_drain_retains (idle : s.queue = []) (h : Retains n x s) (v : Value) :
    Ends (fun _ => Retains n ((s.answers.put (.text n) v).find? (.text n))) (fun _ => True) e.drain
      (s.ask (.text n) v) := by
  rw [Ends, drain_ask_of_idle idle, ← Ends, ends_bind]
  have stored : Retains n ((s.answers.put (.text n) v).find? (.text n))
      { s with answers := s.answers.put (.text n) v } := ⟨rfl, h.waiting, h.triggers⟩
  have performed := fires_retains.perform_stored compiled (fun _ _ h applied => h.applied unbound applied)
    (w := ⟨.text n, v, none⟩) rfl stored
  exact performed.mono (fun _ t ht => guards_drainWithin_retains compiled unbound _ 0 t ht) fun _ h => h

/-- Listeners that do not write the name leave the answer alone, whatever else they write. -/
theorem serves_retains : e.Serves (· ≠ .text n) (fun t => Retains n x t ∧ Unheard n t) fun _ => True where
  fault _ := trivial
  drain {s} h target other v := by
    have asked : Retains n x (s.ask target v) :=
      ⟨h.1.answer, List.forall_mem_append.mpr ⟨h.1.waiting, List.forall_mem_singleton.mpr other⟩, h.1.triggers⟩
    have drained : Ends (fun _ => Retains n x) (fun _ => True) e.drain (s.ask target v) := by
      rw [drain, ends_bind, ends_get]
      exact guards_drainWithin_retains compiled unbound _ 0 _ asked
    refine (drained.and (ends_drain_untold compiled _)).mono (fun _ t ht => ⟨ht.1, ?_⟩) fun _ _ => trivial
    rw [Unheard, ht.2.1]
    exact h.2
  told h _ _ := ⟨⟨h.1.answer, h.1.waiting, h.1.triggers⟩, h.2⟩
  cancelled h _ := by
    refine ⟨⟨h.1.answer, h.1.waiting, h.1.triggers⟩, ?_⟩
    intro l mem
    exact h.2 l (List.mem_of_mem_eraseP mem)
  heard h := h.2

theorem ends_write_retains (idle : s.queue = []) (h : Retains n x s) (unheard : Unheard n s) (v : Value) :
    Ends (fun _ t => Retains n ((s.answers.put (.text n) v).find? (.text n)) t ∧ Unheard n t) (fun _ => True)
      (e.write (.text n) v) s := by
  have serves := serves_retains (x := (s.answers.put (.text n) v).find? (.text n)) compiled unbound
  refine serves.writeWithin_succ (fun _ other v => serves.writeWithin _ other v) ?_
  have drained := (ends_drain_retains compiled unbound idle h v).and (ends_drain_untold compiled _)
  refine drained.mono (fun _ t ht => ⟨ht.1, ?_⟩) fun _ _ => trivial
  rw [Unheard, ht.2.1]
  exact unheard

end

/-- What the host writes under a name that no binding and no trigger writes is found under it when the queue is empty,
and at the end of the call unless a listener wrote the name in turn.  Only where the store takes the value for what it
had there, that is found instead; a boolean, a text, a number other than a zero double or nothing at all is taken for
nothing else. -/
theorem written_value_found {survey : Survey} {settings : Settings} {given : Fields} {navigator : Bool} {s₀ : Session}
    {v : Value} (begun : start survey settings given navigator = .ok (e, s₀)) (moment : e.Leads s₀ s)
    (idle : s.queue = []) (unbound : ∀ b ∈ e.dependencies.accepted, b.writesValue = true → b.owner ≠ n)
    (untriggered : ∀ t ∈ survey.triggers, t.kind.writes = true → t.setToName ≠ .text n)
    (run : e.write (.text n) v s = .ok ⟨⟩ t) :
    ∃ u, e.drain (s.ask (.text n) v) = .ok ⟨⟩ u ∧
      u.value n = (if (s.value n).unchanged v then s.value n else v) ∧
      (v.isSole = true → u.value n = v) ∧
      (Unheard n s → t.value n = u.value n) := by
  obtain ⟨bindings, compiled⟩ := exists_compiled begun
  have retains : Retains n (s.answers.find? (.text n)) s := by
    refine ⟨rfl, ?_, ?_⟩
    · rw [idle]
      exact List.forall_mem_nil _
    · rw [triggers_of_leads begun moment]
      exact untriggered
  obtain ⟨u, drained⟩ := exists_drain_of_write run
  have answer := ((ends_drain_retains compiled unbound idle retains v).of_ok drained).answer
  have found : u.value n = if (s.value n).unchanged v then s.value n else v := by
    have look := Fields.lookUp_put_self s.answers (.text n) v
    rw [Fields.lookUp, ← answer] at look
    exact look
  refine ⟨u, drained, found, ?sole, ?call⟩
  case sole =>
    intro sole
    rw [found]
    split
    · rename_i same
      exact Value.eq_of_unchanged same sole
    · rfl
  case call =>
    intro unheard
    have answer' := ((ends_write_retains compiled unbound idle retains unheard v).of_ok run).1.answer
    exact value_eq_of_find? (answer'.trans answer.symm)

end Engine

namespace Pair

/-- A list of a one. -/
def listed : Fields := [(.text "a", .sequence [Sample.whole 1])]

end Pair

namespace Engine

/-- In the sample an eight answers `a`, and it is found there after `t` was computed and a listener told. -/
theorem sample_found : ∃ s₀ t, start Sample.survey Sample.settings (Sample.given 1 35) false = .ok (Sample.engine, s₀) ∧
    Sample.engine.write (.text "a") (Sample.whole 8) (Sample.heard { id := "l" } s₀) = .ok ⟨⟩ t ∧
    t.notified ≠ [] ∧ t.value "a" = Sample.whole 8 := by
  obtain ⟨s₀, t, begun, -, -, run, -, notified⟩ := Sample.exists_heard { id := "l" }
    [("a", 8), ("c", 35), ("t", 9)] [("l", [some "a", some "t", some "q"])] (Act.exists_of_seen (by decide +kernel))
  have fresh := (primed_of_start begun).1
  have moment : Sample.engine.Leads s₀ (Sample.heard { id := "l" } s₀) := Sample.leads_heard _ _ s₀
  have unbound : ∀ b ∈ Sample.engine.dependencies.accepted, b.writesValue = true → b.owner ≠ "a" := by
    intro b mem writes
    rw [Sample.eq_computed mem writes]
    decide
  have unheard : Unheard "a" (Sample.heard { id := "l" } s₀) := by
    intro l mem
    rw [Sample.heard, fresh.listeners, List.nil_append, List.mem_singleton] at mem
    rw [mem]
    rintro w ⟨⟩
  have untriggered : ∀ t ∈ Sample.survey.triggers, t.kind.writes = true → t.setToName ≠ .text "a" := by
    rw [Sample.triggers]
    exact List.forall_mem_nil _
  obtain ⟨u, -, -, found, kept⟩ := written_value_found begun moment fresh.queue unbound untriggered run
  refine ⟨s₀, t, begun, run, ?_, (kept unheard).trans (found rfl)⟩
  intro none
  rw [none] at notified
  cases notified

/-- The store takes a list of a true for the list of a one that it has, and keeps the latter. -/
theorem nested_kind_lost : ∃ t, Survey.ofDocument Pair.document = .ok Pair.survey ∧
    start Pair.survey Sample.settings Pair.listed false = .ok (Pair.engine, Pair.opened Pair.listed) ∧
    (Pair.opened Pair.listed).queue = [] ∧ Pair.engine.dependencies.accepted = [] ∧ Pair.survey.triggers = [] ∧
    Pair.engine.write (.text "a") (.sequence [.boolean true]) (Pair.opened Pair.listed) = .ok ⟨⟩ t ∧
    t.value "a" ≠ .sequence [.boolean true] ∧ t.value "a" = .sequence [Sample.whole 1] := by
  have same : ((Pair.opened Pair.listed).value "a").unchanged (.sequence [.boolean true]) = true := by decide +kernel
  have comparable : (Pair.opened Pair.listed).Comparable := by
    intro key v found
    obtain ⟨other, mem⟩ := Table.exists_mem_of_find?_eq_some found
    obtain rfl := (Prod.mk.inj (List.mem_singleton.mp mem)).2
    exact ⟨.sequence (List.forall_mem_singleton.mpr (.number _)), by simp [Value.float]⟩
  have run : Pair.engine.write (.text "a") (.sequence [.boolean true]) (Pair.opened Pair.listed) =
      .ok ⟨⟩ (Pair.opened Pair.listed) := by
    rw [write, writeWithin_of_drained _ (drain_of_same rfl same), changes_self_of_comparable comparable]
    rfl
  refine ⟨_, Pair.loaded, Pair.started _, rfl, rfl, rfl, run, ?_, rfl⟩
  rintro ⟨⟩

end Engine

end Questionnaire
