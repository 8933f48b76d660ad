import Questionnaire.Proofs.Session.Application
import Questionnaire.Session.Firing

/-!
# What triggers may change

Checking triggers, letting them act, and switching one off leaves answers and flags alone.  Slots keep their
triggers, and what joins the queue are writes to the targets that the triggers name.
-/
namespace Questionnaire

open Act

/-- A diagnostic on a binding that did not settle. -/
def Diagnostic.Unstable (d : Diagnostic) : Prop := d.problem.kindName = "UnstableLogic"

theorem Diagnostic.not_unstable_of_eval {d : Diagnostic} {failure : EvalError} (h : d.problem = .eval failure) :
    ¬ d.Unstable := by
  rw [Unstable, h, Problem.kindName]
  cases failure.kind <;> decide

namespace Session

/-- Answers, flags, and the state of the bindings are the same, and no binding is reported as unstable. -/
structure Aside (s t : Session) : Prop where
  rest : t = { s with
    diagnostics := t.diagnostics, slots := t.slots, history := t.history, queue := t.queue,
    listeners := t.listeners, navigator := t.navigator, notified := t.notified }
  added : ∀ d ∈ t.diagnostics, d ∈ s.diagnostics ∨ ¬ d.Unstable

/-- The triggers of a session, in order. -/
def triggers (s : Session) : List Trigger := s.slots.map (·.trigger)

/-- What triggers may change. -/
structure Dispatched (s t : Session) : Prop where
  aside : Aside s t
  listeners : t.listeners = s.listeners
  triggers : t.triggers = s.triggers
  queue : ∀ w ∈ t.queue, w ∈ s.queue ∨ ∃ trigger ∈ s.triggers, w.target = trigger.setToName

variable {s t u : Session}

theorem Aside.refl (s : Session) : Aside s s := ⟨rfl, fun _ h => Or.inl h⟩

theorem Aside.trans (h : Aside s t) (h' : Aside t u) : Aside s u where
  rest := by rw [h'.rest, h.rest]
  added d hd := (h'.added d hd).elim (h.added d) Or.inr

theorem Aside.answers (h : Aside s t) : t.answers = s.answers := by rw [h.rest]

theorem Aside.flags (h : Aside s t) : t.flags = s.flags := by rw [h.rest]

theorem Aside.disabled (h : Aside s t) : t.disabled = s.disabled := by rw [h.rest]

theorem Dispatched.refl (s : Session) : Dispatched s s := ⟨.refl s, rfl, rfl, fun _ h => Or.inl h⟩

theorem Dispatched.trans (h : Dispatched s t) (h' : Dispatched t u) : Dispatched s u where
  aside := h.aside.trans h'.aside
  listeners := h'.listeners.trans h.listeners
  triggers := h'.triggers.trans h.triggers
  queue w hw := by
    rcases h'.queue w hw with old | new
    · exact h.queue w old
    · exact Or.inr (h.triggers ▸ new)

theorem dispatched_report {d : Diagnostic} (stable : ¬ d.Unstable) (s : Session) : Dispatched s (s.report d) where
  aside := by
    refine ⟨rfl, ?_⟩
    intro d' hd
    rcases List.mem_append.mp hd with old | new
    · exact Or.inl old
    · exact Or.inr (List.mem_singleton.mp new ▸ stable)
  listeners := rfl
  triggers := rfl
  queue _ h := Or.inl h

theorem dispatched_modifySlot (index : Nat) {f : Slot → Slot} (hf : ∀ slot, (f slot).trigger = slot.trigger)
    (s : Session) : Dispatched s (s.modifySlot index f) where
  aside := ⟨rfl, fun _ h => Or.inl h⟩
  listeners := rfl
  triggers := by
    refine List.ext_getElem? ?_
    intro i
    simp only [triggers, modifySlot, List.getElem?_map, List.getElem?_modify]
    cases s.slots[i]? with
    | none => rfl
    | some slot =>
      by_cases here : index = i
      · simp [here, hf]
      · simp [here]
  queue _ h := Or.inl h

end Session

open Session (Dispatched)

namespace Engine

variable {e : Engine} {s : Session} {slot : Slot}

theorem ends_evaluate (x : Expr) : Ends (fun _ t => t = s) (· = s) (e.evaluate x) s := by
  rw [evaluate]
  rw [ends_bind, ends_get]
  cases x.evaluate (e.context s) with
  | ok v => rfl
  | error stop => cases stop <;> rfl

theorem ends_conditionHolds :
    Ends (fun _ t => Dispatched s t) (Dispatched s) (e.conditionHolds slot) s := by
  rw [conditionHolds]
  split
  · exact Dispatched.refl s
  · rw [ends_bind]
    refine (ends_evaluate _).mono ?_ fun t same => same ▸ Dispatched.refl s
    rintro outcome t rfl
    cases outcome with
    | ok v => exact Dispatched.refl t
    | error failure => exact Session.dispatched_report (Diagnostic.not_unstable_of_eval rfl) t

theorem ends_record (target value : Value) :
    Ends (fun _ t => Dispatched s t) (Dispatched s) (record slot target value) s :=
  ⟨⟨rfl, fun _ h => Or.inl h⟩, rfl, rfl, fun _ h => Or.inl h⟩

/-- A trigger queues writes to its own target. -/
theorem ends_queueWrite (mem : slot.trigger ∈ s.triggers) (value : Value) :
    Ends (fun _ t => Dispatched s t) (Dispatched s) (queueWrite slot value) s := by
  rw [queueWrite]
  rw [ends_bind]
  refine (ends_record _ _).mono ?_ fun _ h => h
  intro _ t h
  split
  · refine h.trans ⟨⟨rfl, fun _ h => Or.inl h⟩, rfl, rfl, ?_⟩
    intro w hw
    rcases List.mem_append.mp hw with old | new
    · exact Or.inl old
    · exact Or.inr ⟨slot.trigger, h.triggers ▸ mem, by rw [List.mem_singleton.mp new]⟩
  · exact h

theorem ends_copiedValue (source : Value) :
    Ends (fun _ t => t = s) (· = s) (copiedValue source) s := by
  rw [copiedValue]
  rw [ends_bind, ends_get]
  cases s.answerAt source <;> rfl

theorem ends_execute (mem : slot.trigger ∈ s.triggers) :
    Ends (fun _ t => Dispatched s t) (Dispatched s) (e.execute slot) s := by
  have moved (n : Option Navigator) {t : Session} (h : Dispatched s t) :
      Dispatched s { t with navigator := n } :=
    h.trans ⟨⟨rfl, fun _ h => Or.inl h⟩, rfl, rfl, fun _ h => Or.inl h⟩
  rw [execute]
  split
  case h_1 | h_2 =>
    rw [ends_bind]
    exact (ends_record _ _).mono (fun _ t h => moved _ h) fun _ h => h
  case h_3 => exact ends_queueWrite mem _
  case h_4 =>
    rw [ends_bind]
    refine (ends_copiedValue _).mono ?_ fun t same => same ▸ Dispatched.refl s
    rintro v t rfl
    exact ends_queueWrite mem v
  case h_5 =>
    split
    · exact Dispatched.refl s
    · rw [ends_bind]
      refine (ends_evaluate _).mono ?_ fun t same => same ▸ Dispatched.refl s
      rintro outcome t rfl
      cases outcome with
      | ok v => exact ends_queueWrite mem v
      | error failure => exact Session.dispatched_report (Diagnostic.not_unstable_of_eval rfl) t

theorem ends_check (index : Nat) : Ends (fun _ t => Dispatched s t) (Dispatched s) (e.check index) s := by
  rw [check]
  rw [ends_bind, ends_get]
  split
  · exact Dispatched.refl s
  · rename_i slot found
    split
    · exact Dispatched.refl s
    · rw [ends_bind]
      refine ends_conditionHolds.mono ?_ fun _ h => h
      intro holds t h
      have mem : slot.trigger ∈ s.triggers := List.mem_map_of_mem (List.mem_of_getElem? found)
      split
      · rw [ends_bind, ends_modify]
        have fired : Dispatched s (t.modifySlot index fun slot =>
            { slot with fired := true, fireCount := slot.fireCount + 1 }) := by
          refine h.trans (Session.dispatched_modifySlot index ?_ t)
          exact fun _ => rfl
        refine (ends_execute (fired.triggers ▸ mem)).mono ?_ ?_
        · intro _ u h'
          exact fired.trans h'
        · intro u h'
          exact fired.trans h'
      · split
        · refine h.trans (Session.dispatched_modifySlot index ?_ t)
          exact fun _ => rfl
        · exact h

theorem ends_dispatch : Ends (fun _ t => Dispatched s t) (Dispatched s) e.dispatch s := by
  rw [dispatch]
  rw [ends_bind, ends_get]
  refine ends_forM (Dispatched.refl s) ?_
  intro index _ t h
  refine (ends_check index).mono ?_ ?_
  · intro _ u h'
    exact h.trans h'
  · intro u h'
    exact h.trans h'

theorem ends_prime : Ends (fun _ t => Dispatched s t) (Dispatched s) e.prime s := by
  rw [prime]
  rw [ends_bind, ends_get]
  refine ends_forM (Dispatched.refl s) ?_
  intro index _ t h
  rw [ends_bind, ends_get]
  split
  · exact h
  · split
    · exact h
    · rw [ends_bind]
      refine ends_conditionHolds.mono ?_ fun _ h' => h.trans h'
      intro holds u h'
      refine (h.trans h').trans (Session.dispatched_modifySlot index ?_ u)
      exact fun _ => rfl

theorem ends_disableLooping (index : Nat) :
    Ends (fun _ t => Dispatched s t) (Dispatched s) (e.disableLooping index) s := by
  rw [disableLooping]
  rw [ends_modify]
  simp only
  have dropped {t : Session} (h : Dispatched s t) :
      Dispatched s { t with queue := t.queue.filter (·.origin != some index) } :=
    h.trans ⟨⟨rfl, fun _ h => Or.inl h⟩, rfl, rfl, fun w hw => Or.inl (List.mem_filter.mp hw).1⟩
  split
  · exact dropped (Dispatched.refl s)
  · split
    · exact dropped (Dispatched.refl s)
    · refine dropped ((Session.dispatched_modifySlot index ?_ s).trans (Session.dispatched_report ?_ _))
      · exact fun _ => rfl
      · intro unstable
        simp [Diagnostic.Unstable, Problem.kindName, ConfigCause.kind, ConfigKind.name] at unstable

end Engine

end Questionnaire
