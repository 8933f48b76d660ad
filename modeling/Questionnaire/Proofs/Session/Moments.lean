import Questionnaire.Proofs.Session.Turns
import Questionnaire.Proofs.Survey.Containment

/-!
# What holds at every moment of a session

The moments of a session are those that its start leads to: between writes, between the turns of the queue, and after
turns that end by a fault.  Whatever storing with settling keeps, however it ends, and what looks at answers, flags and
bindings alone, holds at all of them if it holds at the start.  So at every moment all bindings are in use, pages and
questions have flags and nothing else has, no undefined value is kept as an answer, and the triggers are those of the
survey.
-/
namespace Questionnaire

open Act
open Session (FlagsKept Onward)

/-- At a later moment the triggers are the same. -/
theorem Session.Onward.triggers {s t : Session} (onward : Onward s t) : t.triggers = s.triggers := by
  refine List.ext_getElem? fun i => ?_
  simp only [Session.triggers, List.getElem?_map]
  cases found : s.slots[i]? with
  | none => rw [List.getElem?_eq_none (onward.length ▸ List.getElem?_eq_none_iff.mp found)]
  | some a =>
    obtain ⟨b, found', later⟩ := onward.exists_slot found
    rw [found', later.same]
    rfl

/-- A session starts with one trigger for each of the survey. -/
theorem Slot.map_trigger {triggers : List Trigger} {slots : List (Slot × List Diagnostic)}
    (each : (triggers.mapIdx ofTrigger).mapM id = .ok slots) : slots.map (·.1.trigger) = triggers := by
  have pairs := Outcome.forall₂_of_mapM each
  have length := pairs.length_eq
  rw [List.length_mapIdx] at length
  refine List.ext_getElem (by rw [List.length_map, length]) fun i bound bound' => ?_
  have ok := pairs.get (i := i) (by rwa [List.length_mapIdx]) (length ▸ bound')
  simp only [List.get_eq_getElem, List.getElem_mapIdx] at ok
  rw [List.getElem_map]
  exact (reads_of_ofTrigger ok).trigger

namespace Engine

variable {e : Engine} {s t : Session}

section

variable {bindings : List Binding} (compiled : e.Compiled bindings)
include compiled

/-- A turn makes a write or switches a trigger off, and keeps what both of these keep. -/
theorem ends_turn {outside : Value → Prop} {I F : Session → Prop} (keeps : e.Keeps outside I F) (made : Nat)
    {w : Write} (hs : I s) (allows : s.Allows outside) (hw : outside w.target) :
    Ends (fun _ t => I t ∧ t.Allows outside) F (e.turn made w) s := by
  have performed (made : Nat) : Ends (fun _ t => I t ∧ t.Allows outside) F (e.perform w >>= fun _ => pure made) s := by
    rw [ends_bind]
    exact ends_perform compiled keeps hs allows hw
  rw [turn]
  split
  · exact performed made
  · rw [ends_bind, ends_get]
    split
    · exact ⟨hs, allows⟩
    · split
      · rw [ends_bind]
        refine (ends_disableLooping _).mono ?_ fun _ h => keeps.fault (keeps.aside hs h.aside)
        exact fun _ _ h => ⟨keeps.aside hs h.aside, allows.of_dispatched h⟩
      · exact performed (made + 1)

theorem Keeps.leads {I : Session → Prop} (keeps : e.Keeps (fun _ => True) I I) (hs : I s) (moment : e.Leads s t) :
    I t := by
  induction moment with
  | refl => exact hs
  | tail _ next ih =>
    cases next with
    | asked | aside => exact keeps.aside ih ⟨rfl, fun _ h => Or.inl h⟩
    | @turned w rest made waiting =>
      rename_i u _
      have taken : I { u with queue := rest } := keeps.aside ih ⟨rfl, fun _ h => Or.inl h⟩
      have anywhere : Session.Allows { u with queue := rest } fun _ => True :=
        ⟨fun _ _ => trivial, fun _ _ => trivial, fun _ _ _ _ => trivial⟩
      refine Ends.after ((ends_turn compiled keeps made taken anywhere trivial).mono ?_ fun _ h => h)
      exact fun _ _ h => h.1

end

/-- All bindings are in use, flags are the initial ones but for what bindings set, and no undefined value is kept as an
answer. -/
structure Lasting (survey : Survey) (e : Engine) (s : Session) : Prop where
  active : s.disabled = []
  flags : FlagsKept e.dependencies.accepted (initialFlags survey) s.flags
  defined : s.answers.AllDefined

theorem keeps_lasting {bindings : List Binding} (compiled : e.Compiled bindings) (survey : Survey) :
    e.Keeps (fun _ => True) (Lasting survey e) (Lasting survey e) where
  fault h := h
  aside h aside := ⟨aside.disabled.trans h.active, aside.flags ▸ h.flags, aside.answers ▸ h.defined⟩
  settle {s target key} h _ _ v := by
    have lasting {t : Session}
        (applied : Session.Applied e.dependencies.accepted { s with answers := s.answers.put key v } t) :
        Lasting survey e t :=
      ⟨applied.recomputed.disabled.trans h.active, h.flags.trans applied.flags, applied.defined (h.defined.put key v)⟩
    exact (ends_settle compiled key.text?.toList _).mono (fun _ _ => lasting) fun _ => lasting

/-- Pages and questions have flags, and nothing else has. -/
theorem Lasting.isSome_find?_flags {survey : Survey} (lasting : Lasting survey e s) {name : String} :
    (s.flags.find? name).isSome = true ↔ name ∈ survey.names := by
  have same := congrArg Option.isSome (lasting.flags.always name)
  rw [Option.isSome_map, Option.isSome_map, initialFlags_eq] at same
  rw [same, Table.isSome_find?_foldl_set (fun c : String × Flags => c.1) (·.2), Survey.map_fresh]
  simp

section

variable {survey : Survey} {settings : Settings} {given : Fields} {navigator : Bool} {s₀ : Session}
variable (begun : start survey settings given navigator = .ok (e, s₀)) (moment : e.Leads s₀ s)
include begun moment

theorem indexed_of_leads : s.Indexed :=
  have fresh := (primed_of_start begun).1
  fresh.indexed.onward (moment.onward fresh.indexed)

theorem lasting_of_leads : Lasting survey e s := by
  obtain ⟨bindings, problems, bound, rfl, started⟩ := started_of_start begun
  have compiled := compiled_ofBindings bound settings
  exact (keeps_lasting compiled survey).leads compiled ⟨started.active, started.flags, started.defined⟩ moment

/-- At every moment the triggers are those of the survey, in order. -/
theorem triggers_of_leads : s.triggers = survey.triggers := by
  have fresh := (primed_of_start begun).1
  rw [(moment.onward fresh.indexed).triggers]
  obtain ⟨bindings, problems, slots, bound, each, rfl, ended⟩ := start_ok begun
  obtain ⟨u, applied, primed, -⟩ := (ends_applyAll (compiled_ofBindings bound settings) rfl).of_ok ended
  rw [primed.triggers, Session.triggers, applied.recomputed.slots, opening, List.map_map]
  exact Slot.map_trigger each

end

end Engine

end Questionnaire
