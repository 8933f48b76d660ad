import Questionnaire.Proofs.Session.Dispatch
import Questionnaire.Proofs.Session.Settling
import Questionnaire.Proofs.Session.Steps

/-!
# Runs

A run starts a session and goes on with writes of the host.  A write empties the queue, and each write taken from it
is stored, settled and followed by a check of the triggers; then the listeners are served, which may write in turn.
A property that storing with settling keeps, and that does not look at the rest, is therefore kept by every write, and
by every run whose start has it.
-/
namespace Questionnaire

open Act
open Session (Aside Dispatched Recomputed)

/-! ## Where writes go -/

/-- The writes that do not come from bindings have some targets alone: those that wait, those of triggers, and those
of listeners. -/
structure Session.Allows (s : Session) (outside : Value → Prop) : Prop where
  queue : ∀ w ∈ s.queue, outside w.target
  triggers : ∀ trigger ∈ s.triggers, outside trigger.setToName
  listeners : ∀ listener ∈ s.listeners, ∀ w ∈ listener.writes, outside w.1

namespace Session.Allows

variable {s t : Session} {outside : Value → Prop}

theorem of_recomputed (allows : s.Allows outside) (h : Recomputed s t) : t.Allows outside where
  queue := by rw [h.queue]; exact allows.queue
  triggers := by rw [Session.triggers, h.slots]; exact allows.triggers
  listeners := by rw [h.listeners]; exact allows.listeners

theorem of_dispatched (allows : s.Allows outside) (h : Dispatched s t) : t.Allows outside where
  queue w hw := by
    rcases h.queue w hw with old | ⟨trigger, mem, same⟩
    · exact allows.queue w old
    · exact same ▸ allows.triggers trigger mem
  triggers := by rw [h.triggers]; exact allows.triggers
  listeners := by rw [h.listeners]; exact allows.listeners

end Session.Allows

namespace Engine

section

variable {e : Engine} {bindings : List Binding} (compiled : e.Compiled bindings)
variable {known : Slot → Prop} {I F : Session → Prop} (fires : Fires e known I F)
variable (applied : ∀ s t, I s → Session.Applied e.dependencies.accepted s t → I t)
include compiled fires applied

/-- Once the value of a write is stored, making the write keeps what applying bindings and checking triggers keep. -/
theorem Fires.perform_stored {w : Write} {s : Session} {key : Key} (found : w.target.key? = some key)
    (stored : I { s with answers := s.answers.put key w.value }) : Ends (fun _ => I) F (e.perform w) s := by
  rw [perform, found]
  simp only
  rw [ends_bind, ends_store]
  split
  · rw [ends_bind]
    refine (ends_settle compiled _ _).mono (fun _ t h => ?_) fun t h => fires.fault (applied _ t stored h)
    exact fires.dispatch t (applied _ t stored h)
  · exact stored

/-- Emptying the queue keeps what storing the values that wait, applying bindings and checking triggers keep. -/
theorem Fires.drainWithin (waits : Write → Prop) (waiting : ∀ s, I s → ∀ w ∈ s.queue, waits w)
    (store : ∀ w, waits w → ∀ key, w.target.key? = some key → ∀ s, I s →
      I { s with answers := s.answers.put key w.value }) (steps made : Nat) :
    Guards I F (e.drainWithin steps made) := by
  have perform (w : Write) (hw : waits w) : Guards I F (e.perform w) := by
    intro s hs
    cases found : w.target.key? with
    | none =>
      rw [perform, found]
      exact fires.fault hs
    | some key => exact fires.perform_stored compiled applied found (store w hw key found s hs)
  refine guards_drainWithin waits waiting (fun s w rest hs first => ?_) perform fires.disableLooping steps made
  exact fires.drop hs rest (first ▸ List.subset_cons_self w rest)

end

/-- A property of sessions that is kept by storing an answer under an outside target and settling it, and by all that
leaves answers, flags and bindings alone; a fault on the way leaves a weaker one. -/
structure Keeps (e : Engine) (outside : Value → Prop) (I F : Session → Prop) : Prop where
  fault : ∀ {s}, I s → F s
  aside : ∀ {s t}, I s → Aside s t → I t
  settle : ∀ {s target key}, I s → outside target → target.key? = some key → ∀ v,
    Ends (fun _ => I) F (e.settle key.text?.toList) { s with answers := s.answers.put key v }

section

variable {e : Engine} {bindings : List Binding} (compiled : e.Compiled bindings)
variable {outside : Value → Prop} {I F : Session → Prop} (keeps : e.Keeps outside I F)
include compiled keeps

theorem ends_perform {s : Session} {w : Write} (hs : I s) (allows : s.Allows outside) (hw : outside w.target) :
    Ends (fun _ t => I t ∧ t.Allows outside) F (e.perform w) s := by
  rw [perform]
  split
  · exact keeps.fault hs
  · rename_i key hkey
    rw [ends_bind, ends_store]
    split
    · rw [ends_bind]
      have settled := (keeps.settle hs hw hkey w.value).and (ends_settle compiled key.text?.toList
        { s with answers := s.answers.put key w.value })
      refine settled.mono ?_ fun _ h => h.1
      intro _ t h
      have stored : Session.Allows { s with answers := s.answers.put key w.value } outside :=
        ⟨allows.queue, allows.triggers, allows.listeners⟩
      have allows' := stored.of_recomputed h.2.recomputed
      refine ends_dispatch.mono ?_ ?_
      · intro _ u h'
        exact ⟨keeps.aside h.1 h'.aside, allows'.of_dispatched h'⟩
      · intro u h'
        exact keeps.fault (keeps.aside h.1 h'.aside)
    · rename_i same
      have kept : s.answers.put key w.value = s.answers := by
        rw [Fields.put, Option.not_isSome_iff_eq_none.mp same, Option.getD_none]
      rw [kept]
      exact ⟨hs, allows⟩

theorem guards_drainWithin_allowed (steps made : Nat) :
    Guards (fun t => I t ∧ t.Allows outside) F (e.drainWithin steps made) := by
  refine guards_drainWithin (fun w => outside w.target) (fun _ h => h.2.queue) ?_ ?_ ?_ steps made
  · intro s w rest h waiting
    exact ⟨keeps.aside h.1 ⟨rfl, fun _ h => Or.inl h⟩,
      fun w' hw' => h.2.queue w' (waiting ▸ List.mem_cons_of_mem _ hw'), h.2.triggers, h.2.listeners⟩
  · intro w hw s h
    exact ends_perform compiled keeps h.1 h.2 hw
  · intro index s h
    refine (ends_disableLooping index).mono ?_ fun t h' => keeps.fault (keeps.aside h.1 h'.aside)
    intro _ t h'
    exact ⟨keeps.aside h.1 h'.aside, h.2.of_dispatched h'⟩

theorem ends_drain {s : Session} (hs : I s) (allows : s.Allows outside) :
    Ends (fun _ t => I t ∧ t.Allows outside) F e.drain s := by
  rw [drain, ends_bind, ends_get]
  exact guards_drainWithin_allowed compiled keeps _ 0 s ⟨hs, allows⟩

theorem serves_allowed : e.Serves outside (fun t => I t ∧ t.Allows outside) F where
  fault h := keeps.fault h.1
  drain {s} h target allowed v := by
    have queued : (s.ask target v).Allows outside := by
      refine ⟨?_, h.2.triggers, h.2.listeners⟩
      intro w hw
      rcases List.mem_append.mp hw with old | new
      · exact h.2.queue w old
      · exact List.mem_singleton.mp new ▸ allowed
    exact ends_drain compiled keeps (keeps.aside h.1 ⟨rfl, fun _ h => Or.inl h⟩) queued
  told h _ _ := ⟨keeps.aside h.1 ⟨rfl, fun _ h => Or.inl h⟩, h.2.queue, h.2.triggers, h.2.listeners⟩
  cancelled h _ := by
    refine ⟨keeps.aside h.1 ⟨rfl, fun _ h => Or.inl h⟩, h.2.queue, h.2.triggers, ?_⟩
    exact fun l mem => h.2.listeners l (List.mem_of_mem_eraseP mem)
  heard h l mem w writes := h.2.listeners l mem w writes

/-- A write of the host keeps the property, with all that listeners write in turn. -/
theorem ends_writeWithin {depth : Nat} {target v : Value} {s : Session} (hs : I s) (allows : s.Allows outside)
    (allowed : outside target) :
    Ends (fun _ t => I t ∧ t.Allows outside) F (e.writeWithin depth target v) s :=
  (serves_allowed compiled keeps).writeWithin depth allowed v s ⟨hs, allows⟩

end

/-! ## Runs of the host -/

/-- Starts a session and makes writes of the host in it, as long as they end normally. -/
def play (survey : Survey) (settings : Settings) (given : Fields) (navigator : Bool)
    (writes : List (Value × Value)) : Except Fault (Engine × Session) := do
  let (e, s) ← start survey settings given navigator
  match (writes.forM fun w => e.write w.1 w.2) s with
  | .ok _ t => return (e, t)
  | .error f _ => throw f

/-- The session after some writes of the host, each of which may end by a fault. -/
def follow (e : Engine) (writes : List (Value × Value)) (s : Session) : Session :=
  writes.foldl (fun s w => Act.after (e.write w.1 w.2) s) s

section

variable {e : Engine} {bindings : List Binding} (compiled : e.Compiled bindings)
variable {outside : Value → Prop} {I F : Session → Prop} (keeps : e.Keeps outside I F)
include compiled keeps

theorem ends_writes {writes : List (Value × Value)} {s : Session} (hs : I s) (allows : s.Allows outside)
    (allowed : ∀ w ∈ writes, outside w.1) :
    Ends (fun _ t => I t ∧ t.Allows outside) F (writes.forM fun w => e.write w.1 w.2) s := by
  refine ends_forM (I := fun t => I t ∧ t.Allows outside) ⟨hs, allows⟩ ?_
  intro w hw t ht
  exact ends_writeWithin compiled keeps ht.1 ht.2 (allowed w hw)

end

/-- What each write keeps, a fault included, is kept by all of them. -/
theorem follow_preserves {e : Engine} {I : Session → Prop} {writes : List (Value × Value)}
    (write : ∀ w ∈ writes, Preserves I (e.write w.1 w.2)) {s : Session} (hs : I s) : I (e.follow writes s) := by
  induction writes generalizing s with
  | nil => exact hs
  | cons w rest ih =>
    obtain ⟨first, later⟩ := List.forall_mem_cons.mp write
    exact ih later (first s hs).after

/-- A property that needs no normal end holds all along a run, if the writes may go anywhere. -/
theorem follow_keeps {e : Engine} {bindings : List Binding} (compiled : e.Compiled bindings) {I : Session → Prop}
    (keeps : e.Keeps (fun _ => True) I I) (writes : List (Value × Value)) {s : Session} (hs : I s) :
    I (e.follow writes s) := by
  refine follow_preserves (fun w _ => ?_) hs
  intro t ht
  have anywhere : t.Allows fun _ => True := ⟨fun _ _ => trivial, fun _ _ => trivial, fun _ _ _ _ => trivial⟩
  refine (ends_writeWithin compiled keeps ht anywhere trivial).mono ?_ fun _ h => h
  intro _ u h
  exact h.1

end Engine

end Questionnaire
