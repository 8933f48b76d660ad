import Questionnaire.Proofs.Session.Triggers

/-!
# Emptying the queue, turn by turn

Emptying the queue is a loop.  Each turn takes the first write from the queue: it is made, or dropped because its
trigger is out of use, or it goes beyond the cap and has its trigger switched off.  `Drains` is this loop without any
bound on its turns, together with the log of them.  The bound that the session computes before it begins is enough,
so the loop always comes to its end: every turn spends one step of a budget, and pays for the writes that it adds.
-/
namespace Questionnaire

open Act
open Session (Quiet Handled Onward Dropped Indexed)

namespace Engine

/-! ## One turn -/

/-- One turn: what becomes of a write taken from the queue, and the count of the writes of triggers after it. -/
def turn (e : Engine) (made : Nat) (w : Write) : Act Nat := do
  match w.origin with
  | none =>
    e.perform w
    return made
  | some index =>
    if isOff (← get) index then return made
    else if e.settings.maxPasses ≤ made then
      e.disableLooping index
      return made + 1
    else
      e.perform w
      return made + 1

theorem drainWithin_of_empty {e : Engine} {s : Session} (empty : s.queue = []) (steps made : Nat) :
    e.drainWithin steps made s = .ok () s := by
  cases steps with
  | zero => rfl
  | succ steps =>
    rw [drainWithin, get_bind, empty]
    rfl

theorem drainWithin_succ {e : Engine} {s : Session} {w : Write} {rest : List Write} (waiting : s.queue = w :: rest)
    (steps made : Nat) :
    e.drainWithin (steps + 1) made s = (e.turn made w >>= e.drainWithin steps) { s with queue := rest } := by
  rw [drainWithin, get_bind, waiting, turn]
  simp only
  rw [set_bind]
  cases w.origin with
  | none => simp only [bind_assoc, pure_bind]
  | some index =>
    have same : isOff { s with queue := rest } index = isOff s index := rfl
    simp only [bind_assoc]
    rw [get_bind, same]
    split
    · rfl
    · split <;> simp only [bind_assoc, pure_bind]

end Engine

/-- A turn: the count of the writes of triggers before it, the write that was taken from the queue, and the session
without it. -/
structure Turn where
  made : Nat
  write : Write
  before : Session

/-- What becomes of a write whose turn has come. -/
inductive Verdict where
  | performed
  | dropped
  | excessive
  deriving DecidableEq

namespace Engine

/-- The verdict on a write: those of the host are made, those of triggers while they are in use and the cap allows. -/
def verdict (e : Engine) (t : Turn) : Verdict :=
  match t.write.origin with
  | none => .performed
  | some index =>
    if isOff t.before index then .dropped
    else if e.settings.maxPasses ≤ t.made then .excessive
    else .performed

section

variable {e : Engine} {t : Turn} {index : Nat}

theorem verdict_of_host (origin : t.write.origin = none) : e.verdict t = .performed := by
  rw [verdict, origin]

theorem verdict_of_room (origin : t.write.origin = some index) (on : isOff t.before index = false)
    (room : t.made < e.settings.maxPasses) : e.verdict t = .performed := by
  simp [verdict, origin, on, Nat.not_le.mpr room]

theorem verdict_of_off (origin : t.write.origin = some index) (off : isOff t.before index = true) :
    e.verdict t = .dropped := by
  simp [verdict, origin, off]

theorem verdict_of_full (origin : t.write.origin = some index) (on : isOff t.before index = false)
    (full : e.settings.maxPasses ≤ t.made) : e.verdict t = .excessive := by
  simp [verdict, origin, on, full]

theorem room_of_performed (origin : t.write.origin = some index) (performed : e.verdict t = .performed) :
    t.made < e.settings.maxPasses := by
  rw [verdict, origin] at performed
  simp only at performed
  split at performed
  · cases performed
  · split at performed
    · cases performed
    · exact Nat.lt_of_not_le ‹_›

/-- A turn with that verdict makes its write. -/
theorem exists_turn_of_performed (performed : e.verdict t = .performed) :
    ∃ made, e.turn t.made t.write t.before = (e.perform t.write >>= fun _ => pure made) t.before := by
  rw [turn]
  cases origin : t.write.origin with
  | none => exact ⟨t.made, rfl⟩
  | some index =>
    have room := room_of_performed origin performed
    have on : isOff t.before index = false := by
      refine Bool.eq_false_iff.mpr fun off => ?_
      cases (verdict_of_off origin off).symm.trans performed
    simp only
    rw [get_bind, on, if_neg Bool.false_ne_true, if_neg (Nat.not_le.mpr room)]
    exact ⟨t.made + 1, rfl⟩

end

/-- The session in which the triggers are checked after a write: the write changed an answer, and what follows from
that is settled. -/
def settledAfter (e : Engine) (w : Write) (s : Session) : Option Session :=
  w.target.key?.bind fun key =>
    (Fields.store? s.answers key w.value).bind fun answers =>
      match e.settle key.text?.toList { s with answers } with
      | .ok _ t => some t
      | .error _ _ => none

/-- The settled session of a turn, if its write is made and changes an answer. -/
def settledIn (e : Engine) (t : Turn) : Option Session :=
  if e.verdict t = .performed then e.settledAfter t.write t.before else none

/-- How a write that ends normally leaves the triggers: nothing happened, or all of them were checked in the settled
session. -/
def Performed (e : Engine) (w : Write) (s t : Session) : Prop :=
  match e.settledAfter w s with
  | none => t = s
  | some u => Quiet s u ∧ Handled u.slots.length (fun _ a => a.edge (e.holds u a)) u t

variable {e : Engine} {s t : Session} {w : Write}

/-- A turn that settles stores its value under its target and settles what reads it. -/
theorem settle_of_settledIn {turn : Turn} (settled : e.settledIn turn = some t) :
    ∃ key answers, turn.write.target.key? = some key ∧
      Fields.store? turn.before.answers key turn.write.value = some answers ∧
      e.settle key.text?.toList { turn.before with answers } = .ok ⟨⟩ t := by
  unfold settledIn at settled
  split at settled
  case isFalse => cases settled
  case isTrue =>
    obtain ⟨key, target, settled⟩ := Option.bind_eq_some_iff.mp settled
    obtain ⟨answers, stored, settled⟩ := Option.bind_eq_some_iff.mp settled
    refine ⟨key, answers, target, stored, ?_⟩
    split at settled
    · rename_i ended
      rw [ended, Option.some.inj settled]
    · cases settled

theorem Performed.onward (h : e.Performed w s t) : Onward s t := by
  unfold Performed at h
  split at h
  · exact h ▸ .refl s
  · exact h.1.onward.trans (h.2.onward (fun _ a => Slot.later_edge _ a) fun _ a => Slot.disabled_edge _ a)

theorem ends_perform_performed : Ends (fun _ t => e.Performed w s t) (Onward s) (e.perform w) s := by
  rw [perform]
  cases key : w.target.key? with
  | none => exact .refl s
  | some key' =>
    simp only
    rw [ends_bind, ends_store]
    cases stored : Fields.store? s.answers key' w.value with
    | none =>
      have kept : s.answers.put key' w.value = s.answers := by rw [Fields.put, stored, Option.getD_none]
      simp only [Option.isSome_none, Bool.false_eq_true, if_false, ends_pure, kept]
      rw [Performed, settledAfter, key, Option.bind_some, stored]
      rfl
    | some answers =>
      have put : s.answers.put key' w.value = answers := by rw [Fields.put, stored, Option.getD_some]
      simp only [Option.isSome_some, if_true, put]
      rw [ends_bind]
      have begun : Quiet s { s with answers } := ⟨rfl, rfl, rfl, rfl, rfl⟩
      have settled := quiet_settle (e := e) key'.text?.toList { s with answers } begun
      unfold Ends at settled ⊢
      cases run : e.settle key'.text?.toList { s with answers } with
      | error f t =>
        rw [run] at settled
        exact settled.onward
      | ok _ u =>
        rw [run] at settled
        have after : e.settledAfter w s = some u := by
          rw [settledAfter, key, Option.bind_some, stored, Option.bind_some, run]
        refine ends_dispatch_handled.mono ?_ fun _ h => settled.onward.trans h
        intro _ t h
        rw [Performed, after]
        exact ⟨settled, h⟩

/-- How a turn that ends normally leaves the session. -/
inductive Took (e : Engine) (t : Turn) : Nat → Session → Prop
  | host {u : Session} : t.write.origin = none → e.Performed t.write t.before u → Took e t t.made u
  | trigger {index : Nat} {u : Session} : t.write.origin = some index → isOff t.before index = false →
      t.made < e.settings.maxPasses → e.Performed t.write t.before u → Took e t (t.made + 1) u
  | dropped {index : Nat} : t.write.origin = some index → isOff t.before index = true → Took e t t.made t.before
  | excessive {index : Nat} {u : Session} : t.write.origin = some index → isOff t.before index = false →
      e.settings.maxPasses ≤ t.made → Dropped index t.before u → Took e t (t.made + 1) u

theorem Took.onward {turn : Turn} {made : Nat} (h : e.Took turn made t) : Onward turn.before t := by
  cases h with
  | host _ performed | trigger _ _ _ performed => exact performed.onward
  | dropped => exact .refl _
  | excessive _ _ _ dropped => exact dropped.onward

/-- A turn ends by a fault only while its write is made. -/
theorem ends_turn_took (indexed : s.Indexed) (made : Nat) (w : Write) :
    Ends (fun made' t => e.Took ⟨made, w, s⟩ made' t)
      (fun t => Onward s t ∧ e.verdict ⟨made, w, s⟩ = .performed) (e.turn made w) s := by
  rw [turn]
  cases origin : w.origin with
  | none =>
    simp only
    rw [ends_bind]
    exact ends_perform_performed.mono (fun _ _ h => .host origin h) fun _ h => ⟨h, verdict_of_host origin⟩
  | some index =>
    simp only
    rw [ends_bind, ends_get]
    split
    · rename_i off
      exact .dropped origin off
    · rename_i on
      have on : isOff s index = false := by simpa using on
      split
      · rename_i full
        rw [ends_bind]
        exact (ends_disableLooping_dropped indexed index _).mono (fun _ _ h => .excessive origin on full h) fun _ h => h
      · rename_i room
        have room := Nat.lt_of_not_le room
        rw [ends_bind]
        refine ends_perform_performed.mono (fun _ _ h => .trigger origin on room h) fun _ h => ?_
        exact ⟨h, verdict_of_room origin on room⟩

section

variable {made made' : Nat} {rest : List Write} (indexed : s.Indexed)
include indexed

/-- What the turn of the first write that waits comes to, if it ends normally. -/
theorem took_of_turn (run : e.turn made w { s with queue := rest } = .ok made' t) :
    e.Took ⟨made, w, { s with queue := rest }⟩ made' t ∧ Onward s t := by
  have indexed' : Indexed { s with queue := rest } := indexed
  have taken : Onward s { s with queue := rest } := .of_slots rfl rfl
  have took := (ends_turn_took indexed' made w).of_ok run
  exact ⟨took, taken.trans took.onward⟩

/-- A turn that ends by a fault is one that makes its write. -/
theorem performed_of_turn {f : Fault} (run : e.turn made w { s with queue := rest } = .error f t) :
    e.verdict ⟨made, w, { s with queue := rest }⟩ = .performed ∧ Onward s t := by
  have indexed' : Indexed { s with queue := rest } := indexed
  have taken : Onward s { s with queue := rest } := .of_slots rfl rfl
  obtain ⟨onward, performed⟩ := (ends_turn_took (e := e) indexed' made w).of_error run
  exact ⟨performed, taken.trans onward⟩

end

/-! ## The loop -/

/-- Emptying the queue as a loop without bound, with its log and its end. -/
inductive Drains (e : Engine) : Nat → Session → List Turn → EStateM.Result Fault Session PUnit → Prop
  | done {made : Nat} {s : Session} : s.queue = [] → Drains e made s [] (.ok ⟨⟩ s)
  | fails {made : Nat} {s t : Session} {w : Write} {rest : List Write} {f : Fault} :
      s.queue = w :: rest → e.turn made w { s with queue := rest } = .error f t →
      Drains e made s [⟨made, w, { s with queue := rest }⟩] (.error f t)
  | goes {made made' : Nat} {s t : Session} {w : Write} {rest : List Write} {log : List Turn}
      {result : EStateM.Result Fault Session PUnit} :
      s.queue = w :: rest → e.turn made w { s with queue := rest } = .ok made' t → Drains e made' t log result →
      Drains e made s (⟨made, w, { s with queue := rest }⟩ :: log) result

/-- There is one log. -/
theorem Drains.unique {made : Nat} {log log' : List Turn} {result result' : EStateM.Result Fault Session PUnit}
    (h : e.Drains made s log result) (h' : e.Drains made s log' result') : log = log' ∧ result = result' := by
  induction h generalizing log' result' with
  | done empty =>
    cases h' with
    | done => exact ⟨rfl, rfl⟩
    | fails waiting | goes waiting => cases empty.symm.trans waiting
  | fails waiting failed =>
    cases h' with
    | done empty => cases empty.symm.trans waiting
    | fails waiting' failed' =>
      cases waiting.symm.trans waiting'
      cases failed.symm.trans failed'
      exact ⟨rfl, rfl⟩
    | goes waiting' ended =>
      cases waiting.symm.trans waiting'
      cases failed.symm.trans ended
  | goes waiting ended _ ih =>
    cases h' with
    | done empty => cases empty.symm.trans waiting
    | fails waiting' failed =>
      cases waiting.symm.trans waiting'
      cases failed.symm.trans ended
    | goes waiting' ended' rest =>
      cases waiting.symm.trans waiting'
      cases ended.symm.trans ended'
      obtain ⟨rfl, same⟩ := ih rest
      exact ⟨rfl, same⟩

/-- The steps that are left: one for each write that waits, and for each write that may still be made one for every
trigger. -/
def budget (e : Engine) (made : Nat) (s : Session) : Nat :=
  s.queue.length + (s.queue.countP (·.origin.isNone) + (e.settings.maxPasses - made)) * s.slots.length

theorem drainSteps_eq_budget (s : Session) : e.drainSteps s = e.budget 0 s := rfl

/-- A write that is made adds at most one write of every trigger. -/
theorem Performed.queue (h : e.Performed w s t) :
    ∃ more, t.queue = s.queue ++ more ∧ more.length ≤ s.slots.length ∧ ∀ w ∈ more, w.origin.isSome = true := by
  unfold Performed at h
  split at h
  · exact ⟨[], by rw [h, List.append_nil], Nat.zero_le _, by simp⟩
  · obtain ⟨more, queue, few, triggers⟩ := h.2.queue
    exact ⟨more, by rw [queue, h.1.queue], by rwa [h.1.slots] at few, triggers⟩

/-- A write that is made adds no write of the host. -/
theorem Performed.hosts (h : e.Performed w s t) :
    t.queue.countP (·.origin.isNone) = s.queue.countP (·.origin.isNone) := by
  obtain ⟨more, queue, -, triggers⟩ := h.queue
  rw [queue, List.countP_append, Nat.add_eq_left, List.countP_eq_zero]
  intro w mem
  rw [Option.isNone_iff_eq_none]
  intro host
  simpa [host] using triggers w mem

theorem budget_of_performed (left : Nat) (h : e.Performed w s t) :
    t.queue.length + (t.queue.countP (·.origin.isNone) + left) * t.slots.length ≤
      s.queue.length + (s.queue.countP (·.origin.isNone) + (left + 1)) * s.slots.length := by
  obtain ⟨more, queue, few, -⟩ := h.queue
  rw [h.hosts, queue, List.length_append, h.onward.length, ← Nat.add_assoc _ left 1, Nat.succ_mul]
  omega

/-- A turn spends one step of the budget at least. -/
theorem Took.budget_lt {made made' : Nat} {rest : List Write} (waiting : s.queue = w :: rest)
    (h : e.Took ⟨made, w, { s with queue := rest }⟩ made' t) : e.budget made' t < e.budget made s := by
  have before : e.budget made s = rest.length + 1 + (rest.countP (·.origin.isNone) +
      (if w.origin.isNone then 1 else 0) + (e.settings.maxPasses - made)) * s.slots.length := by
    rw [budget, waiting, List.length_cons, List.countP_cons]
  rw [before, budget]
  cases h with
  | host origin performed =>
    have paid := budget_of_performed (e.settings.maxPasses - made) performed
    rw [origin]
    simp only at paid
    simp only [Option.isNone_none, if_true, Nat.add_assoc, Nat.add_comm 1] at paid ⊢
    omega
  | trigger origin _ room performed =>
    have paid := budget_of_performed (e.settings.maxPasses - (made + 1)) performed
    have left : e.settings.maxPasses - (made + 1) + 1 = e.settings.maxPasses - made := by
      simp only at room
      omega
    rw [origin]
    simp only [left] at paid
    simp only [Option.isNone_some, Bool.false_eq_true, if_false, Nat.add_zero]
    omega
  | dropped origin _ =>
    rw [origin]
    simp only [Option.isNone_some, Bool.false_eq_true, if_false, Nat.add_zero]
    omega
  | excessive origin _ full dropped =>
    have none : e.settings.maxPasses - made = 0 := Nat.sub_eq_zero_of_le full
    have none' : e.settings.maxPasses - (made + 1) = 0 := Nat.sub_eq_zero_of_le (Nat.le_succ_of_le full)
    have fewer : t.queue.Sublist rest := dropped.queue ▸ List.filter_sublist
    have hosts := Nat.mul_le_mul_right s.slots.length (fewer.countP_le (p := (·.origin.isNone)))
    have length := fewer.length_le
    rw [origin, none, none', dropped.onward.length]
    simp only [Option.isNone_some, Bool.false_eq_true, if_false, Nat.add_zero]
    omega

theorem exists_drains (indexed : s.Indexed) (made : Nat) {steps : Nat} (enough : e.budget made s ≤ steps) :
    ∃ log, e.Drains made s log (e.drainWithin steps made s) := by
  induction steps generalizing made s with
  | zero =>
    have empty : s.queue = [] := List.eq_nil_of_length_eq_zero (by rw [budget] at enough; omega)
    exact ⟨[], by rw [drainWithin_of_empty empty]; exact .done empty⟩
  | succ steps ih =>
    cases waiting : s.queue with
    | nil => exact ⟨[], by rw [drainWithin_of_empty waiting]; exact .done waiting⟩
    | cons w rest =>
      rw [drainWithin_succ waiting]
      cases run : e.turn made w { s with queue := rest } with
      | error f t =>
        refine ⟨[⟨made, w, { s with queue := rest }⟩], ?_⟩
        rw [bind_eq_of_error run]
        exact .fails waiting run
      | ok made' t =>
        obtain ⟨took, onward⟩ := took_of_turn indexed run
        have less := took.budget_lt waiting
        obtain ⟨log, drains⟩ := ih (indexed.onward onward) made' (by omega)
        refine ⟨⟨made, w, { s with queue := rest }⟩ :: log, ?_⟩
        rw [bind_eq_of_ok run]
        exact .goes waiting run drains

/-- The steps that are computed beforehand empty the queue. -/
theorem exists_drains_drain (indexed : s.Indexed) : ∃ log, e.Drains 0 s log (e.drain s) :=
  exists_drains indexed 0 (Nat.le_of_eq (drainSteps_eq_budget s).symm)

end Engine

/-! ## The rest of a session -/

namespace Engine

variable {e : Engine} {s t : Session}

/-- One thing that happens in a session: the host asks for a write, a waiting write has its turn, or something changes
apart from answers, triggers and the queue.  A turn may also end by a fault. -/
inductive Happens (e : Engine) : Session → Session → Prop
  | asked {s : Session} (target value : Value) : Happens e s (s.ask target value)
  | turned {s : Session} {w : Write} {rest : List Write} (made : Nat) : s.queue = w :: rest →
      Happens e s (Act.after (e.turn made w) { s with queue := rest })
  | aside {s : Session} (listeners : List Listener) (navigator : Option Navigator)
      (notified : List (String × List Key)) : Happens e s { s with listeners, navigator, notified }

/-- A later moment of a session. -/
abbrev Leads (e : Engine) : Session → Session → Prop := Relation.ReflTransGen e.Happens

theorem Happens.onward (indexed : s.Indexed) (h : e.Happens s t) : Onward s t := by
  cases h with
  | asked | aside => exact .of_slots rfl rfl
  | @turned w rest made waiting =>
    rw [Act.after]
    cases run : e.turn made w { s with queue := rest } with
    | ok made' t => exact (took_of_turn indexed run).2
    | error f t => exact (performed_of_turn indexed run).2

theorem Leads.onward (indexed : s.Indexed) (h : e.Leads s t) : Onward s t := by
  induction h with
  | refl => exact .refl s
  | tail _ next ih => exact ih.trans (next.onward (indexed.onward ih))

theorem leads_drainWithin (steps made : Nat) {s₀ s : Session} (h : e.Leads s₀ s) :
    Ends (fun _ => e.Leads s₀) (e.Leads s₀) (e.drainWithin steps made) s := by
  induction steps generalizing made s with
  | zero => exact h
  | succ steps ih =>
    cases waiting : s.queue with
    | nil =>
      rw [Ends, drainWithin_of_empty waiting]
      exact h
    | cons w rest =>
      have next := h.tail (.turned made waiting)
      rw [Ends, drainWithin_succ waiting, ← Ends, ends_bind]
      unfold Act.after at next
      unfold Ends
      cases run : e.turn made w { s with queue := rest } with
      | error f t =>
        rw [run] at next
        exact next
      | ok made' t =>
        rw [run] at next
        exact ih made' next

/-- A write that ends normally empties the queue before listeners are told. -/
theorem exists_drain_of_write {target v : Value} (run : e.write target v s = .ok ⟨⟩ t) :
    ∃ u, e.drain (s.ask target v) = .ok ⟨⟩ u := by
  rw [write, writeWithin_succ] at run
  cases drained : e.drain (s.ask target v) with
  | error f u =>
    rw [bind_eq_of_error drained] at run
    cases run
  | ok _ u => exact ⟨u, rfl⟩

/-- Nobody subscribes or is told of anything while the queue is emptied. -/
theorem ends_drain_untold {bindings : List Binding} (compiled : e.Compiled bindings) (s : Session) :
    Ends (fun _ t => t.listeners = s.listeners ∧ t.notified = s.notified) (fun _ => True) e.drain s := by
  let untold (t : Session) : Prop := t.listeners = s.listeners ∧ t.notified = s.notified
  have fires : Fires e (fun _ => True) untold fun _ => True :=
    { fault := fun _ => trivial
      slots := fun _ _ _ => trivial
      report := fun h _ => h
      noted := fun h _ _ _ => h
      act := fun h _ _ _ _ => h
      wait := fun h _ _ _ _ => h
      drop := fun h _ _ => h }
  rw [drain, ends_bind, ends_get]
  refine fires.drainWithin compiled (fun t u h applied => ?_) (fun _ => True) (fun _ _ _ _ => trivial)
    (fun _ _ _ _ _ h => h) _ 0 s ⟨rfl, rfl⟩
  have rest := congrArg Session.notified applied.recomputed.rest
  exact ⟨applied.recomputed.listeners.trans h.1, rest.trans h.2⟩

/-- When nothing waits, the write that is asked for comes first, and then what it brings about. -/
theorem drain_ask_of_idle (idle : s.queue = []) (target v : Value) :
    e.drain (s.ask target v) =
      (e.perform ⟨target, v, none⟩ >>= fun _ => e.drainWithin ((1 + e.settings.maxPasses) * s.slots.length) 0) s := by
  have waiting : (s.ask target v).queue = [⟨target, v, none⟩] := by simp [Session.ask, idle]
  have steps : e.drainSteps (s.ask target v) = (1 + e.settings.maxPasses) * s.slots.length + 1 := by
    rw [drainSteps, waiting, Nat.add_comm]
    rfl
  have back : { s.ask target v with queue := [] } = s := by rw [Session.ask, ← idle]
  rw [drain, get_bind, steps, drainWithin_succ waiting, back, turn]
  simp only [bind_assoc, pure_bind]

theorem leads_drain {s₀ s : Session} (h : e.Leads s₀ s) : Ends (fun _ => e.Leads s₀) (e.Leads s₀) e.drain s := by
  rw [drain, ends_bind, ends_get]
  exact leads_drainWithin _ 0 h

theorem serves_leads (s₀ : Session) : e.Serves (fun _ => True) (e.Leads s₀) (e.Leads s₀) where
  fault h := h
  drain h target _ v := leads_drain (h.tail (.asked target v))
  told {s} h _ _ := h.tail (.aside s.listeners s.navigator _)
  cancelled {s} h _ := h.tail (.aside _ s.navigator s.notified)
  heard _ _ _ _ _ := trivial

/-- Whatever the host writes, the session that it leaves is a later moment of the session, also after a fault. -/
theorem leads_write (target v : Value) (s : Session) : e.Leads s (Act.after (e.write target v) s) :=
  Ends.after ((serves_leads s).writeWithin _ trivial v s .refl)

end Engine

end Questionnaire
