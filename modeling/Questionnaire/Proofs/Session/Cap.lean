import Questionnaire.Proofs.Session.Edges

/-!
# The cap on trigger writes

Every write of the host empties the queue in the end, and on the way makes at most as many writes of triggers as the
cap allows.  A trigger whose write goes beyond the cap is switched off and reported, once in the whole session.  From
then on nothing about it changes, and what it wrote before is dropped when its turn comes.

What must not happen twice is counted by an invariant: a trigger in use was never reported, a disabled one at most
once.
-/
namespace Questionnaire

open Act
open Session (Quiet Handled Onward Dropped Indexed)

namespace Session

/-- Triggers are numbered by their places; one in use was never reported for writing too often, a disabled one at most
once. -/
structure Accounted (s : Session) : Prop where
  indexed : s.Indexed
  reports : ∀ {i : Nat} {a : Slot}, s.slots[i]? = some a → s.loopReports a.label ≤ if a.disabled then 1 else 0

variable {s t : Session}

theorem Fresh.accounted (h : s.Fresh) : s.Accounted where
  indexed := h.indexed
  reports _ := by
    rw [loopReports, h.loops]
    exact Nat.zero_le _

theorem Accounted.onward (h : s.Accounted) (onward : Onward s t) : t.Accounted where
  indexed := h.indexed.onward onward
  reports {i b} found' := by
    obtain ⟨a, found⟩ := exists_slot_of_length onward.length.symm found'
    have later := onward.later found found'
    have before := h.reports found
    rw [later.label, onward.loops found found']
    cases ha : a.disabled with
    | true =>
      rw [later.off ha, ha]
      simpa [ha] using before
    | false =>
      rw [ha] at before
      cases b.disabled <;> simp_all

/-- A disabled trigger is as it was, and is not reported again. -/
theorem Onward.off {i : Nat} {a : Slot} (onward : Onward s t) (found : s.slots[i]? = some a)
    (off : a.disabled = true) : t.slots[i]? = some a ∧ t.loopReports a.label = s.loopReports a.label := by
  obtain ⟨b, found', later⟩ := onward.exists_slot found
  have loops := onward.loops found found'
  rw [later.off off] at found' loops
  rw [off] at loops
  exact ⟨found', loops⟩

/-- When a trigger in use is switched off, it has one report. -/
theorem Dropped.reported {index : Nat} {a b : Slot} (h : Dropped index s t) (accounted : s.Accounted)
    (found : s.slots[index]? = some a) (on : a.disabled = false) (found' : t.slots[index]? = some b) :
    b.disabled = true ∧ t.loopReports b.label = 1 := by
  have is := modify_slot h.slots found found'
  rw [if_pos rfl] at is
  have off : b.disabled = true := by rw [is]
  have before : s.loopReports a.label = 0 := by simpa [on] using accounted.reports found
  have after := h.onward.loops found found'
  rw [before, on, off] at after
  exact ⟨off, by rw [(h.onward.later found found').label, after]; rfl⟩

end Session

namespace Engine

/-- The session at an end of the loop. -/
def ended : EStateM.Result Fault Session PUnit → Session
  | .ok _ t => t
  | .error _ t => t

variable {e : Engine} {s t : Session}

theorem ended_eq_after (x : Act PUnit) : ended (x s) = Act.after x s := by
  rw [Act.after]
  cases x s <;> rfl

theorem isOff_of_disabled {i : Nat} {a : Slot} (found : s.slots[i]? = some a) : isOff s i = a.disabled := by
  rw [isOff, Session.slot?, found]
  rfl

/-! ## One emptying of the queue -/

/-- Whether a write of a trigger is made. -/
def makesTrigger (e : Engine) (t : Turn) : Bool := t.write.origin.isSome && e.verdict t == .performed

theorem makesTrigger_of_host {turn : Turn} (origin : turn.write.origin = none) : e.makesTrigger turn = false := by
  rw [makesTrigger, origin]
  rfl

theorem makesTrigger_of_trigger {turn : Turn} {index : Nat} (origin : turn.write.origin = some index) :
    e.makesTrigger turn = (e.verdict turn == .performed) := by
  rw [makesTrigger, origin]
  rfl

/-- A write that is made was waiting for the host, or is one of those that the cap leaves. -/
theorem paid_of_performed {turn : Turn} (performed : e.verdict turn = .performed) :
    (if e.makesTrigger turn then 1 else 0) ≤ e.settings.maxPasses - turn.made ∧
      1 ≤ (if turn.write.origin.isNone then 1 else 0) + (e.settings.maxPasses - turn.made) := by
  cases origin : turn.write.origin with
  | none => simp [makesTrigger_of_host origin]
  | some index =>
    have room := room_of_performed origin performed
    rw [makesTrigger_of_trigger origin, performed]
    simp only [beq_self_eq_true, if_true]
    omega

/-- One turn pays for what it makes: with a write of the host that was waiting, or with one of those that the cap
leaves.  Nothing that it brings about adds to either. -/
theorem Took.paid {made made' : Nat} {w : Write} {rest : List Write}
    (h : e.Took ⟨made, w, { s with queue := rest }⟩ made' t) :
    (if e.makesTrigger ⟨made, w, { s with queue := rest }⟩ then 1 else 0) + (e.settings.maxPasses - made') ≤
        e.settings.maxPasses - made ∧
      (if e.verdict ⟨made, w, { s with queue := rest }⟩ == .performed then 1 else 0) +
          (t.queue.countP (·.origin.isNone) + (e.settings.maxPasses - made')) ≤
        (w :: rest).countP (·.origin.isNone) + (e.settings.maxPasses - made) := by
  rw [List.countP_cons]
  cases h with
  | host origin performed =>
    have own : w.origin = none := origin
    rw [makesTrigger_of_host origin, verdict_of_host origin, performed.hosts, own]
    simp only [Bool.false_eq_true, if_false, beq_self_eq_true, Option.isNone_none, if_true]
    omega
  | trigger origin on room performed =>
    have room : made < e.settings.maxPasses := room
    rw [makesTrigger_of_trigger origin, verdict_of_room origin on room, performed.hosts]
    simp only [beq_self_eq_true, if_true]
    omega
  | dropped origin off =>
    rw [makesTrigger_of_trigger origin, verdict_of_off origin off]
    simp
  | excessive origin on full dropped =>
    have fewer : t.queue.Sublist rest := dropped.queue ▸ List.filter_sublist
    have hosts := fewer.countP_le (p := (·.origin.isNone))
    have unmade : (Verdict.excessive == Verdict.performed) = false := rfl
    rw [makesTrigger_of_trigger origin, verdict_of_full origin on full, unmade]
    simp only [Bool.false_eq_true, if_false]
    omega

/-- The writes of triggers that are made are as many as the cap leaves; all writes that are made are these and the
waiting ones of the host. -/
theorem Drains.counted {made : Nat} {log : List Turn} {result : EStateM.Result Fault Session PUnit}
    (indexed : s.Indexed) (h : e.Drains made s log result) :
    log.countP e.makesTrigger ≤ e.settings.maxPasses - made ∧
      log.countP (e.verdict · == .performed) ≤
        s.queue.countP (·.origin.isNone) + (e.settings.maxPasses - made) := by
  induction h with
  | done => simp
  | @fails made s t w rest f waiting run =>
    obtain ⟨performed, -⟩ := performed_of_turn indexed run
    obtain ⟨triggers, all⟩ := paid_of_performed performed
    rw [List.countP_singleton, List.countP_singleton, waiting, List.countP_cons, performed]
    simp only [beq_self_eq_true, if_true] at triggers all ⊢
    omega
  | @goes made made' s t w rest log result waiting run _ ih =>
    obtain ⟨took, onward⟩ := took_of_turn indexed run
    obtain ⟨trigger, one⟩ := took.paid
    obtain ⟨triggers, all⟩ := ih (indexed.onward onward)
    rw [List.countP_cons, List.countP_cons, waiting]
    omega

theorem Drains.empty {made : Nat} {log : List Turn} (h : e.Drains made s log (.ok ⟨⟩ t)) : t.queue = [] := by
  generalize result : EStateM.Result.ok PUnit.unit t = r at h
  induction h with
  | done empty =>
    cases result
    exact empty
  | fails => cases result
  | goes _ _ _ ih => exact ih result

theorem Drains.onward {made : Nat} {log : List Turn} {result : EStateM.Result Fault Session PUnit}
    (indexed : s.Indexed) (h : e.Drains made s log result) : Onward s (ended result) := by
  induction h with
  | done => exact .refl _
  | @fails made s t w rest f waiting run =>
    exact (performed_of_turn indexed run).2
  | @goes made made' s t w rest log result waiting run _ ih =>
    obtain ⟨-, first⟩ := took_of_turn indexed run
    exact first.trans (ih (indexed.onward first))

/-- A trigger whose write goes beyond the cap ends up disabled, with one report. -/
theorem Drains.reported {made : Nat} {log : List Turn} {result : EStateM.Result Fault Session PUnit}
    (accounted : s.Accounted) (h : e.Drains made s log result) {turn : Turn} (mem : turn ∈ log)
    (excessive : e.verdict turn = .excessive) {i : Nat} (origin : turn.write.origin = some i) {a : Slot}
    (found : (ended result).slots[i]? = some a) :
    a.disabled = true ∧ (ended result).loopReports a.label = 1 := by
  induction h with
  | done => cases mem
  | @fails made s t w rest f waiting run =>
    obtain rfl := List.mem_singleton.mp mem
    cases (performed_of_turn accounted.indexed run).1.symm.trans excessive
  | @goes made made' s t w rest log result waiting run drains ih =>
    obtain ⟨took, first⟩ := took_of_turn accounted.indexed run
    rcases List.mem_cons.mp mem with rfl | later
    · have onward := drains.onward (accounted.indexed.onward first)
      cases took with
      | host none => cases none.symm.trans origin
      | trigger some on room => cases (verdict_of_room some on room).symm.trans excessive
      | dropped some off => cases (verdict_of_off some off).symm.trans excessive
      | excessive some on full dropped =>
        cases some.symm.trans origin
        obtain ⟨b, middle⟩ := Session.exists_slot_of_length onward.length.symm found
        obtain ⟨c, before⟩ := Session.exists_slot_of_length dropped.onward.length.symm middle
        have accounted' : Session.Accounted { s with queue := rest } := accounted.onward (.of_slots rfl rfl)
        rw [isOff_of_disabled before] at on
        obtain ⟨off, once⟩ := dropped.reported accounted' before on middle
        obtain ⟨same, still⟩ := onward.off middle off
        cases found.symm.trans same
        exact ⟨off, still.trans once⟩
    · exact ih (accounted.onward first) later found

/-! ## Writes of the host -/

/-- Emptying the queue ends normally only when nothing waits. -/
theorem ends_drain_empty (indexed : s.Indexed) :
    Ends (fun _ t => t.queue = [] ∧ t.Indexed) (fun _ => True) e.drain s := by
  obtain ⟨log, drains⟩ := exists_drains_drain (e := e) indexed
  have onward := drains.onward indexed
  unfold Ends
  cases run : e.drain s with
  | error => trivial
  | ok _ t =>
    rw [run] at drains onward
    exact ⟨drains.empty, indexed.onward onward⟩

theorem serves_empty : e.Serves (fun _ => True) (fun t => t.queue = [] ∧ t.Indexed) fun _ => True where
  fault _ := trivial
  drain {s} h target _ v := by
    have asked : Indexed (s.ask target v) := h.2
    exact ends_drain_empty asked
  told h _ _ := h
  cancelled h _ := h
  heard _ _ _ _ _ := trivial

/-- The cap on trigger writes holds at every moment of a session.

When nothing waits, a write of the host empties the queue: it makes at most as many writes of triggers as the cap says
and checks the triggers at most once more than that.  A trigger whose write goes beyond the cap is disabled then, with
one report.  Nothing waits after a write that ends normally.

A disabled trigger is the same at every later moment, is not reported again, and what it wrote is dropped. -/
theorem trigger_cap_holds {survey : Survey} {settings : Settings} {given : Fields} {navigator : Bool} {s₀ : Session}
    (begun : start survey settings given navigator = .ok (e, s₀)) (moment : e.Leads s₀ s) :
    (s.queue = [] → ∀ target v,
      e.Leads s (Act.after (e.write target v) s) ∧ (∀ t, e.write target v s = .ok ⟨⟩ t → t.queue = []) ∧
      ∃ log, e.Drains 0 (s.ask target v) log (e.drain (s.ask target v)) ∧
        log.countP e.makesTrigger ≤ e.settings.maxPasses ∧
        log.countP (fun turn => (e.settledIn turn).isSome) ≤ e.settings.maxPasses + 1 ∧
        ∀ turn ∈ log, e.verdict turn = .excessive → ∀ i, turn.write.origin = some i →
          ∀ a, (Act.after e.drain (s.ask target v)).slots[i]? = some a →
            a.disabled = true ∧ (Act.after e.drain (s.ask target v)).loopReports a.label = 1) ∧
    ∀ t, e.Leads s t → ∀ i a, s.slots[i]? = some a → a.disabled = true →
      t.slots[i]? = some a ∧ t.loopReports a.label = s.loopReports a.label ∧
      ∀ made w rest, t.queue = w :: rest → w.origin = some i →
        e.turn made w { t with queue := rest } = .ok made { t with queue := rest } := by
  have fresh := (primed_of_start begun).1
  have accounted := fresh.accounted.onward (moment.onward fresh.indexed)
  refine ⟨fun idle target v => ⟨leads_write target v s, ?_, ?_⟩, ?_⟩
  · intro t run
    exact ((serves_empty.writeWithin _ trivial v s ⟨idle, accounted.indexed⟩).of_ok run).1
  · have asked : Session.Accounted (s.ask target v) := accounted.onward (.of_slots rfl rfl)
    obtain ⟨log, drains⟩ := exists_drains_drain (e := e) asked.indexed
    obtain ⟨triggers, all⟩ := drains.counted asked.indexed
    have host : (s.ask target v).queue.countP (·.origin.isNone) = 1 := by rw [Session.ask, idle]; rfl
    refine ⟨log, drains, triggers, ?_, ?_⟩
    · have checks : log.countP (fun turn => (e.settledIn turn).isSome) ≤ log.countP (e.verdict · == .performed) := by
        refine List.countP_mono_left fun turn _ settled => ?_
        rw [settledIn] at settled
        split at settled
        · exact beq_iff_eq.mpr ‹_›
        · cases settled
      omega
    · intro turn mem excessive i origin a found
      rw [← ended_eq_after] at found ⊢
      exact drains.reported asked mem excessive origin found
  · intro t later i a found off
    obtain ⟨same, reports⟩ := (later.onward accounted.indexed).off found off
    refine ⟨same, reports, ?_⟩
    intro made w rest waiting origin
    rw [turn, origin]
    have off' : isOff { t with queue := rest } i = true := (isOff_of_disabled same).trans off
    simp only
    rw [get_bind, if_pos off']
    rfl

/-- Two triggers that push each other write three times at most after one push.  The second one is switched off then,
and another push leaves it as it is. -/
theorem pendulum_capped : ∃ s₀ s log, start Pendulum.survey Sample.settings [] false = .ok (Pendulum.engine, s₀) ∧
    Pendulum.engine.Drains 0 (s₀.ask (.text "n") (Sample.whole 1)) log
      (Pendulum.engine.drain (s₀.ask (.text "n") (Sample.whole 1))) ∧
    log.countP Pendulum.engine.makesTrigger ≤ 3 ∧
    Pendulum.engine.Leads s₀ s ∧ ∃ a, s.slots[1]? = some a ∧ a.disabled = true ∧
      (Act.after (Pendulum.engine.write (.text "n") (Sample.whole 1)) s).slots[1]? = some a := by
  obtain ⟨s₀, s, begun, run, shown⟩ := Pendulum.pushed
  have idle : s₀.queue = [] := (primed_of_start begun).1.queue
  obtain ⟨-, -, log, drains, few, -⟩ := (trigger_cap_holds begun .refl).1 idle (.text "n") (Sample.whole 1)
  have moment : Pendulum.engine.Leads s₀ s :=
    (Guards.forM (fun w _ => (serves_leads s₀).writeWithin _ trivial w.2) s₀ .refl).of_ok run
  obtain ⟨a, found, second⟩ : ∃ a, s.slots[1]? = some a ∧ (a.fired, a.disabled, a.fireCount) = (true, true, 2) := by
    have second := congrArg (·[1]?) shown
    simpa [Pendulum.seen] using second
  have off : a.disabled = true := (Prod.mk.inj (Prod.mk.inj second).2).1
  exact ⟨s₀, s, log, begun, drains, few, moment, a, found, off,
    ((trigger_cap_holds begun moment).2 _ (leads_write _ _ s) 1 a found off).1⟩

end Engine

end Questionnaire
