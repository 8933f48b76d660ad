import Questionnaire.Proofs.Session.Freshness
import Questionnaire.Proofs.Session.Turns

/-!
# Triggers act on rising edges

The settled sessions of a run are the one that the session starts with, and after each write that changes an answer
the one in which everything that follows from it is settled.  Along them a trigger in use is fired exactly while its
condition is true, and it has acted exactly as often as its condition turned from false to true.  This holds whatever
other triggers write meanwhile, and whichever of them are switched off.

The step lemma is about one turn.  It speaks of what is still to come as well, so the count of a whole log is put
together without taking the log apart.
-/
namespace Questionnaire

open Act
open Session (Quiet Handled Onward Dropped Indexed)

/-- How often a truth value turns from false to true along a list, with what it was before. -/
def risesFrom : Bool → List Bool → Nat
  | _, [] => 0
  | before, now :: later => (if now && !before then 1 else 0) + risesFrom now later

namespace Engine

/-- The settled sessions of a log, in order. -/
def settledOf (e : Engine) (log : List Turn) : List Session := log.filterMap e.settledIn

variable {e : Engine} {s t : Session}

theorem settledOf_cons (turn : Turn) (log : List Turn) :
    e.settledOf (turn :: log) = (e.settledIn turn).toList ++ e.settledOf log := by
  rw [settledOf, List.filterMap_cons]
  cases e.settledIn turn <;> rfl

/-- Between two moments, triggers stay in step and count the rising edges in the settled sessions between them. -/
structure Counts (e : Engine) (s : Session) (settled : List Session) (t : Session) : Prop where
  onward : Onward s t
  inStep : e.InStep t
  count : ∀ {i : Nat} {a b : Slot}, s.slots[i]? = some a → t.slots[i]? = some b → b.disabled = false →
    ∀ later : List Session,
      a.fireCount + risesFrom (e.holds s a) ((settled ++ later).map (e.holds · a)) =
        b.fireCount + risesFrom (e.holds t a) (later.map (e.holds · a))

theorem Counts.refl (inStep : e.InStep s) : e.Counts s [] s where
  onward := .refl s
  inStep := inStep
  count found found' _ later := by
    cases found.symm.trans found'
    rfl

/-- Nothing counts when a write is taken from the queue. -/
theorem Counts.of_queue (inStep : e.InStep s) (queue : List Write) : e.Counts s [] { s with queue } where
  onward := .of_slots rfl rfl
  inStep := inStep
  count found found' _ later := by
    cases found.symm.trans found'
    rfl

theorem Counts.trans {u : Session} {first second : List Session} (h : e.Counts s first t)
    (h' : e.Counts t second u) : e.Counts s (first ++ second) u where
  onward := h.onward.trans h'.onward
  inStep := h'.inStep
  count {i a c} found found' on later := by
    obtain ⟨b, middle, ab⟩ := h.onward.exists_slot found
    have bc := h'.onward.later middle found'
    have on' : b.disabled = false := by
      cases off : b.disabled with
      | false => rfl
      | true => exact absurd (bc.disabled off) (by simp [on])
    have same (v : Session) : e.holds v b = e.holds v a := holds_congr rfl ab.condition
    have rest := h'.count middle found' on later
    simp only [same] at rest
    rw [List.append_assoc, h.count found middle on' (second ++ later), rest]

/-- A write that is made counts at most one edge, that of the session which it leads to. -/
theorem Performed.counts {w : Write} (h : e.Performed w s t) (inStep : e.InStep s) :
    e.Counts s (e.settledAfter w s).toList t := by
  have onward := h.onward
  unfold Performed at h
  cases after : e.settledAfter w s with
  | none =>
    rw [after] at h
    subst h
    exact .refl inStep
  | some u =>
    rw [after] at h
    obtain ⟨quiet, handled⟩ := h
    have slot {i : Nat} {a b : Slot} (found : s.slots[i]? = some a) (found' : t.slots[i]? = some b) :
        b = a.edge (e.holds u a) := by
      rw [handled.slots, quiet.slots, found] at found'
      exact (Option.some.inj found').symm
    have settled (a : Slot) : e.holds t a = e.holds u a := holds_congr handled.answers rfl
    refine ⟨onward, ?_, ?_⟩
    · intro i b found' on
      obtain ⟨a, found⟩ := Session.exists_slot_of_length onward.length.symm found'
      obtain rfl := slot found found'
      rw [Slot.disabled_edge] at on
      rw [holds_congr handled.answers (Slot.later_edge _ a).condition, Slot.edge_of_enabled _ on]
    · intro i a b found found' on later
      obtain rfl := slot found found'
      rw [Slot.disabled_edge] at on
      rw [settled, Slot.edge_of_enabled _ on, inStep i a found on]
      simp only [Option.toList_some, List.singleton_append, List.map_cons, risesFrom, Nat.add_assoc]

/-- A turn keeps triggers in step and counts its edge. -/
theorem Took.counts {turn : Turn} {made : Nat} (h : e.Took turn made t) (inStep : e.InStep turn.before) :
    e.Counts turn.before (e.settledIn turn).toList t := by
  have onward := h.onward
  have performs (verdict : e.verdict turn = .performed) (performed : e.Performed turn.write turn.before t) :
      e.Counts turn.before (e.settledIn turn).toList t := by
    rw [settledIn, if_pos verdict]
    exact performed.counts inStep
  cases h with
  | host origin performed => exact performs (verdict_of_host origin) performed
  | trigger origin on room performed => exact performs (verdict_of_room origin on room) performed
  | dropped origin off =>
    have none : e.settledIn turn = none := if_neg (by simp [verdict_of_off origin off])
    rw [none]
    exact .refl inStep
  | excessive origin on full dropped =>
    have none : e.settledIn turn = none := if_neg (by simp [verdict_of_full origin on full])
    rw [none]
    have slot {i : Nat} {a b : Slot} (found : turn.before.slots[i]? = some a) (found' : t.slots[i]? = some b)
        (on : b.disabled = false) : b = a := by
      obtain rfl := Session.modify_slot dropped.slots found found'
      split at on
      · cases on
      · rename_i other
        exact if_neg other
    refine ⟨onward, ?_, ?_⟩
    · intro i b found' on
      obtain ⟨a, found⟩ := Session.exists_slot_of_length onward.length.symm found'
      obtain rfl := slot found found' on
      rw [holds_congr dropped.answers rfl]
      exact inStep i b found on
    · intro i a b found found' on later
      obtain rfl := slot found found' on
      rw [holds_congr dropped.answers rfl]
      rfl

theorem Drains.counts {made : Nat} {log : List Turn} (indexed : s.Indexed) (inStep : e.InStep s)
    (h : e.Drains made s log (.ok ⟨⟩ t)) : e.Counts s (e.settledOf log) t := by
  generalize ended : EStateM.Result.ok PUnit.unit t = result at h
  induction h with
  | done =>
    cases ended
    exact .refl inStep
  | fails => cases ended
  | @goes made made' s u w rest log result waiting run _ ih =>
    obtain ⟨took, onward⟩ := took_of_turn indexed run
    have first := (Counts.of_queue inStep rest).trans (took.counts inStep)
    rw [settledOf_cons]
    exact first.trans (ih (indexed.onward onward) first.inStep ended)

/-! ## Runs of the host -/

/-- The log of some writes of the host, one after the other, each of which empties the queue. -/
inductive Follows (e : Engine) : Session → List (Value × Value) → List Turn → Session → Prop
  | none {s : Session} : Follows e s [] [] s
  | write {s t u : Session} {w : Value × Value} {writes : List (Value × Value)} {log later : List Turn} :
      e.Drains 0 (s.ask w.1 w.2) log (.ok ⟨⟩ t) → Follows e t writes later u →
      Follows e s (w :: writes) (log ++ later) u

theorem Follows.counts {writes : List (Value × Value)} {log : List Turn} (h : e.Follows s writes log t)
    (indexed : s.Indexed) (inStep : e.InStep s) : e.Counts s (e.settledOf log) t := by
  induction h with
  | none => exact .refl inStep
  | @write s t u w writes log later drains _ ih =>
    have asked := Counts.of_queue inStep (s.ask w.1 w.2).queue
    have first := asked.trans (drains.counts indexed asked.inStep)
    rw [settledOf, List.filterMap_append]
    exact first.trans (ih (indexed.onward first.onward) first.inStep)

/-- While nobody listens, a write of the host empties the queue and does nothing else. -/
theorem drain_of_write {bindings : List Binding} (compiled : e.Compiled bindings) {target v : Value}
    (indexed : s.Indexed) (unheard : s.listeners = []) (run : e.write target v s = .ok ⟨⟩ t) :
    ∃ log, e.Drains 0 (s.ask target v) log (.ok ⟨⟩ t) ∧ t.listeners = [] := by
  have asked : Indexed (s.ask target v) := indexed
  obtain ⟨log, drains⟩ := exists_drains_drain (e := e) asked
  obtain ⟨u, drained⟩ := exists_drain_of_write run
  have unheard' : u.listeners = [] := ((ends_drain_untold compiled _).of_ok drained).1.trans unheard
  rw [write, writeWithin_of_drained _ drained, unheard'] at run
  obtain rfl : u = t := by
    split at run
    · cases run
      rfl
    · cases run
      rfl
  exact ⟨log, drained ▸ drains, unheard'⟩

theorem follows_of_writes {bindings : List Binding} (compiled : e.Compiled bindings) {writes : List (Value × Value)}
    (indexed : s.Indexed) (unheard : s.listeners = [])
    (run : (writes.forM fun w => e.write w.1 w.2) s = .ok ⟨⟩ t) : ∃ log, e.Follows s writes log t := by
  induction writes generalizing s with
  | nil =>
    cases run
    exact ⟨[], .none⟩
  | cons w rest ih =>
    rw [List.forM_eq_forM, List.forM_cons] at run
    cases written : e.write w.1 w.2 s with
    | error f u =>
      rw [bind_eq_of_error written] at run
      cases run
    | ok _ u =>
      rw [bind_eq_of_ok written] at run
      obtain ⟨log, drains, unheard'⟩ := drain_of_write compiled indexed unheard written
      have onward := (leads_write (e := e) w.1 w.2 s).onward indexed
      rw [Act.after, written] at onward
      obtain ⟨later, follows⟩ := ih (indexed.onward onward) unheard' run
      exact ⟨log ++ later, .write drains follows⟩

/-- Triggers act on rising edges.  A session starts with no action taken.  After every run that ended normally, each
trigger in use is fired if its condition is true on the current answers and armed if it is not, and it has fired as
often as its condition turned true along the settled sessions of the run. -/
theorem triggers_edge_triggered {survey : Survey} {settings : Settings} {given : Fields} {navigator : Bool}
    {s₀ : Session} (begun : start survey settings given navigator = .ok (e, s₀)) :
    s₀.history = [] ∧ (∀ a ∈ s₀.slots, a.fireCount = 0) ∧
    ∀ (writes : List (Value × Value)) (s : Session), (writes.forM fun w => e.write w.1 w.2) s₀ = .ok ⟨⟩ s →
      ∃ log, e.Follows s₀ writes log s ∧ ∀ a ∈ s.slots, a.disabled = false →
        a.fired = e.holds s a ∧
        a.fireCount = risesFrom (e.holds s₀ a) ((e.settledOf log).map (e.holds · a)) := by
  obtain ⟨fresh, inStep⟩ := primed_of_start begun
  refine ⟨fresh.history, fresh.fireCount, ?_⟩
  intro writes s run
  obtain ⟨bindings, compiled⟩ := exists_compiled begun
  obtain ⟨log, follows⟩ := follows_of_writes compiled fresh.indexed fresh.listeners run
  have counts := follows.counts fresh.indexed inStep
  refine ⟨log, follows, fun b mem on => ?_⟩
  obtain ⟨i, found'⟩ := List.getElem?_of_mem mem
  obtain ⟨a, found⟩ := Session.exists_slot_of_length counts.onward.length.symm found'
  have same (t : Session) : e.holds t b = e.holds t a := holds_congr rfl (counts.onward.later found found').condition
  have count := counts.count found found' on []
  rw [List.append_nil, fresh.fireCount a (List.mem_of_getElem? found), List.map_nil, risesFrom, Nat.zero_add,
    Nat.add_zero] at count
  refine ⟨counts.inStep i b found' on, ?_⟩
  simp only [same]
  exact count.symm

end Engine

/-! ## Two triggers that push each other -/

namespace Pendulum

/-- Two triggers on one question: each writes what the other one waits for. -/
def document : Value :=
  Sample.fields [("elements", .sequence [Sample.fields [("name", .text "n")]]), ("triggers", .sequence [
    Sample.fields [("type", .text "setvalue"), ("expression", .text "{n} = 1"), ("setToName", .text "n"),
      ("setValue", Sample.whole 2)],
    Sample.fields [("type", .text "setvalue"), ("expression", .text "{n} = 2"), ("setToName", .text "n"),
      ("setValue", Sample.whole 1)]])]

def survey : Survey :=
  match Survey.ofDocument document with
  | .ok survey => survey
  | .error _ => ⟨.undefined, .undefined, .undefined, [], [], []⟩

theorem loaded : Survey.ofDocument document = .ok survey := rfl

/-- The trigger that waits for one number and writes another. -/
def trigger (condition : String) (writes : Int) : Trigger :=
  ⟨.setValue, condition, .text "n", Sample.whole writes, .undefined, .undefined, .undefined⟩

theorem triggers : survey.triggers = [trigger "{n} = 1" 2, trigger "{n} = 2" 1] := rfl

def equals (n : Int) : Expr := .binary .equal (.reference "n") (.literal (Sample.whole n))

def slots : List (Slot × List Diagnostic) :=
  [(⟨trigger "{n} = 1" 2, "setvalue:n", 0, some (equals 1), none, false, false, 0⟩, []),
    (⟨trigger "{n} = 2" 1, "setvalue:n", 1, some (equals 2), none, false, false, 0⟩, [])]

theorem each : (survey.triggers.mapIdx Slot.ofTrigger).mapM id = .ok slots := by
  have first : Expr.ofText "{n} = 1" = .ok (equals 1) := by cbv
  have second : Expr.ofText "{n} = 2" = .ok (equals 2) := by cbv
  rw [triggers]
  simp [Slot.ofTrigger, Slot.parse, trigger, Trigger.label, first, second, bind, Except.bind, pure, Except.pure]
  rfl

theorem bound : survey.bindings = .ok ([], []) := rfl

def engine : Engine := Engine.ofBindings survey Sample.settings []

/-- What is seen of a session: of each trigger whether it is fired, whether it is disabled, and how often it fired. -/
def seen (s : Session) : List (Bool × Bool × Nat) := s.slots.map fun a => (a.fired, a.disabled, a.fireCount)

/-- A one is written. -/
def push : List (Value × Value) := [(.text "n", Sample.whole 1)]

/-- The triggers push each other until the cap of three writes is passed; then the second one is switched off. -/
theorem pushed : ∃ s₀ s, Engine.start survey Sample.settings [] false = .ok (engine, s₀) ∧
    (push.forM fun w => engine.write w.1 w.2) s₀ = .ok ⟨⟩ s ∧ seen s = [(false, false, 2), (true, true, 2)] := by
  have swung : ∃ a s, (engine.applyAll >>= fun _ => push.forM fun w => engine.write w.1 w.2)
      (engine.opening [] slots [] false) = .ok a s ∧ seen s = [(false, false, 2), (true, true, 2)] :=
    Act.exists_of_seen (by decide +kernel)
  obtain ⟨_, s, run, shown⟩ := swung
  obtain ⟨s₀, begun, run⟩ := Engine.exists_start_of_run bound each run
  exact ⟨s₀, s, begun, run, shown⟩

end Pendulum

namespace Engine

/-- The first of the two triggers has fired twice, once for each time that its condition turned true. -/
theorem pendulum_edges : ∃ s₀ s log,
    start Pendulum.survey Sample.settings [] false = .ok (Pendulum.engine, s₀) ∧
    Pendulum.engine.Follows s₀ Pendulum.push log s ∧
    ∃ a ∈ s.slots, a.disabled = false ∧ a.fired = Pendulum.engine.holds s a ∧ a.fireCount = 2 ∧
      risesFrom (Pendulum.engine.holds s₀ a)
        ((Pendulum.engine.settledOf log).map (Pendulum.engine.holds · a)) = 2 := by
  obtain ⟨s₀, s, begun, run, shown⟩ := Pendulum.pushed
  obtain ⟨a, others, slots, first, -⟩ := List.map_eq_cons_iff.mp shown
  obtain ⟨-, on, twice⟩ : a.fired = false ∧ a.disabled = false ∧ a.fireCount = 2 := by simpa using first
  obtain ⟨log, follows, counts⟩ := (triggers_edge_triggered begun).2.2 Pendulum.push s run
  have mem : a ∈ s.slots := slots ▸ List.mem_cons_self
  obtain ⟨fired, count⟩ := counts a mem on
  exact ⟨s₀, s, log, begun, follows, a, mem, on, fired, twice, count.symm.trans twice⟩

end Engine

end Questionnaire
