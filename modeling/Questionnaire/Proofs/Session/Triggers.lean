import Mathlib.Data.List.TakeWhile
import Questionnaire.Proofs.Session.Opening
import Questionnaire.Proofs.Session.Steps

/-!
# Triggers through a session

What happens to the triggers of a session.  Applying bindings leaves them alone.  A check that ends normally brings
every trigger in use into step with its condition and counts the rising edges.  Switching a trigger off reports it
once, and from then on it does not change.

Two relations between an earlier and a later session say this.  `Handled` holds after a normal end, and tells what
became of each trigger.  `Onward` holds after a fault as well, and tells what cannot be undone.
-/
namespace Questionnaire

open Act

/-- A diagnostic on a trigger that writes too often. -/
def Diagnostic.isLoop (d : Diagnostic) : Bool := d.problem.kindName == "TriggerLoop"

theorem Diagnostic.not_isLoop_of_eval {failure : EvalError} {owner property : String} {source : Value} :
    (⟨.eval failure, owner, property, source⟩ : Diagnostic).isLoop = false := by
  rw [isLoop, Problem.kindName]
  cases failure.kind <;> decide

namespace Session

/-- The reports on triggers that write too often. -/
def loops (s : Session) : List Diagnostic := s.diagnostics.filter (·.isLoop)

/-- How often the trigger of a label was reported for writing too often. -/
def loopReports (s : Session) (label : String) : Nat := s.loops.countP (·.owner == label)

/-- Triggers, and what waits for them, are left alone. -/
structure Quiet (s t : Session) : Prop where
  slots : t.slots = s.slots
  history : t.history = s.history
  queue : t.queue = s.queue
  listeners : t.listeners = s.listeners
  loops : t.loops = s.loops

variable {s t u : Session}

theorem Quiet.refl (s : Session) : Quiet s s := ⟨rfl, rfl, rfl, rfl, rfl⟩

theorem Quiet.trans (h : Quiet s t) (h' : Quiet t u) : Quiet s u where
  slots := h'.slots.trans h.slots
  history := h'.history.trans h.history
  queue := h'.queue.trans h.queue
  listeners := h'.listeners.trans h.listeners
  loops := h'.loops.trans h.loops

theorem loops_report {d : Diagnostic} (other : d.isLoop = false) (s : Session) : (s.report d).loops = s.loops := by
  simp [loops, report, other]

theorem loopReports_report {d : Diagnostic} (loop : d.isLoop = true) (s : Session) (label : String) :
    (s.report d).loopReports label = s.loopReports label + if d.owner == label then 1 else 0 := by
  simp [loopReports, loops, report, loop, List.countP_append, List.countP_cons]

theorem quiet_report {d : Diagnostic} (other : d.isLoop = false) (s : Session) : Quiet s (s.report d) :=
  ⟨rfl, rfl, rfl, rfl, loops_report other s⟩

end Session

open Session (Quiet)

namespace Engine

section Quiet

variable {e : Engine} {s : Session} {b : Binding}

theorem preserves_evaluate {I : Session → Prop} (x : Expr) : Preserves I (e.evaluate x) := by
  intro t ht
  refine (ends_evaluate x).mono ?_ ?_
  · rintro _ u rfl
    exact ht
  · rintro u rfl
    exact ht

theorem quiet_partValue (part : Part) (x : Expr) : Preserves (Quiet s) (e.partValue b part x) := by
  rw [partValue]
  refine (preserves_evaluate x).bind ?_
  intro outcome
  cases outcome with
  | ok v =>
    refine (guards_modify ?_).bind fun _ => guards_pure v
    exact fun t ht => ht.trans ⟨rfl, rfl, rfl, rfl, rfl⟩
  | error failure =>
    refine (guards_modify ?_).bind fun _ => guards_pure Value.undefined
    intro t ht
    rw [reportFailure]
    split
    · exact ht
    · refine ht.trans (Quiet.trans ?_ (Session.quiet_report Diagnostic.not_isLoop_of_eval _))
      exact ⟨rfl, rfl, rfl, rfl, rfl⟩

theorem quiet_store (key : Key) (v : Value) : Preserves (Quiet s) (store key v) := by
  intro t ht
  exact ends_store.mpr (ht.trans ⟨rfl, rfl, rfl, rfl, rfl⟩)

theorem quiet_setFlag (flag : Flags → Flags) : Preserves (Quiet s) (setFlag b flag) := by
  rw [setFlag]
  refine guards_modify ?_
  exact fun t ht => ht.trans ⟨rfl, rfl, rfl, rfl, rfl⟩

theorem quiet_disableUnstable : Preserves (Quiet s) (e.disableUnstable b) := by
  rw [disableUnstable]
  refine guards_modify fun t ht => ht.trans (Quiet.trans ?_ (Session.quiet_report rfl _))
  exact ⟨rfl, rfl, rfl, rfl, rfl⟩

theorem bears_quiet : e.Bears (fun _ => True) (Quiet s) (Quiet s) where
  ordered _ _ := trivial
  default _ _ _ := trivial
  value _ _ part x _ := quiet_partValue part x
  store := quiet_store
  flag _ := quiet_setFlag
  unstable _ := quiet_disableUnstable

theorem quiet_settle (changed : List String) : Preserves (Quiet s) (e.settle changed) := bears_quiet.covers.settle changed

end Quiet

end Engine

/-! ## Triggers from one moment to a later one -/

namespace Slot

/-- What a check makes of a trigger: it is fired as long as its condition holds, and a rising edge counts.  A
disabled trigger takes no part. -/
def edge (holds : Bool) (a : Slot) : Slot :=
  if a.disabled then a
  else { a with fired := holds, fireCount := a.fireCount + if holds && !a.fired then 1 else 0 }

/-- A trigger whose condition was noted, without acting. -/
def primed (holds : Bool) (a : Slot) : Slot := if a.disabled then a else { a with fired := holds }

/-- A trigger at a later moment.  Once disabled it does not change any more. -/
structure Later (a b : Slot) : Prop where
  same : b = { a with fired := b.fired, disabled := b.disabled, fireCount := b.fireCount }
  off : a.disabled = true → b = a

variable {a b c : Slot}

theorem Later.refl (a : Slot) : Later a a := ⟨rfl, fun _ => rfl⟩

theorem Later.trans (h : Later a b) (h' : Later b c) : Later a c where
  same := by rw [h'.same, h.same]
  off off := by rw [h'.off (by rw [h.off off, off]), h.off off]

theorem Later.label (h : Later a b) : b.label = a.label := by rw [h.same]; rfl

theorem Later.index (h : Later a b) : b.index = a.index := by rw [h.same]

theorem Later.condition (h : Later a b) : b.condition = a.condition := by rw [h.same]

theorem Later.disabled (h : Later a b) (off : a.disabled = true) : b.disabled = true := by rw [h.off off, off]

theorem edge_of_disabled (holds : Bool) (off : a.disabled = true) : a.edge holds = a := if_pos off

theorem edge_of_enabled (holds : Bool) (on : a.disabled = false) :
    a.edge holds = { a with fired := holds, fireCount := a.fireCount + if holds && !a.fired then 1 else 0 } := by
  rw [edge, on]
  rfl

theorem edge_of_rise {holds : Bool} (on : a.disabled = false) (rises : (holds && !a.fired) = true) :
    a.edge holds = { a with fired := true, fireCount := a.fireCount + 1 } := by
  rw [edge_of_enabled holds on, rises, ((Bool.and_eq_true _ _).mp rises).1]
  rfl

theorem edge_of_fall {holds : Bool} (on : a.disabled = false) (falls : (!holds && a.fired) = true) :
    a.edge holds = { a with fired := false } := by
  obtain ⟨falls, -⟩ := (Bool.and_eq_true _ _).mp falls
  obtain rfl : holds = false := by simpa using falls
  rw [edge_of_enabled false on]
  rfl

/-- Nothing happens while the condition stays as it is. -/
theorem edge_of_level {holds : Bool} (level : a.fired = holds) : a.edge holds = a := by
  rw [edge]
  split
  · rfl
  · rw [← level]
    cases a
    simp

theorem later_edge (holds : Bool) (a : Slot) : Later a (a.edge holds) := by
  cases off : a.disabled with
  | true =>
    rw [edge_of_disabled holds off]
    exact .refl a
  | false =>
    rw [edge_of_enabled holds off]
    exact ⟨rfl, fun on => absurd (off.symm.trans on) (by decide)⟩

theorem disabled_edge (holds : Bool) (a : Slot) : (a.edge holds).disabled = a.disabled := by
  rw [edge]
  split <;> rfl

theorem later_primed (holds : Bool) (a : Slot) : Later a (a.primed holds) := by
  rw [primed]
  split
  · exact .refl a
  · rename_i on
    exact ⟨rfl, fun off => absurd off on⟩

theorem disabled_primed (holds : Bool) (a : Slot) : (a.primed holds).disabled = a.disabled := by
  rw [primed]
  split <;> rfl

end Slot

namespace Session

/-- Triggers at a later moment.  A trigger is reported for writing too often when it is disabled, and only then. -/
structure Onward (s t : Session) : Prop where
  length : t.slots.length = s.slots.length
  later : ∀ {i : Nat} {a b : Slot}, s.slots[i]? = some a → t.slots[i]? = some b → a.Later b
  loops : ∀ {i : Nat} {a b : Slot}, s.slots[i]? = some a → t.slots[i]? = some b →
    t.loopReports a.label = s.loopReports a.label + if b.disabled && !a.disabled then 1 else 0

variable {s t u : Session}

theorem exists_slot_of_length {i : Nat} {a : Slot} (length : t.slots.length = s.slots.length)
    (found : s.slots[i]? = some a) : ∃ b, t.slots[i]? = some b := by
  obtain ⟨bound, -⟩ := List.getElem?_eq_some_iff.mp found
  exact ⟨_, List.getElem?_eq_getElem (length ▸ bound)⟩

theorem Onward.exists_slot {i : Nat} {a : Slot} (h : Onward s t) (found : s.slots[i]? = some a) :
    ∃ b, t.slots[i]? = some b ∧ a.Later b := by
  obtain ⟨b, found'⟩ := exists_slot_of_length h.length found
  exact ⟨b, found', h.later found found'⟩

/-- A change of triggers that disables none and reports none. -/
theorem Onward.of_map {g : Nat → Slot → Slot} (length : t.slots.length = s.slots.length)
    (slots : ∀ i a, s.slots[i]? = some a → t.slots[i]? = some (g i a)) (later : ∀ i (a : Slot), a.Later (g i a))
    (disabled : ∀ i (a : Slot), (g i a).disabled = a.disabled) (loops : t.loops = s.loops) : Onward s t where
  length := length
  later {i a b} found found' := by
    cases (slots i a found).symm.trans found'
    exact later i a
  loops {i a b} found found' := by
    cases (slots i a found).symm.trans found'
    rw [loopReports, loopReports, loops, disabled]
    cases a.disabled <;> rfl

theorem Onward.of_slots (slots : t.slots = s.slots) (loops : t.loops = s.loops) : Onward s t :=
  .of_map (g := fun _ a => a) (by rw [slots]) (fun _ _ found => slots ▸ found) (fun _ => Slot.Later.refl)
    (fun _ _ => rfl) loops

theorem Quiet.onward (h : Quiet s t) : Onward s t := .of_slots h.slots h.loops

theorem Onward.refl (s : Session) : Onward s s := (Quiet.refl s).onward

theorem Onward.trans (h : Onward s t) (h' : Onward t u) : Onward s u where
  length := h'.length.trans h.length
  later {i a c} found found' := by
    obtain ⟨b, middle, ab⟩ := h.exists_slot found
    exact ab.trans (h'.later middle found')
  loops {i a c} found found' := by
    obtain ⟨b, middle, ab⟩ := h.exists_slot found
    have bc := h'.later middle found'
    have first := h.loops found middle
    have second := h'.loops middle found'
    rw [ab.label, first] at second
    rw [second]
    cases ha : a.disabled with
    | true => rw [bc.off (ab.disabled ha), ab.off ha, ha]; simp
    | false =>
      cases hb : b.disabled with
      | true => rw [bc.off hb, hb]; simp
      | false => simp

/-- Each trigger is handled in its way, and at most `n` writes of triggers join the queue. -/
structure Handled (n : Nat) (g : Nat → Slot → Slot) (s t : Session) : Prop where
  answers : t.answers = s.answers
  slots : ∀ i, t.slots[i]? = s.slots[i]?.map (g i)
  loops : t.loops = s.loops
  queue : ∃ more, t.queue = s.queue ++ more ∧ more.length ≤ n ∧ ∀ w ∈ more, w.origin.isSome = true

theorem Handled.of_quiet (h : Quiet s t) (answers : t.answers = s.answers) : Handled 0 (fun _ a => a) s t where
  answers := answers
  slots i := by rw [h.slots]; simp
  loops := h.loops
  queue := ⟨[], by rw [h.queue, List.append_nil], Nat.le_refl 0, by simp⟩

theorem Handled.trans {n m : Nat} {g h : Nat → Slot → Slot} (first : Handled n g s t) (second : Handled m h t u) :
    Handled (n + m) (fun i a => h i (g i a)) s u where
  answers := second.answers.trans first.answers
  slots i := by rw [second.slots, first.slots, Option.map_map]; rfl
  loops := second.loops.trans first.loops
  queue := by
    obtain ⟨more, queue, few, triggers⟩ := first.queue
    obtain ⟨more', queue', few', triggers'⟩ := second.queue
    refine ⟨more ++ more', by rw [queue', queue, List.append_assoc], ?_, ?_⟩
    · rw [List.length_append]
      omega
    · exact List.forall_mem_append.mpr ⟨triggers, triggers'⟩

theorem Handled.congr {n : Nat} {g h : Nat → Slot → Slot} (handled : Handled n g s t)
    (same : ∀ i a, s.slots[i]? = some a → h i a = g i a) : Handled n h s t where
  answers := handled.answers
  slots i := by
    rw [handled.slots]
    cases found : s.slots[i]? with
    | none => rfl
    | some a => exact congrArg some (same i a found).symm
  loops := handled.loops
  queue := handled.queue

theorem Handled.mono {n m : Nat} {g : Nat → Slot → Slot} (h : Handled n g s t) (le : n ≤ m) : Handled m g s t where
  answers := h.answers
  slots := h.slots
  loops := h.loops
  queue := by
    obtain ⟨more, queue, few, triggers⟩ := h.queue
    exact ⟨more, queue, Nat.le_trans few le, triggers⟩

theorem Handled.length {n : Nat} {g : Nat → Slot → Slot} (h : Handled n g s t) :
    t.slots.length = s.slots.length := by
  refine le_antisymm ?_ ?_
  · rw [← List.getElem?_eq_none_iff, h.slots, List.getElem?_eq_none (Nat.le_refl _)]
    rfl
  · rw [← List.getElem?_eq_none_iff, ← Option.map_eq_none_iff (f := g t.slots.length), ← h.slots,
      List.getElem?_eq_none (Nat.le_refl _)]

theorem Handled.onward {n : Nat} {g : Nat → Slot → Slot} (h : Handled n g s t) (later : ∀ i (a : Slot), a.Later (g i a))
    (disabled : ∀ i (a : Slot), (g i a).disabled = a.disabled) : Onward s t :=
  .of_map h.length (fun i a found => by rw [h.slots, found]; rfl) later disabled h.loops

end Session

open Session (Onward Handled)

namespace Engine

variable {e : Engine} {s t : Session}

/-- Whether the condition of a trigger is true on the current answers; one that fails is not. -/
def holds (e : Engine) (s : Session) (a : Slot) : Bool :=
  match a.condition with
  | none => false
  | some condition =>
    match condition.evaluate (e.context s) with
    | .ok v => v.truthy
    | .error _ => false

theorem holds_congr {a b : Slot} (answers : t.answers = s.answers) (condition : b.condition = a.condition) :
    e.holds t b = e.holds s a := by
  rw [holds, holds, context, context, answers, condition]

theorem ends_conditionHolds_holds (a : Slot) :
    Ends (fun truth t => truth = e.holds s a ∧ Quiet s t ∧ t.answers = s.answers) (Quiet s)
      (e.conditionHolds a) s := by
  rw [conditionHolds, holds]
  cases a.condition with
  | none => exact ⟨rfl, .refl s, rfl⟩
  | some condition =>
    unfold evaluate
    simp only [ends_bind, ends_get]
    cases condition.evaluate (e.context s) with
    | ok v => exact ⟨rfl, .refl s, rfl⟩
    | error stop =>
      cases stop with
      | error failure => exact ⟨rfl, Session.quiet_report Diagnostic.not_isLoop_of_eval s, rfl⟩
      | fault f => exact .refl s

/-! ## Checking triggers -/

theorem ends_queueWrite_handled (a : Slot) (v : Value) :
    Ends (fun _ t => Handled 1 (fun _ a => a) s t) (Onward s) (queueWrite a v) s := by
  rw [queueWrite]
  simp only [record, ends_bind, ends_modify]
  split
  · exact ⟨rfl, fun i => Option.map_id'.symm, rfl, [_], rfl, Nat.le_refl 1, by simp⟩
  · exact ⟨rfl, fun i => Option.map_id'.symm, rfl, [], (List.append_nil _).symm, Nat.zero_le 1, by simp⟩

theorem ends_execute_handled (a : Slot) :
    Ends (fun _ t => Handled 1 (fun _ a => a) s t) (Onward s) (e.execute a) s := by
  have idle {t : Session} (slots : t.slots = s.slots) (queue : t.queue = s.queue) (answers : t.answers = s.answers)
      (loops : t.loops = s.loops) : Handled 1 (fun _ a => a) s t :=
    ⟨answers, fun i => by rw [slots]; simp, loops, [], by rw [queue, List.append_nil], Nat.zero_le 1, by simp⟩
  rw [execute]
  split
  case h_1 | h_2 => exact idle rfl rfl rfl rfl
  case h_3 => exact ends_queueWrite_handled a _
  case h_4 =>
    rw [ends_bind]
    refine (ends_copiedValue _).mono ?_ ?_
    · rintro v t rfl
      exact ends_queueWrite_handled a v
    · rintro t rfl
      exact .refl t
  case h_5 =>
    split
    · exact idle rfl rfl rfl rfl
    · rw [ends_bind]
      refine (ends_evaluate _).mono ?_ ?_
      · rintro outcome t rfl
        cases outcome with
        | ok v => exact ends_queueWrite_handled a v
        | error failure => exact idle rfl rfl rfl (Session.loops_report Diagnostic.not_isLoop_of_eval _)
      · rintro t rfl
        exact .refl t

/-- Only the trigger of an index is handled. -/
def only (index : Nat) (g : Slot → Slot) (i : Nat) (a : Slot) : Slot := if i = index then g a else a

theorem later_only {g : Slot → Slot} (later : ∀ a : Slot, a.Later (g a)) (index i : Nat) (a : Slot) :
    a.Later (only index g i a) := by
  rw [only]
  split
  · exact later a
  · exact .refl a

theorem disabled_only {g : Slot → Slot} (disabled : ∀ a : Slot, (g a).disabled = a.disabled) (index i : Nat)
    (a : Slot) : (only index g i a).disabled = a.disabled := by
  rw [only]
  split
  · exact disabled a
  · rfl

theorem handled_modifySlot (index : Nat) (f : Slot → Slot) (s : Session) :
    Handled 0 (only index f) s (s.modifySlot index f) where
  answers := rfl
  slots i := by
    rw [Session.modifySlot, List.getElem?_modify]
    cases s.slots[i]? with
    | none => rfl
    | some a =>
      by_cases here : i = index
      · simp [only, here]
      · simp [only, here, Ne.symm here]
  loops := rfl
  queue := ⟨[], (List.append_nil _).symm, Nat.le_refl 0, by simp⟩

/-- What is done to the trigger of an index may be said of the one that stands there. -/
theorem handled_only_congr {n index : Nat} {f g : Slot → Slot} (h : Handled n (only index f) s t)
    (same : ∀ a, s.slots[index]? = some a → g a = f a) : Handled n (only index g) s t := by
  refine h.congr fun i a found => ?_
  rw [only, only]
  split
  · rename_i here
    exact same a (here ▸ found)
  · rfl

theorem handled_only_of_quiet {index : Nat} {g : Slot → Slot} (quiet : Quiet s t) (answers : t.answers = s.answers)
    (still : ∀ a, s.slots[index]? = some a → g a = a) : Handled 0 (only index g) s t := by
  have alone : Handled 0 (only index id) s t := (Handled.of_quiet quiet answers).congr fun i a _ => ite_self a
  exact handled_only_congr alone still

theorem handled_modifySlot_of_quiet (index : Nat) (f : Slot → Slot) (quiet : Quiet s t)
    (answers : t.answers = s.answers) : Handled 0 (only index f) s (t.modifySlot index f) :=
  (Handled.of_quiet quiet answers).trans (handled_modifySlot index f t)

/-- A check that ends normally follows the condition of its trigger. -/
theorem ends_check_handled (index : Nat) :
    Ends (fun _ t => Handled 1 (only index fun a => a.edge (e.holds s a)) s t) (Onward s) (e.check index) s := by
  rw [check, ends_bind, ends_get]
  split
  · rename_i missing
    refine (handled_only_of_quiet (.refl s) rfl fun a found => ?_).mono (Nat.zero_le 1)
    cases missing.symm.trans found
  · rename_i a found
    -- the trigger of the index is the one that the check reads
    have here {f : Slot → Slot} (is : a.edge (e.holds s a) = f a) (b : Slot) (found' : s.slots[index]? = some b) :
        b.edge (e.holds s b) = f b := Option.some.inj (found.symm.trans found') ▸ is
    split
    · rename_i off
      have still := handled_only_of_quiet (.refl s) rfl (here (f := id) (Slot.edge_of_disabled _ off))
      exact still.mono (Nat.zero_le 1)
    · rename_i on
      have on : a.disabled = false := by simpa using on
      rw [ends_bind]
      refine (ends_conditionHolds_holds a).mono ?_ fun _ h => h.onward
      rintro truth t ⟨rfl, quiet, answers⟩
      split
      · rename_i rises
        have fired : Handled 0 (only index fun a => a.edge (e.holds s a)) s
            (t.modifySlot index fun a => { a with fired := true, fireCount := a.fireCount + 1 }) :=
          handled_only_congr (handled_modifySlot_of_quiet index _ quiet answers)
            (here (Slot.edge_of_rise on rises))
        rw [ends_bind, ends_modify]
        refine (ends_execute_handled a).mono ?_ ?_
        · intro _ u h
          exact fired.trans h
        · intro u h
          exact (fired.onward (later_only (fun b => Slot.later_edge _ b) index)
            (disabled_only (fun b => Slot.disabled_edge _ b) index)).trans h
      · rename_i level
        split
        · rename_i falls
          have back := handled_only_congr (handled_modifySlot_of_quiet index ({ · with fired := false }) quiet answers)
            (here (Slot.edge_of_fall on falls))
          exact back.mono (Nat.zero_le 1)
        · rename_i flat
          have level : a.fired = e.holds s a := by
            cases truth : e.holds s a <;> cases fired : a.fired <;> simp [truth, fired] at level flat ⊢
          have still := handled_only_of_quiet quiet answers (here (f := id) (Slot.edge_of_level level))
          exact still.mono (Nat.zero_le 1)

/-- Handling the triggers one after the other handles each of them once, on the same answers. -/
theorem ends_forM_range {f : Nat → Act PUnit} {g : Slot → Slot} (later : ∀ a : Slot, a.Later (g a))
    (disabled : ∀ a : Slot, (g a).disabled = a.disabled)
    (step : ∀ i t, t.answers = s.answers → Ends (fun _ u => Handled 1 (only i g) t u) (Onward t) (f i) t)
    (n : Nat) :
    Ends (fun _ t => Handled n (fun i a => if i < n then g a else a) s t) (Onward s)
      ((List.range n).forM f) s := by
  have laterBelow (n : Nat) (i : Nat) (a : Slot) : a.Later (if i < n then g a else a) := by
    split
    · exact later a
    · exact .refl a
  have disabledBelow (n : Nat) (i : Nat) (a : Slot) : (if i < n then g a else a).disabled = a.disabled := by
    split
    · exact disabled a
    · rfl
  induction n with
  | zero => exact (Handled.of_quiet (.refl s) rfl).congr fun i a _ => if_neg (Nat.not_lt_zero i)
  | succ n ih =>
    rw [List.range_succ, List.forM_eq_forM, List.forM_append, ends_bind]
    refine ih.mono ?_ fun _ h => h
    intro _ t h
    have onward := h.onward (laterBelow n) (disabledBelow n)
    rw [List.forM_cons, ends_bind]
    refine (step n t h.answers).mono ?_ fun u h' => onward.trans h'
    intro _ u h'
    refine (h.trans h').congr fun i a found => ?_
    simp only [only]
    rcases Nat.lt_trichotomy i n with before | rfl | after
    · simp [before, Nat.lt_succ_of_lt before, Nat.ne_of_lt before]
    · simp
    · simp [Nat.not_lt.mpr (Nat.le_of_lt after), Nat.not_lt.mpr (Nat.succ_le_of_lt after), Nat.ne_of_gt after]

theorem ends_forM_slots {f : Nat → Act PUnit} {g : Slot → Slot} (later : ∀ a : Slot, a.Later (g a))
    (disabled : ∀ a : Slot, (g a).disabled = a.disabled)
    (step : ∀ i t, t.answers = s.answers → Ends (fun _ u => Handled 1 (only i g) t u) (Onward t) (f i) t) :
    Ends (fun _ t => Handled s.slots.length (fun _ => g) s t) (Onward s)
      ((List.range s.slots.length).forM f) s := by
  refine (ends_forM_range later disabled step s.slots.length).mono ?_ fun _ h => h
  intro _ t h
  refine h.congr fun i a found => ?_
  obtain ⟨bound, -⟩ := List.getElem?_eq_some_iff.mp found
  rw [if_pos bound]

/-- Checking all triggers follows the conditions of all of them, and each may queue one write. -/
theorem ends_dispatch_handled :
    Ends (fun _ t => Handled s.slots.length (fun _ a => a.edge (e.holds s a)) s t) (Onward s) e.dispatch s := by
  rw [dispatch, ends_bind, ends_get]
  refine ends_forM_slots (fun a => Slot.later_edge _ a) (fun a => Slot.disabled_edge _ a) ?_
  intro index t answers
  refine (ends_check_handled index).mono ?_ fun _ h => h
  intro _ u h
  refine h.congr fun i a _ => ?_
  simp only [only, holds_congr answers rfl]

theorem ends_prime_handled :
    Ends (fun _ t => Handled s.slots.length (fun _ a => a.primed (e.holds s a)) s t) (Onward s) e.prime s := by
  rw [prime, ends_bind, ends_get]
  refine ends_forM_slots (fun a => Slot.later_primed _ a) (fun a => Slot.disabled_primed _ a) ?_
  intro index t answers
  rw [ends_bind, ends_get]
  split
  · rename_i missing
    refine (handled_only_of_quiet (.refl t) rfl fun a found => ?_).mono (Nat.zero_le 1)
    cases missing.symm.trans found
  · rename_i a found
    split
    · rename_i off
      refine (handled_only_of_quiet (.refl t) rfl fun b found' => ?_).mono (Nat.zero_le 1)
      cases found.symm.trans found'
      exact if_pos off
    · rename_i on
      rw [ends_bind]
      refine (ends_conditionHolds_holds a).mono ?_ fun _ h => h.onward
      rintro truth u ⟨rfl, quiet, same⟩
      have noted := handled_modifySlot_of_quiet index ({ · with fired := e.holds t a }) quiet same
      refine (handled_only_congr noted fun b found' => ?_).mono (Nat.zero_le 1)
      cases found.symm.trans found'
      rw [Slot.primed, if_neg on, holds_congr answers rfl]

/-- Taking note of the conditions records no action and queues no write. -/
theorem preserves_prime (s : Session) :
    Preserves (fun t => t.history = s.history ∧ t.queue = s.queue ∧ t.listeners = s.listeners) e.prime := by
  rw [prime]
  refine guards_get.bind fun _ => .forM fun index _ => guards_get.bind fun t => ?_
  split
  · exact guards_pure _
  · split
    · exact guards_pure _
    · rename_i a _ _
      refine Guards.bind ?_ fun holds => guards_modify fun _ h => h
      rintro t ⟨history, queue, listeners⟩
      have kept {u : Session} (quiet : Quiet t u) :
          u.history = s.history ∧ u.queue = s.queue ∧ u.listeners = s.listeners :=
        ⟨quiet.history.trans history, quiet.queue.trans queue, quiet.listeners.trans listeners⟩
      refine (ends_conditionHolds_holds a).mono ?_ fun _ => kept
      rintro _ u ⟨-, quiet, -⟩
      exact kept quiet

end Engine

/-! ## Switching a trigger off -/

/-- Labels tell triggers apart: the numeral in front ends where the bracket closes. -/
theorem Slot.index_of_label {a b : Slot} (same : a.label = b.label) : a.index = b.index := by
  have front (n : Nat) (name : List Char) :
      (Nat.toDigits 10 n ++ ']' :: name).takeWhile Char.isDigit = Nat.toDigits 10 n := by
    rw [List.takeWhile_append_of_pos fun c mem => Nat.isDigit_of_mem_toDigits (by decide) (Nat.le_refl 10) mem]
    simp
  have digits (c : Slot) : ∃ name, c.label.toList = "trigger[".toList ++ (Nat.toDigits 10 c.index ++ ']' :: name) :=
    ⟨':' :: c.name.toList, by simp [Slot.label, toString, Nat.repr_eq_ofList_toDigits]⟩
  obtain ⟨name, ha⟩ := digits a
  obtain ⟨other, hb⟩ := digits b
  rw [same] at ha
  have rest := List.append_cancel_left (ha.symm.trans hb)
  have numerals := congrArg (List.takeWhile Char.isDigit) rest
  rw [front, front] at numerals
  rw [← Nat.ofDigitChars_ten_toDigits (n := a.index), numerals, Nat.ofDigitChars_ten_toDigits]

namespace Session

/-- Triggers are numbered by their places. -/
def Indexed (s : Session) : Prop := ∀ (i : Nat) (a : Slot), s.slots[i]? = some a → a.index = i

variable {s t : Session}

theorem Indexed.onward (indexed : s.Indexed) (h : Onward s t) : t.Indexed := by
  intro i b found
  obtain ⟨a, found'⟩ := exists_slot_of_length h.length.symm found
  rw [(h.later found' found).index]
  exact indexed i a found'

/-- A trigger is switched off and its waiting writes are dropped. -/
structure Dropped (index : Nat) (s t : Session) : Prop where
  answers : t.answers = s.answers
  slots : t.slots = s.slots.modify index ({ · with disabled := true })
  queue : t.queue = s.queue.filter (·.origin != some index)
  onward : Onward s t

theorem modify_slot {index i : Nat} {f : Slot → Slot} {a b : Slot} (slots : t.slots = s.slots.modify index f)
    (found : s.slots[i]? = some a) (found' : t.slots[i]? = some b) : b = if index = i then f a else a := by
  rw [slots, List.getElem?_modify, found] at found'
  split at found'
  · rename_i here
    rw [if_pos here]
    exact (Option.some.inj found').symm
  · rename_i here
    rw [if_neg here]
    exact (Option.some.inj found').symm

end Session

open Session (Indexed Dropped)

namespace Engine

variable {e : Engine} {s : Session}

/-- Switching off what is off changes nothing. -/
theorem modify_disabled_of_off {slots : List Slot} {index : Nat}
    (off : ∀ a, slots[index]? = some a → a.disabled = true) :
    slots.modify index ({ · with disabled := true }) = slots := by
  refine List.ext_getElem? fun i => ?_
  rw [List.getElem?_modify]
  cases found : slots[i]? with
  | none => rfl
  | some a =>
    by_cases here : index = i
    · have off : a.disabled = true := off a (here ▸ found)
      cases a
      simp_all
    · simp [here]

/-- Switching a trigger off reports it, unless it is off already. -/
theorem ends_disableLooping_dropped (indexed : s.Indexed) (index : Nat) (F : Session → Prop) :
    Ends (fun _ t => Dropped index s t) F (e.disableLooping index) s := by
  rw [disableLooping, ends_modify]
  simp only
  split
  · rename_i missing
    refine ⟨rfl, (modify_disabled_of_off fun a found => ?_).symm, rfl, ?_⟩
    · cases missing.symm.trans found
    · exact .of_slots rfl rfl
  · rename_i a found
    split
    · rename_i off
      refine ⟨rfl, (modify_disabled_of_off fun b found' => ?_).symm, rfl, ?_⟩
      · cases found.symm.trans found'
        exact off
      · exact .of_slots rfl rfl
    · rename_i on
      have on : a.disabled = false := by simpa using on
      refine ⟨rfl, rfl, rfl, List.length_modify _ _ _, ?_, ?_⟩
      · intro i b c before after
        rw [Session.modify_slot rfl before after]
        split
        · rename_i here
          cases found.symm.trans (here ▸ before)
          exact ⟨rfl, fun off => absurd (on.symm.trans off) (by decide)⟩
        · exact .refl b
      · intro i b c before after
        rw [Session.modify_slot rfl before after]
        refine (Session.loopReports_report rfl (s.modifySlot index ({ · with disabled := true })) b.label).trans ?_
        refine congrArg (s.loopReports b.label + ·) ?_
        by_cases here : index = i
        · cases found.symm.trans (here ▸ before)
          simp [here, on]
        · have other : a.label ≠ b.label := by
            intro same
            refine here ?_
            rw [← indexed index a found, ← indexed i b before, Slot.index_of_label same]
          simp [here, other]

end Engine

/-! ## Triggers of a session that starts -/

theorem Diagnostic.Authored.isLoop {d : Diagnostic} (h : d.Authored) : d.isLoop = false := by
  rw [Diagnostic.isLoop, Problem.kindName.eq_def]
  rcases h with ⟨error, found⟩ | ⟨error, found⟩
  · rw [found]
    cases error <;> rfl
  · rw [found]
    rfl

namespace Session

/-- No trigger acted so far, nor was any reported for writing too often. -/
structure Fresh (s : Session) : Prop where
  indexed : s.Indexed
  fireCount : ∀ a ∈ s.slots, a.fireCount = 0
  history : s.history = []
  listeners : s.listeners = []
  queue : s.queue = []
  loops : s.loops = []

end Session

namespace Engine

variable {e : Engine}

theorem fresh_opening {bindings : List Binding} {problems : List Diagnostic}
    {slots : List (Slot × List Diagnostic)} (dependencies : e.dependencies = .ofBindings bindings)
    (sources : ∀ d ∈ problems, ∃ error, d.problem = .source error)
    (each : (e.survey.triggers.mapIdx Slot.ofTrigger).mapM id = .ok slots) (given : Fields) (navigator : Bool) :
    (e.opening problems slots given navigator).Fresh := by
  refine ⟨?_, ?_, rfl, rfl, rfl, ?_⟩
  · intro i a found
    obtain ⟨c, mem, rfl⟩ := Option.map_eq_some_iff.mp ((List.getElem?_map ..).symm.trans found)
    obtain ⟨_, -, reads⟩ := Slot.reads_of_getElem? each mem
    exact reads.index
  · intro a mem
    obtain ⟨c, mem', rfl⟩ := List.mem_map.mp mem
    obtain ⟨_, _, -, reads⟩ := Slot.reads_of_mem each mem'
    exact reads.fireCount
  · rw [Session.loops, List.filter_eq_nil_iff]
    intro d hd
    rw [Bool.not_eq_true]
    rcases opening_reports dependencies sources each d hd with authored | ⟨_, _, _, cycle⟩
    · exact authored.isLoop
    · rw [Diagnostic.isLoop, cycle]
      rfl

/-- Every trigger in use is fired if its condition is true on the current answers, and armed if it is not. -/
def InStep (e : Engine) (s : Session) : Prop :=
  ∀ (i : Nat) (a : Slot), s.slots[i]? = some a → a.disabled = false → a.fired = e.holds s a

theorem ends_applyAll_primed {s : Session} (fresh : s.Fresh) :
    Ends (fun _ t => t.Fresh ∧ e.InStep t) (fun _ => True) e.applyAll s := by
  have swept : Preserves (Quiet s) (do e.settle (← e.sweep [] [] e.dependencies.ordered)) :=
    (bears_quiet.covers.sweep (fun _ _ => trivial) [] []).bind fun stale => quiet_settle stale
  have same : e.applyAll = ((do e.settle (← e.sweep [] [] e.dependencies.ordered)) >>= fun _ => e.prime) := by
    rw [applyAll, bind_assoc]
  rw [same, ends_bind]
  refine (swept s (.refl s)).mono ?_ fun _ _ => trivial
  intro _ u quiet
  refine ((ends_prime_handled (s := u)).and (preserves_prime u u ⟨rfl, rfl, rfl⟩)).mono ?_ fun _ _ => trivial
  rintro _ t ⟨handled, history, queue, listeners⟩
  have onward := quiet.onward.trans
    (handled.onward (fun _ a => Slot.later_primed _ a) fun _ a => Slot.disabled_primed _ a)
  have slot {i : Nat} {b : Slot} (found : t.slots[i]? = some b) :
      ∃ a, s.slots[i]? = some a ∧ b = a.primed (e.holds u a) := by
    rw [handled.slots, quiet.slots] at found
    obtain ⟨a, found', is⟩ := Option.map_eq_some_iff.mp found
    exact ⟨a, found', is.symm⟩
  refine ⟨⟨fresh.indexed.onward onward, ?_, history.trans (quiet.history.trans fresh.history),
    listeners.trans (quiet.listeners.trans fresh.listeners), queue.trans (quiet.queue.trans fresh.queue),
    handled.loops.trans (quiet.loops.trans fresh.loops)⟩, ?_⟩
  · intro b mem
    obtain ⟨i, found⟩ := List.getElem?_of_mem mem
    obtain ⟨a, found', rfl⟩ := slot found
    have zero := fresh.fireCount a (List.mem_of_getElem? found')
    rw [Slot.primed]
    split <;> exact zero
  · intro i b found on
    obtain ⟨a, -, rfl⟩ := slot found
    rw [Slot.disabled_primed] at on
    rw [holds_congr handled.answers (Slot.later_primed _ a).condition, Slot.primed, if_neg (by simp [on])]

/-- A session starts with all conditions noted and no action taken. -/
theorem primed_of_start {survey : Survey} {settings : Settings} {given : Fields} {navigator : Bool} {s : Session}
    (h : start survey settings given navigator = .ok (e, s)) : s.Fresh ∧ e.InStep s := by
  obtain ⟨bindings, problems, slots, bound, each, rfl, ended⟩ := start_ok h
  have fresh := fresh_opening (e := ofBindings survey settings bindings) rfl
    (Survey.compiles_of_bindings bound).sources each given navigator
  exact (ends_applyAll_primed fresh).of_ok ended

end Engine

end Questionnaire
