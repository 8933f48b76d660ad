import Questionnaire.Proofs.Session.Act
import Questionnaire.Session.Start

/-!
# Settling, firing and emptying the queue, step by step

Settling evaluates parts of bindings, stores answers, sets flags and switches bindings off.  Checking triggers notes
their edges, records what they do and queues what they write.  Emptying the queue takes a write, makes it or switches
its trigger off, and goes on.  Serving listeners tells them, lets them write in turn and ends subscriptions.  Whatever
each of these steps keeps is kept by all of it, and a fault can only be one of its steps.
-/
namespace Questionnaire

open Act

/-- The expressions of a binding. -/
def Binding.expressions (b : Binding) : List Expr := b.expression :: b.gate.toList

/-- The expression of a part of a binding. -/
def Binding.at? (b : Binding) : Part → Option Expr
  | .expression => some b.expression
  | .gate => b.gate

theorem Binding.mem_expressions (b : Binding) {part : Part} {x : Expr} (own : x ∈ b.at? part) : x ∈ b.expressions := by
  cases part with
  | expression =>
    obtain rfl : b.expression = x := Option.some.inj own
    exact List.mem_cons_self
  | gate => exact List.mem_cons_of_mem _ (Option.mem_toList.mpr own)

theorem Dependencies.propagation_subset_ordered {d : Dependencies} {changed : List String} {excluded : List Nat} :
    d.propagation changed excluded ⊆ d.ordered :=
  fun _ h => (List.mem_filter.mp h).1

/-- Whether triggers of a kind put writes into the queue. -/
def TriggerKind.writes : TriggerKind → Bool
  | setValue | copyValue | runExpression => true
  | complete | skip => false

namespace Engine

/-! ## Settling -/

/-- The steps of settling belong to a class of actions, as long as they evaluate the parts of used bindings alone. -/
structure Covers (e : Engine) (used : Binding → Prop) (P : {α : Type} → Act α → Prop) : Prop extends Closed P where
  ordered : ∀ b ∈ e.dependencies.ordered, used b
  default : ∀ name b, e.defaults.find? name = some b → used b
  value : ∀ b, used b → ∀ part, ∀ x ∈ b.at? part, P (e.partValue b part x)
  store : ∀ key v, P (store key v)
  flag : ∀ b flag, P (setFlag b flag)
  unstable : ∀ b, P (e.disableUnstable b)

namespace Covers

variable {e : Engine} {used : Binding → Prop} {P : {α : Type} → Act α → Prop} (covers : e.Covers used P)
include covers

section

variable {b : Binding} (use : used b)
include use

theorem expression : P (e.partValue b .expression b.expression) := covers.value b use .expression _ rfl

theorem holds (part : Part) {x : Expr} (own : x ∈ b.at? part) : P (e.partHolds b part x) := by
  rw [partHolds]
  exact covers.bind (covers.value b use part x own) fun v => covers.pure v.truthy

end

theorem defaultOf (name : String) : P (e.defaultOf name) := by
  rw [Engine.defaultOf]
  split
  · exact covers.pure _
  · rename_i b found
    refine covers.bind covers.get fun t => ?_
    split
    · exact covers.pure _
    · exact covers.bind (covers.expression (covers.default name b found)) fun v => covers.pure _

theorem apply {b : Binding} (use : used b) : P (e.apply b) := by
  have condition : P (e.partHolds b .expression b.expression) := covers.holds use .expression rfl
  have storing {v : Act Value} (hv : P v) : P (do Engine.store (.text b.owner) (← v)) :=
    covers.bind hv fun v => covers.store _ v
  rw [Engine.apply]
  split
  case h_1 | h_2 | h_3 =>
    exact covers.bind condition fun holds => covers.bind (covers.flag b _) fun _ => covers.pure false
  case h_4 =>
    have opened (holds : Bool) : P
        (if holds = true then (do Engine.store (.text b.owner) (← e.partValue b .expression b.expression))
          else pure false) := by
      split
      · exact storing (covers.expression use)
      · exact covers.pure false
    cases gate : b.gate with
    | none => exact opened true
    | some x => exact covers.bind (covers.holds use .gate gate) opened
  case h_5 =>
    refine covers.bind condition fun holds => ?_
    split
    · exact covers.store _ _
    · exact covers.pure false
  case h_6 =>
    refine covers.bind covers.get fun t => ?_
    split
    · exact covers.pure false
    · exact storing (covers.expression use)
  case h_7 =>
    refine covers.bind condition fun holds => covers.bind covers.get fun t => ?_
    split
    · exact storing (covers.defaultOf b.owner)
    · exact covers.pure false

theorem sweep {bs : List Binding} (use : ∀ b ∈ bs, used b) (ran : List Nat) (stale : List String) :
    P (e.sweep ran stale bs) := by
  induction bs generalizing ran stale with
  | nil => exact covers.pure stale
  | cons b rest ih =>
    obtain ⟨first, later⟩ := List.forall_mem_cons.mp use
    rw [Engine.sweep]
    refine covers.bind covers.get fun t => ?_
    split
    · exact ih later ran stale
    · exact covers.bind (covers.apply first) fun changed => ih later _ _

theorem settleWithin (passes : Nat) (pending : List String) : P (e.settleWithin passes pending) := by
  induction passes generalizing pending with
  | zero =>
    rw [Engine.settleWithin]
    split
    · exact covers.pure _
    · refine covers.bind covers.get fun t => ?_
      simp only
      split
      · exact covers.pure _
      · exact covers.forM fun b _ => covers.unstable b
  | succ passes ih =>
    rw [Engine.settleWithin]
    split
    · exact covers.pure _
    · refine covers.bind covers.get fun t => ?_
      simp only
      split
      · exact covers.pure _
      · have use : ∀ b ∈ e.dependencies.propagation pending t.disabled, used b :=
          fun b hb => covers.ordered b (Dependencies.propagation_subset_ordered hb)
        exact covers.bind (covers.sweep use [] []) ih

theorem settle (changed : List String) : P (e.settle changed) := covers.settleWithin _ changed

/-- All bindings are applied in a first sweep. -/
theorem applyAll (prime : P e.prime) : P e.applyAll := by
  rw [Engine.applyAll]
  exact covers.bind (covers.sweep covers.ordered [] []) fun stale => covers.bind (covers.settle stale) fun _ => prime

theorem perform {w : Write} (dispatch : P e.dispatch)
    (target : w.target.key? = none → P (throw .wrongType : Act Unit)) : P (e.perform w) := by
  rw [Engine.perform]
  split
  · rename_i none
    exact target none
  · refine covers.bind (covers.store _ _) fun changed => ?_
    split
    · exact covers.bind (covers.settle _) fun _ => dispatch
    · exact covers.pure _

end Covers

/-- Each step of settling keeps a property, if it evaluates the expressions of used bindings alone. -/
structure Bears (e : Engine) (used : Binding → Prop) (I F : Session → Prop) : Prop where
  ordered : ∀ b ∈ e.dependencies.ordered, used b
  default : ∀ name b, e.defaults.find? name = some b → used b
  value : ∀ b, used b → ∀ part, ∀ x ∈ b.expressions, Guards I F (e.partValue b part x)
  store : ∀ key v, Guards I F (store key v)
  flag : ∀ b flag, Guards I F (setFlag b flag)
  unstable : ∀ b, Guards I F (e.disableUnstable b)

theorem Bears.covers {e : Engine} {used : Binding → Prop} {I F : Session → Prop} (bears : e.Bears used I F) :
    e.Covers used fun x => Guards I F x where
  toClosed := closed_guards I F
  ordered := bears.ordered
  default := bears.default
  value b use part x own := bears.value b use part x (b.mem_expressions own)
  store := bears.store
  flag := bears.flag
  unstable := bears.unstable

/-! ## Checking triggers -/

/-- Where the respondent is led by an event of a trigger. -/
def steer (e : Engine) (a : Slot) (event : Event) (n : Navigator) : Navigator :=
  match event.action with
  | .complete => complete (some a.name) n
  | .skip => e.skip event.target n
  | .setValue | .copyValue | .runExpression => n

theorem steer_of_writes {e : Engine} {a : Slot} {event : Event} (writes : event.action.writes = true) :
    e.steer a event = id := by
  funext n
  unfold steer
  split <;> simp_all [TriggerKind.writes]

/-- Each step of checking triggers, and of switching one off, keeps a property.  What a trigger does is recorded, and
the respondent is led where it says.  What waits afterwards is what waited before, and writes of triggers that are
known. -/
structure Fires (e : Engine) (known : Slot → Prop) (I F : Session → Prop) : Prop where
  fault : ∀ {s}, I s → F s
  slots : ∀ {s}, I s → ∀ a ∈ s.slots, known a
  report : ∀ {s}, I s → ∀ d, I (s.report d)
  noted : ∀ {s}, I s → ∀ index (f : Slot → Slot), (∀ a, (f a).trigger = a.trigger) → I (s.modifySlot index f)
  act : ∀ {s}, I s → ∀ a, known a → ∀ event, event.action = a.trigger.kind →
    I { s with history := s.history ++ [event], navigator := s.navigator.map (e.steer a event) }
  wait : ∀ {s}, I s → ∀ a, known a → a.trigger.kind.writes = true → ∀ v,
    I { s with queue := s.queue ++ [⟨a.trigger.setToName, v, some a.index⟩] }
  drop : ∀ {s}, I s → ∀ queue, queue ⊆ s.queue → I { s with queue }

namespace Fires

variable {e : Engine} {known : Slot → Prop} {I F : Session → Prop} (fires : Fires e known I F)
include fires

theorem evaluate (x : Expr) : Guards I F (e.evaluate x) := by
  rw [Engine.evaluate]
  refine guards_get.bind fun t => ?_
  split
  · exact guards_pure _
  · exact guards_pure _
  · exact guards_throw fun _ => fires.fault

theorem conditionHolds (a : Slot) : Guards I F (e.conditionHolds a) := by
  rw [Engine.conditionHolds]
  split
  · exact guards_pure false
  · refine (fires.evaluate _).bind fun outcome => ?_
    split
    · exact guards_pure _
    · refine Guards.bind (guards_modify fun _ h => ?_) fun _ => guards_pure false
      exact fires.report h _

theorem queueWrite {a : Slot} (mem : known a) (writes : a.trigger.kind.writes = true) (v : Value) :
    Guards I F (queueWrite a v) := by
  have recorded : Guards I F (record a a.trigger.setToName v) := by
    refine guards_modify fun s h => ?_
    have acted := fires.act h a mem ⟨a.trigger.kind, a.trigger.setToName, v⟩ rfl
    rwa [steer_of_writes writes, Option.map_id] at acted
  rw [Engine.queueWrite]
  refine recorded.bind fun _ => ?_
  split
  · exact guards_modify fun _ h => fires.wait h a mem writes v
  · exact guards_pure _

theorem execute {a : Slot} (mem : known a) : Guards I F (e.execute a) := by
  have queued (kind : a.trigger.kind.writes = true) (v : Value) := fires.queueWrite mem kind v
  -- the record and the move are two actions, and only both of them together keep the property
  have led (target : Value) : Guards I F (record a target .undefined >>= fun _ => modify fun s =>
      { s with navigator := s.navigator.map (e.steer a ⟨a.trigger.kind, target, .undefined⟩) }) :=
    fun s h => fires.act h a mem _ rfl
  rw [Engine.execute]
  cases kind : a.trigger.kind with
  | complete | skip =>
    rw [kind] at led
    exact led _
  | setValue => exact queued (by rw [kind]; rfl) _
  | copyValue =>
    refine Guards.bind ?_ fun v => queued (by rw [kind]; rfl) v
    rw [copiedValue]
    refine guards_get.bind fun t => ?_
    split
    · exact guards_pure _
    · exact guards_throw fun _ => fires.fault
  | runExpression =>
    simp only
    split
    · exact guards_pure _
    · refine (fires.evaluate _).bind fun outcome => ?_
      split
      · exact queued (by rw [kind]; rfl) _
      · exact guards_modify fun _ h => fires.report h _

theorem check (index : Nat) : Guards I F (e.check index) := by
  intro s hs
  rw [Engine.check, ends_bind, ends_get]
  split
  · exact hs
  · rename_i a found
    have mem : known a := fires.slots hs a (List.mem_of_getElem? found)
    split
    · exact hs
    · refine ((fires.conditionHolds a).bind fun holds => ?_) s hs
      split
      · refine Guards.bind (guards_modify fun _ h => fires.noted h index _ ?_) fun _ => fires.execute mem
        exact fun _ => rfl
      · split
        · refine guards_modify fun _ h => fires.noted h index _ ?_
          exact fun _ => rfl
        · exact guards_pure _

theorem dispatch : Guards I F e.dispatch := by
  rw [Engine.dispatch]
  exact guards_get.bind fun t => .forM fun index _ => fires.check index

theorem prime : Guards I F e.prime := by
  rw [Engine.prime]
  refine guards_get.bind fun t => .forM fun index _ => guards_get.bind fun u => ?_
  split
  · exact guards_pure _
  · rename_i a found
    split
    · exact guards_pure _
    · refine (fires.conditionHolds a).bind fun holds => guards_modify fun _ h => fires.noted h index _ ?_
      exact fun _ => rfl

theorem disableLooping (index : Nat) : Guards I F (e.disableLooping index) := by
  rw [Engine.disableLooping]
  refine guards_modify fun s hs => ?_
  have dropped {t : Session} (ht : I t) : I { t with queue := t.queue.filter (·.origin != some index) } :=
    fires.drop ht _ List.filter_sublist.subset
  simp only
  split
  · exact dropped hs
  · split
    · exact dropped hs
    · refine dropped (fires.report (fires.noted hs index _ ?_) _)
      exact fun _ => rfl

end Fires

/-! ## Emptying the queue -/

/-- Emptying the queue keeps what taking a write, making it and switching its trigger off keep. -/
theorem guards_drainWithin {e : Engine} {I F : Session → Prop} (waits : Write → Prop)
    (waiting : ∀ s, I s → ∀ w ∈ s.queue, waits w)
    (taken : ∀ s w rest, I s → s.queue = w :: rest → I { s with queue := rest })
    (perform : ∀ w, waits w → Guards I F (e.perform w)) (off : ∀ index, Guards I F (e.disableLooping index))
    (steps made : Nat) : Guards I F (e.drainWithin steps made) := by
  induction steps generalizing made with
  | zero => exact guards_pure _
  | succ steps ih =>
    intro s hs
    rw [drainWithin, ends_bind, ends_get]
    split
    · exact hs
    · rename_i w rest first
      have performed (made : Nat) : Guards I F (e.perform w >>= fun _ => e.drainWithin steps made) :=
        (perform w (waiting s hs w (first ▸ List.mem_cons_self))).bind fun _ => ih made
      have rested := taken s w rest hs first
      rw [ends_bind, ends_set]
      split
      · exact performed made _ rested
      · split
        · exact ih made _ rested
        · split
          · exact ((off _).bind fun _ => ih _) _ rested
          · exact performed (made + 1) _ rested

end Engine

/-! ## Serving listeners -/

/-- The session with a write of the host behind those that wait. -/
def Session.ask (s : Session) (target value : Value) : Session :=
  { s with queue := s.queue ++ [({ target, value, origin := none } : Write)] }

namespace Engine

section

variable {P : {α : Type} → Act α → Prop} (closed : Closed P) {write : (target value : Value) → Act Unit}
  (cancelled : ∀ id, P (modify (unsubscribe id) : Act Unit))
include closed cancelled

/-- What a listener does belongs to a class of actions, if what it may do one after the other does. -/
theorem closed_react {listener : Listener} (nested : ∀ w ∈ listener.writes, P (write w.1 w.2)) :
    P (react write listener) := by
  rw [react]
  cases listener.cancels with
  | none =>
    cases writes : listener.writes with
    | none => exact closed.pure _
    | some w => exact closed.bind (nested w writes) fun _ => closed.pure _
  | some id =>
    cases writes : listener.writes with
    | none => exact cancelled id
    | some w => exact closed.bind (nested w writes) fun _ => cancelled id

variable (raised : ∀ f, P (throw f : Act Unit))
include raised

theorem closed_tell {keys : List Key} {listener : Listener}
    (told : ∀ id, P (modify fun s => { s with notified := s.notified ++ [(id, keys)] } : Act Unit))
    (nested : ∀ w ∈ listener.writes, P (write w.1 w.2)) : P (tell write keys listener) := by
  rw [tell]
  refine closed.bind (told _) fun _ => ?_
  split
  · exact raised _
  · split
    · exact closed_react closed cancelled nested
    · exact closed.pure _

/-- No listener is handed a key that was not in the set at first. -/
theorem closed_tellAll {keys : List Key} {listeners : List Listener}
    (told : ∀ handed ⊆ keys, ∀ id,
      P (modify fun s => { s with notified := s.notified ++ [(id, handed)] } : Act Unit))
    (nested : ∀ l ∈ listeners, ∀ w ∈ l.writes, P (write w.1 w.2)) : P (tellAll write keys listeners) := by
  induction listeners generalizing keys with
  | nil => exact closed.pure _
  | cons listener rest ih =>
    obtain ⟨first, later⟩ := List.forall_mem_cons.mp nested
    rw [tellAll]
    refine closed.bind (closed_tell closed cancelled raised (told keys (List.Subset.refl _)) first) fun _ => ?_
    exact ih (fun handed part => told handed (List.Subset.trans part List.filter_sublist.subset)) later

end

section

variable {e : Engine} {s t : Session} {target v : Value}

/-- Listeners are told when the queue is empty. -/
theorem writeWithin_succ (depth : Nat) :
    e.writeWithin (depth + 1) target v s = (e.drain >>= fun _ => do
      let after ← get
      if (e.changes s after).isEmpty then return
      tellAll (e.writeWithin depth) (e.changes s after) after.listeners) (s.ask target v) := rfl

theorem writeWithin_of_drained (depth : Nat) (drained : e.drain (s.ask target v) = .ok ⟨⟩ t) :
    e.writeWithin (depth + 1) target v s =
      if (e.changes s t).isEmpty then .ok ⟨⟩ t else tellAll (e.writeWithin depth) (e.changes s t) t.listeners t := by
  rw [writeWithin_succ, bind_eq_of_ok drained, get_bind]
  split <;> rfl

end

/-- A property that emptying the queue keeps after a write of some targets, to which the writes of listeners go, and
that neither telling a listener nor ending a subscription changes. -/
structure Serves (e : Engine) (wanted : Value → Prop) (I F : Session → Prop) : Prop where
  fault : ∀ {s}, I s → F s
  drain : ∀ {s}, I s → ∀ target, wanted target → ∀ v, Ends (fun _ => I) F e.drain (s.ask target v)
  told : ∀ {s}, I s → ∀ id keys, I { s with notified := s.notified ++ [(id, keys)] }
  cancelled : ∀ {s}, I s → ∀ id, I (unsubscribe id s)
  heard : ∀ {s}, I s → ∀ l ∈ s.listeners, ∀ w ∈ l.writes, wanted w.1

namespace Serves

variable {e : Engine} {wanted : Value → Prop} {I F : Session → Prop} (serves : e.Serves wanted I F)
include serves

/-- What emptying the queue after a write left is kept by telling all listeners. -/
theorem writeWithin_succ {depth : Nat} {s : Session} {target v : Value}
    (nested : ∀ target, wanted target → ∀ v, Guards I F (e.writeWithin depth target v))
    (drained : Ends (fun _ => I) F e.drain (s.ask target v)) :
    Ends (fun _ => I) F (e.writeWithin (depth + 1) target v) s := by
  rw [Ends, Engine.writeWithin_succ, ← Ends, ends_bind]
  refine drained.mono (fun _ t ht => ?_) fun _ h => h
  rw [ends_bind, ends_get]
  split
  · exact ht
  · refine closed_tellAll (closed_guards I F) ?cancelled ?raised ?told ?nested t ht
    case cancelled => exact fun id => guards_modify fun _ h => serves.cancelled h id
    case raised => exact fun f => guards_throw fun _ => serves.fault
    case told => exact fun handed _ id => guards_modify fun _ h => serves.told h id handed
    case nested => exact fun l mem w writes => nested _ (serves.heard ht l mem w writes) _

/-- A write with all that listeners write in turn keeps such a property. -/
theorem writeWithin (depth : Nat) {target : Value} (host : wanted target) (v : Value) :
    Guards I F (e.writeWithin depth target v) := by
  induction depth generalizing target v with
  | zero => exact guards_throw fun _ => serves.fault
  | succ depth ih => exact fun s hs => serves.writeWithin_succ (fun _ => ih) (serves.drain hs target host v)

end Serves

end Engine

end Questionnaire
