import Questionnaire.Proofs.Session.Escapes
import Questionnaire.Proofs.Session.Journey

/-!
# The evaluations of a session

Whatever a session does, it does by evaluating the parts of bindings, one at a time, and by actions that leave the
notes on failing evaluations alone.  `Traced x s log a t` says that the action `x`, begun in `s`, ends with `a` in `t`,
and that `log` lists the evaluations on the way, in their order and each with the session in which it is made.  Every
action of a session that ends normally has such a log.  An evaluation cannot pass in it for an action that leaves the
notes alone: none does so in every session.
-/
namespace Questionnaire

open Act

/-- An evaluation of a part of a binding. -/
structure Evaluation where
  binding : Binding
  part : Part
  expression : Expr
  /-- The session in which it is made. -/
  session : Session

/-- An action leaves the notes on failing evaluations alone, however it ends. -/
def Act.Silent {α : Type} (x : Act α) : Prop := ∀ noted, Preserves (fun s => s.failing = noted) x

namespace Engine

/-- An action that ends normally, with the evaluations that it makes. -/
inductive Traced (e : Engine) : {α : Type} → Act α → Session → List Evaluation → α → Session → Prop
  | silent {α : Type} {x : Act α} {s t : Session} {a : α} : x.Silent → x s = .ok a t → Traced e x s [] a t
  | value {b : Binding} {part : Part} {x : Expr} {s t : Session} {v : Value} :
      b ∈ e.dependencies.accepted → b.at? part = some x → e.partValue b part x s = .ok v t →
      Traced e (e.partValue b part x) s [⟨b, part, x, s⟩] v t
  | bind {α β : Type} {x : Act α} {f : α → Act β} {s t u : Session} {log later : List Evaluation} {a : α} {b : β} :
      Traced e x s log a t → Traced e (f a) t later b u → Traced e (x >>= f) s (log ++ later) b u

/-- Wherever an action ends normally it has a log. -/
def Traces (e : Engine) {α : Type} (x : Act α) : Prop := ∀ s a t, x s = .ok a t → ∃ log, e.Traced x s log a t

end Engine

/-! ## Actions without evaluations -/

namespace Act

theorem closed_silent : Closed fun x => x.Silent where
  pure a _ := guards_pure a
  get _ := guards_get
  bind first later noted := (first noted).bind fun a => later a noted

theorem silent_modify {f : Session → Session} (kept : ∀ s, (f s).failing = s.failing) :
    Silent (modify f : Act PUnit) := by
  intro noted
  refine guards_modify ?_
  exact fun s h => (kept s).trans h

theorem silent_throw {α : Type} (f : Fault) : Silent (throw f : Act α) := fun _ => guards_throw fun _ h => h

end Act

namespace Engine

variable {e : Engine}

theorem silent_store (key : Key) (v : Value) : (store key v).Silent := by
  intro noted s h
  exact ends_store.mpr h

theorem silent_setFlag (b : Binding) (flag : Flags → Flags) : (setFlag b flag).Silent := silent_modify fun _ => rfl

theorem silent_disableUnstable (b : Binding) : (e.disableUnstable b).Silent := silent_modify fun _ => rfl

/-- Triggers have expressions of their own, whose failures are not noted. -/
theorem fires_noted (noted : List ((Nat × Part) × EvalKind)) :
    Fires e (fun _ => True) (fun s => s.failing = noted) fun s => s.failing = noted where
  fault h := h
  slots _ _ _ := trivial
  report h _ := h
  noted h _ _ _ := h
  act h _ _ _ _ := h
  wait h _ _ _ _ := h
  drop h _ _ := h

theorem silent_prime : e.prime.Silent := fun noted => (fires_noted noted).prime

theorem silent_dispatch : e.dispatch.Silent := fun noted => (fires_noted noted).dispatch

theorem silent_disableLooping (index : Nat) : (e.disableLooping index).Silent := fun noted =>
  (fires_noted noted).disableLooping index

/-! ## An evaluation and the notes -/

/-- The failure that an expression ends with on the current answers, if it fails. -/
def failure? (e : Engine) (x : Expr) (s : Session) : Option EvalError :=
  match x.evaluate (e.context s) with
  | .error (.error failure) => some failure
  | _ => none

/-- Takes note of how the evaluation of a part of a binding ended. -/
def note (b : Binding) (part : Part) : Option EvalError → Session → Session
  | some failure => reportFailure b part failure
  | none => clearFailure b part

section

variable {b : Binding} {part : Part} {x : Expr} {s t : Session} {v : Value}

/-- An evaluation does the same on the same answers: it takes note of how it ends. -/
theorem partValue_of_answers (run : e.partValue b part x s = .ok v t) {s' : Session} (same : s'.answers = s.answers) :
    e.partValue b part x s' = .ok v (note b part (e.failure? x s) s') := by
  have context : e.context s' = e.context s := by rw [Engine.context, same, Engine.context]
  rw [partValue, evaluate] at run ⊢
  simp only [bind_assoc, get_bind, context, failure?] at run ⊢
  cases outcome : x.evaluate (e.context s) with
  | ok w =>
    rw [outcome] at run
    cases run
    rfl
  | error stop =>
    rw [outcome] at run
    cases stop with
    | error failure =>
      cases run
      rfl
    | fault f => cases run

theorem eq_note_of_partValue (run : e.partValue b part x s = .ok v t) : t = note b part (e.failure? x s) s := by
  cases run.symm.trans (partValue_of_answers run rfl)
  rfl

theorem lookup_cons_of_ne {key asked : Nat × Part} (differs : asked ≠ key) (kind : EvalKind)
    (notes : List ((Nat × Part) × EvalKind)) : ((key, kind) :: notes).lookup asked = notes.lookup asked := by
  rw [List.lookup_cons, beq_false_of_ne differs]

theorem lookup_filter_ne (key asked : Nat × Part) (notes : List ((Nat × Part) × EvalKind)) :
    (notes.filter (·.1 != key)).lookup asked = if asked = key then none else notes.lookup asked := by
  induction notes with
  | nil => exact (ite_self none).symm
  | cons first rest ih =>
    obtain ⟨other, kind⟩ := first
    by_cases same : other = key
    · subst same
      rw [List.filter_cons_of_neg (by simp), ih]
      by_cases here : asked = other
      · rw [if_pos here, if_pos here]
      · rw [if_neg here, if_neg here, lookup_cons_of_ne here]
    · rw [List.filter_cons_of_pos (by simpa using same)]
      by_cases here : asked = other
      · subst here
        rw [if_neg same, List.lookup_cons_self, List.lookup_cons_self]
      · rw [lookup_cons_of_ne here, lookup_cons_of_ne here, ih]

/-- Of the part that was evaluated it is noted how that ended, and of all others what was noted before. -/
theorem lookup_note (outcome : Option EvalError) (s : Session) (asked : Nat × Part) :
    (note b part outcome s).failing.lookup asked =
      if asked = (b.order, part) then outcome.map (·.kind) else s.failing.lookup asked := by
  cases outcome with
  | none => exact lookup_filter_ne _ _ _
  | some failure =>
    rw [note, reportFailure]
    split
    · rename_i noted
      by_cases here : asked = (b.order, part)
      · rw [if_pos here, here]
        exact eq_of_beq noted
      · rw [if_neg here]
    · show (((b.order, part), failure.kind) :: s.failing.filter (·.1 != (b.order, part))).lookup asked = _
      by_cases here : asked = (b.order, part)
      · rw [if_pos here, here, List.lookup_cons_self]
        rfl
      · rw [if_neg here, lookup_cons_of_ne here, lookup_filter_ne, if_neg here]

/-- An evaluation that ends normally leaves other notes than before in some session, so it is not silent. -/
theorem not_silent_partValue (run : e.partValue b part x s = .ok v t) : ¬ (e.partValue b part x).Silent := by
  intro silent
  have kept (noted : List ((Nat × Part) × EvalKind)) :
      noted.lookup (b.order, part) = (e.failure? x s).map (·.kind) := by
    let s' : Session := { s with failing := noted }
    have again : e.partValue b part x s' = .ok v (note b part (e.failure? x s) s') := partValue_of_answers run rfl
    have left : (note b part (e.failure? x s) s').failing = noted := (silent noted s' rfl).of_ok again
    have found : (note b part (e.failure? x s) s').failing.lookup (b.order, part) = (e.failure? x s).map (·.kind) :=
      (lookup_note _ s' _).trans (if_pos rfl)
    rwa [left] at found
  have absent := kept []
  have present := kept [((b.order, part), .typeMismatch)]
  rw [← absent] at present
  simp at present

end

/-! ## Every action has a log -/

theorem traces_of_silent {α : Type} {x : Act α} (silent : x.Silent) : e.Traces x :=
  fun _ _ _ run => ⟨[], .silent silent run⟩

theorem closed_traces (e : Engine) : Closed fun x => e.Traces x where
  pure a := traces_of_silent (closed_silent.pure a)
  get := traces_of_silent closed_silent.get
  bind {α β x f} first later := by
    intro s b u run
    cases ended : x s with
    | error fault t => cases (bind_eq_of_error ended).symm.trans run
    | ok a t =>
      obtain ⟨log, traced⟩ := first s a t ended
      obtain ⟨others, traced'⟩ := later a t b u ((bind_eq_of_ok ended).symm.trans run)
      exact ⟨log ++ others, .bind traced traced'⟩

section

variable {bindings : List Binding} (compiled : e.Compiled bindings)
variable (defaults : ∀ name b, e.defaults.find? name = some b → b ∈ e.dependencies.accepted)
include compiled defaults

theorem covers_traces : e.Covers (· ∈ e.dependencies.accepted) fun x => e.Traces x where
  toClosed := closed_traces e
  ordered _ mem := compiled.ordered_subset mem
  default := defaults
  value _ mem _ _ own := fun _ _ _ run => ⟨_, .value mem own run⟩
  store key v := traces_of_silent (silent_store key v)
  flag b flag := traces_of_silent (silent_setFlag b flag)
  unstable b := traces_of_silent (silent_disableUnstable b)

theorem traces_applyAll : e.Traces e.applyAll :=
  (covers_traces compiled defaults).applyAll (traces_of_silent silent_prime)

theorem traces_perform (w : Write) : e.Traces (e.perform w) :=
  (covers_traces compiled defaults).perform (traces_of_silent silent_dispatch) fun _ =>
    traces_of_silent (silent_throw .wrongType)

theorem traces_turn (made : Nat) (w : Write) : e.Traces (e.turn made w) := by
  have closed := closed_traces e
  have performed (made : Nat) : e.Traces (do e.perform w; return made) :=
    closed.bind (traces_perform compiled defaults w) fun _ => closed.pure made
  rw [turn]
  split
  · exact performed made
  · refine closed.bind closed.get fun s => ?_
    split
    · exact closed.pure made
    · split
      · exact closed.bind (traces_of_silent (silent_disableLooping _)) fun _ => closed.pure _
      · exact performed (made + 1)

end

/-- Takes the first write from the queue. -/
def take : Act (Option Write) := do
  let s ← get
  match s.queue with
  | [] => return none
  | w :: rest =>
    set { s with queue := rest }
    return some w

theorem silent_take : take.Silent := by
  intro noted s h
  rw [take, ends_bind, ends_get]
  split
  · exact h
  · exact h

theorem drainWithin_succ_eq (steps made : Nat) :
    e.drainWithin (steps + 1) made = take >>= fun
      | none => pure ⟨⟩
      | some w => e.turn made w >>= e.drainWithin steps := by
  funext s
  cases waiting : s.queue with
  | nil =>
    rw [drainWithin_of_empty waiting, take, bind_assoc, get_bind, waiting]
    rfl
  | cons w rest =>
    rw [drainWithin_succ waiting, take, bind_assoc, get_bind, waiting]
    rfl

/-- Asks for a write of the host, and gives the session before it. -/
def asking (target v : Value) : Act Session := do
  let before ← get
  set (before.ask target v)
  return before

theorem silent_asking (target v : Value) : (asking target v).Silent := by
  intro noted s h
  exact h

theorem writeWithin_succ_eq (depth : Nat) (target v : Value) :
    e.writeWithin (depth + 1) target v = asking target v >>= fun before => e.drain >>= fun _ => get >>= fun after =>
      if (e.changes before after).isEmpty then pure ⟨⟩
      else tellAll (e.writeWithin depth) (e.changes before after) after.listeners := rfl

section

variable {bindings : List Binding} (compiled : e.Compiled bindings)
variable (defaults : ∀ name b, e.defaults.find? name = some b → b ∈ e.dependencies.accepted)
include compiled defaults

theorem traces_drainWithin (steps made : Nat) : e.Traces (e.drainWithin steps made) := by
  have closed := closed_traces e
  induction steps generalizing made with
  | zero => exact closed.pure _
  | succ steps ih =>
    rw [drainWithin_succ_eq]
    refine closed.bind (traces_of_silent silent_take) fun w => ?_
    cases w with
    | none => exact closed.pure _
    | some w => exact closed.bind (traces_turn compiled defaults made w) ih

theorem traces_drain : e.Traces e.drain := by
  have closed := closed_traces e
  rw [drain]
  exact closed.bind closed.get fun s => traces_drainWithin compiled defaults _ 0

/-- A write with all that listeners write in turn has a log. -/
theorem traces_writeWithin (depth : Nat) (target v : Value) : e.Traces (e.writeWithin depth target v) := by
  have closed := closed_traces e
  induction depth generalizing target v with
  | zero => exact traces_of_silent (silent_throw .tooDeep)
  | succ depth ih =>
    rw [writeWithin_succ_eq]
    refine closed.bind (traces_of_silent (silent_asking target v)) fun before => ?_
    refine closed.bind (traces_drain compiled defaults) fun _ => closed.bind closed.get fun after => ?_
    split
    · exact closed.pure _
    · refine closed_tellAll closed ?cancelled ?raised ?told fun _ _ w _ => ih w.1 w.2
      case cancelled => exact fun id => traces_of_silent (silent_modify fun _ => rfl)
      case raised => exact fun f => traces_of_silent (silent_throw f)
      case told => exact fun handed _ id => traces_of_silent (silent_modify fun _ => rfl)

/-- Of what a host does, writes alone make evaluations. -/
theorem traces_make (move : Move) : e.Traces (e.make move) := by
  cases move with
  | write target v => exact traces_writeWithin compiled defaults _ target v
  | next | previous | subscribe | unsubscribe => exact traces_of_silent (silent_modify fun _ => rfl)
  | goTo target =>
    refine traces_of_silent (closed_silent.bind ?_ fun _ => closed_silent.pure _)
    exact closed_silent.bind (silent_modify fun _ => rfl) fun _ => closed_silent.pure _

end

end Engine

end Questionnaire
