import Questionnaire.Proofs.Expr.Faults
import Questionnaire.Proofs.Session.Freshness

/-!
# What escapes a session

A failing evaluation does not end the work: it is reported, and its condition counts as false or its value as
undefined.  A fault does end it.  There are two causes for one.  The operation of some node of an evaluated expression
balks at what its operands come to, or a trigger leads to what is no key of an answer.

The invariant is that all that is evaluated was read from texts of the survey, and that the triggers and the waiting
writes are those of the survey.  Every step keeps it, and where a step faults one of the causes is at hand.
-/
namespace Questionnaire

open Act

/-! ## Causes -/

/-- A trigger leads to, or copies from, what is no key of an answer. -/
def Trigger.Astray (t : Trigger) : Prop :=
  (t.setToName.truthy = true ∧ t.setToName.key? = none) ∨ (t.kind = .copyValue ∧ t.fromName.key? = none)

namespace Engine

/-- An expression that a session evaluates: one of a binding in use, or one of a trigger. -/
inductive Evaluates (e : Engine) : Expr → Prop
  | binding {b : Binding} {x : Expr} : b ∈ e.dependencies.accepted → x ∈ b.expressions → Evaluates e x
  | trigger {t : Trigger} {x : Expr} : t ∈ e.survey.triggers → t.Writes x → Evaluates e x

/-- A cause for a session to end by a fault as it stands. -/
inductive Escape (e : Engine) (s : Session) : Prop
  | balks {x : Expr} : e.Evaluates x → x.Risky (e.context s) → Escape e s
  | astray {t : Trigger} : t ∈ e.survey.triggers → t.Astray → Escape e s

end Engine

/-! ## Reports -/

/-- The diagnostic on a binding whose evaluation fails. -/
def Binding.complaint (b : Binding) (failure : EvalError) : Diagnostic :=
  ⟨.eval failure, b.owner, b.property.key, .text b.source⟩

/-- A failure of a kind was reported of a binding. -/
def Session.Reported (s : Session) (b : Binding) (kind : EvalKind) : Prop :=
  ∃ failure : EvalError, failure.kind = kind ∧ b.complaint failure ∈ s.diagnostics

namespace Engine

/-- Every evaluation of a binding that fails at present was reported. -/
def Noticed (e : Engine) (s : Session) : Prop :=
  ∀ b ∈ e.dependencies.accepted, ∀ part kind, ((b.order, part), kind) ∈ s.failing → s.Reported b kind

theorem Noticed.mono {e : Engine} {s t : Session} (h : e.Noticed s) (failing : t.failing ⊆ s.failing)
    (diagnostics : s.diagnostics ⊆ t.diagnostics) : e.Noticed t := by
  intro b mem part kind fails
  obtain ⟨failure, same, reported⟩ := h b mem part kind (failing fails)
  exact ⟨failure, same, diagnostics reported⟩

section

variable {e : Engine} {bindings : List Binding} (compiled : e.Compiled bindings)
include compiled

/-- A failure is reported unless it is noted already, and then it was reported. -/
theorem noticed_reportFailure {b : Binding} (mem : b ∈ e.dependencies.accepted) (part : Part) (failure : EvalError)
    {s : Session} (h : e.Noticed s) :
    e.Noticed (reportFailure b part failure s) ∧ (reportFailure b part failure s).Reported b failure.kind := by
  rw [reportFailure]
  split
  · rename_i noted
    obtain ⟨_, _, split, -⟩ := List.lookup_eq_some_iff.mp (beq_iff_eq.mp noted)
    exact ⟨h, h b mem part failure.kind (by simp [split])⟩
  · have reported : b.complaint failure ∈ s.diagnostics ++ [b.complaint failure] := by simp
    refine ⟨?_, failure, rfl, reported⟩
    intro b' mem' part' kind fails
    rcases List.mem_cons.mp fails with new | old
    · obtain ⟨place, rfl⟩ := Prod.mk.inj new
      obtain rfl : b' = b := compiled.eq_of_order mem' mem (Prod.mk.inj place).1
      exact ⟨failure, rfl, reported⟩
    · obtain ⟨other, same, known⟩ := h b' mem' part' kind (List.mem_filter.mp old).1
      exact ⟨other, same, List.mem_append_left _ known⟩

end

/-! ## The invariant -/

/-- A trigger in a session is one of the survey, with the expressions that it writes. -/
def Knows (e : Engine) (a : Slot) : Prop :=
  a.trigger ∈ e.survey.triggers ∧ ∀ x ∈ a.expressions, e.Evaluates x

/-- The triggers and the waiting writes of a session are those of the survey, nobody listens, and what fails at present
was reported. -/
structure Sound (e : Engine) (s : Session) : Prop where
  slots : ∀ a ∈ s.slots, e.Knows a
  queue : ∀ w ∈ s.queue, w.target.key? = none → ∃ t ∈ e.survey.triggers, t.Astray
  unheard : s.listeners = []
  noticed : e.Noticed s

/-- A fault, with a cause at hand. -/
def Escaped (e : Engine) (s : Session) : Prop := e.Sound s ∧ e.Escape s

variable {e : Engine} {s t : Session}

theorem Sound.report (h : e.Sound s) (d : Diagnostic) : e.Sound (s.report d) :=
  ⟨h.slots, h.queue, h.unheard, h.noticed.mono (List.Subset.refl _) (List.subset_append_left _ _)⟩

theorem Sound.modifySlot (h : e.Sound s) (index : Nat) {f : Slot → Slot}
    (same : ∀ a, (f a).trigger = a.trigger ∧ (f a).expressions = a.expressions) :
    e.Sound (s.modifySlot index f) := by
  refine ⟨?_, h.queue, h.unheard, h.noticed⟩
  intro a mem
  obtain ⟨i, found⟩ := List.getElem?_of_mem mem
  rw [Session.modifySlot, List.getElem?_modify] at found
  obtain ⟨b, found', rfl⟩ := Option.map_eq_some_iff.mp found
  have known := h.slots b (List.mem_of_getElem? found')
  split
  · obtain ⟨trigger, expressions⟩ := same b
    rw [Knows, trigger, expressions]
    exact known
  · exact known

theorem guards_report (d : Diagnostic) : Guards e.Sound e.Escaped (modify (·.report d) : Act PUnit) :=
  guards_modify fun _ h => h.report d

/-! ## Bindings -/

section

variable {bindings : List Binding} (compiled : e.Compiled bindings) (addressed : ∀ x, e.Evaluates x → x.Addressed)

include addressed

theorem guards_evaluate {x : Expr} (evaluates : e.Evaluates x) : Guards e.Sound e.Escaped (e.evaluate x) := by
  intro s hs
  rw [evaluate, ends_bind, ends_get]
  cases outcome : x.evaluate (e.context s) with
  | ok v => exact hs
  | error stop =>
    cases stop with
    | error failure => exact hs
    | fault f => exact ⟨hs, .balks evaluates (Expr.evaluate_fault x (addressed x evaluates) outcome)⟩

include compiled

theorem guards_partValue {b : Binding} (mem : b ∈ e.dependencies.accepted) (part : Part) {x : Expr}
    (own : x ∈ b.expressions) : Guards e.Sound e.Escaped (e.partValue b part x) := by
  rw [partValue]
  refine (guards_evaluate addressed (.binding mem own)).bind ?_
  intro outcome
  cases outcome with
  | ok v =>
    refine (guards_modify ?_).bind fun _ => guards_pure v
    intro s h
    exact ⟨h.slots, h.queue, h.unheard, h.noticed.mono (List.filter_subset_self _) (List.Subset.refl _)⟩
  | error failure =>
    refine (guards_modify ?_).bind fun _ => guards_pure Value.undefined
    intro s h
    have noticed := (noticed_reportFailure compiled mem part failure h.noticed).1
    rw [reportFailure] at noticed ⊢
    split
    · exact h
    · rename_i unnoted
      rw [if_neg unnoted] at noticed
      exact ⟨h.slots, h.queue, h.unheard, noticed⟩

theorem bears_sound (defaults : ∀ name b, e.defaults.find? name = some b → b ∈ e.dependencies.accepted) :
    e.Bears (· ∈ e.dependencies.accepted) e.Sound e.Escaped where
  ordered _ mem := compiled.mem_ordered.mp mem
  default := defaults
  value _ mem part _ own := guards_partValue compiled addressed mem part own
  store key v s h := ends_store.mpr ⟨h.slots, h.queue, h.unheard, h.noticed⟩
  flag _ _ := guards_modify fun _ h => ⟨h.slots, h.queue, h.unheard, h.noticed⟩
  unstable b := by
    refine guards_modify fun s h => ?_
    have off : e.Sound { s with disabled := b.order :: s.disabled } := ⟨h.slots, h.queue, h.unheard, h.noticed⟩
    exact off.report _

end

/-! ## Triggers -/

section

variable (addressed : ∀ x, e.Evaluates x → x.Addressed)

theorem guards_queueWrite {a : Slot} (known : e.Knows a) (v : Value) :
    Guards e.Sound e.Escaped (queueWrite a v) := by
  rw [queueWrite]
  refine Guards.bind (guards_modify fun s h => ⟨h.slots, h.queue, h.unheard, h.noticed⟩) fun _ => ?_
  split
  · rename_i given
    refine guards_modify fun s h => ⟨h.slots, ?_, h.unheard, h.noticed⟩
    intro w hw keyless
    rcases List.mem_append.mp hw with old | new
    · exact h.queue w old keyless
    · rw [List.mem_singleton.mp new] at keyless
      exact ⟨a.trigger, known.1, Or.inl ⟨given, keyless⟩⟩
  · exact guards_pure _

theorem guards_copiedValue {source : Value}
    (astray : source.key? = none → ∃ t ∈ e.survey.triggers, t.Astray) :
    Guards e.Sound e.Escaped (copiedValue source) := by
  intro s hs
  rw [copiedValue, ends_bind, ends_get, Session.answerAt]
  cases key : source.key? with
  | some key => exact hs
  | none =>
    obtain ⟨t, mem, astray⟩ := astray key
    exact ⟨hs, .astray mem astray⟩

theorem guards_disableLooping (index : Nat) : Guards e.Sound e.Escaped (e.disableLooping index) := by
  rw [disableLooping]
  refine guards_modify fun s h => ?_
  have dropped {t : Session} (h : e.Sound t) :
      e.Sound { t with queue := t.queue.filter (·.origin != some index) } :=
    ⟨h.slots, fun w hw => h.queue w (List.mem_filter.mp hw).1, h.unheard, h.noticed⟩
  simp only
  split
  · exact dropped h
  · split
    · exact dropped h
    · have off : e.Sound (s.modifySlot index ({ · with disabled := true })) := h.modifySlot index fun _ => ⟨rfl, rfl⟩
      exact dropped (off.report _)

include addressed

theorem guards_conditionHolds {a : Slot} (known : e.Knows a) :
    Guards e.Sound e.Escaped (e.conditionHolds a) := by
  rw [conditionHolds]
  split
  · exact guards_pure false
  · rename_i x condition
    have evaluates := known.2 x (List.mem_append_left _ (Option.mem_toList.mpr condition))
    refine (guards_evaluate addressed evaluates).bind ?_
    intro outcome
    cases outcome with
    | ok v => exact guards_pure v.truthy
    | error failure => exact (guards_report _).bind fun _ => guards_pure false

theorem guards_execute {a : Slot} (known : e.Knows a) : Guards e.Sound e.Escaped (e.execute a) := by
  have recorded (target v : Value) : Guards e.Sound e.Escaped (record a target v) :=
    guards_modify fun s h => ⟨h.slots, h.queue, h.unheard, h.noticed⟩
  rw [execute]
  split
  case h_1 | h_2 =>
    refine (recorded _ _).bind fun _ => ?_
    exact guards_modify fun s h => ⟨h.slots, h.queue, h.unheard, h.noticed⟩
  case h_3 => exact guards_queueWrite known _
  case h_4 kind =>
    refine (guards_copiedValue ?_).bind fun v => guards_queueWrite known v
    exact fun keyless => ⟨a.trigger, known.1, Or.inr ⟨kind, keyless⟩⟩
  case h_5 =>
    split
    · exact guards_pure _
    · rename_i x run
      have evaluates := known.2 x (List.mem_append_right _ (Option.mem_toList.mpr run))
      refine (guards_evaluate addressed evaluates).bind ?_
      intro outcome
      cases outcome with
      | ok v => exact guards_queueWrite known v
      | error failure => exact guards_report _

theorem guards_check (index : Nat) : Guards e.Sound e.Escaped (e.check index) := by
  intro s hs
  rw [check, ends_bind, ends_get]
  split
  · exact hs
  · rename_i a found
    have known := hs.slots a (List.mem_of_getElem? found)
    split
    · exact hs
    · refine Guards.bind (guards_conditionHolds addressed known) (fun holds => ?_) s hs
      split
      · have fired : Guards e.Sound e.Escaped (modify (Session.modifySlot index fun a =>
            { a with fired := true, fireCount := a.fireCount + 1 }) : Act PUnit) :=
          guards_modify fun t h => h.modifySlot index fun _ => ⟨rfl, rfl⟩
        exact fired.bind fun _ => guards_execute addressed known
      · split
        · exact guards_modify fun t h => h.modifySlot index fun _ => ⟨rfl, rfl⟩
        · exact guards_pure _

theorem guards_dispatch : Guards e.Sound e.Escaped e.dispatch := by
  rw [dispatch]
  exact guards_get.bind fun t => .forM fun index _ => guards_check addressed index

theorem guards_prime : Guards e.Sound e.Escaped e.prime := by
  rw [prime]
  refine guards_get.bind fun t => .forM fun index _ => ?_
  intro s hs
  rw [ends_bind, ends_get]
  split
  · exact hs
  · rename_i a found
    have known := hs.slots a (List.mem_of_getElem? found)
    split
    · exact hs
    · refine Guards.bind (guards_conditionHolds addressed known) (fun holds => ?_) s hs
      exact guards_modify fun t h => h.modifySlot index fun _ => ⟨rfl, rfl⟩

end

/-! ## Writes -/

section

variable {bindings : List Binding} (compiled : e.Compiled bindings) (addressed : ∀ x, e.Evaluates x → x.Addressed)
variable (defaults : ∀ name b, e.defaults.find? name = some b → b ∈ e.dependencies.accepted)
include compiled addressed defaults

theorem guards_applyAll : Guards e.Sound e.Escaped e.applyAll :=
  (bears_sound compiled addressed defaults).covers.applyAll (guards_prime addressed)

theorem guards_drain : Guards e.Sound e.Escaped e.drain := by
  have bears := bears_sound compiled addressed defaults
  rw [drain]
  refine guards_get.bind fun t => ?_
  refine guards_drainWithin (fun w => w.target.key? = none → ∃ t ∈ e.survey.triggers, t.Astray)
    (fun s h => h.queue) ?_ ?_ guards_disableLooping _ 0
  · intro s w rest h waiting
    exact ⟨h.slots, fun w' hw' => h.queue w' (waiting ▸ List.mem_cons_of_mem _ hw'), h.unheard, h.noticed⟩
  · intro w astray
    refine bears.covers.perform (guards_dispatch addressed) ?_
    intro keyless s h
    obtain ⟨t, mem, astray⟩ := astray keyless
    exact ⟨h, .astray mem astray⟩

theorem guards_write (name : String) (v : Value) : Guards e.Sound e.Escaped (e.write (.text name) v) := by
  intro s hs
  rw [write, writeWithin, ends_bind, ends_get]
  simp only
  rw [ends_bind, ends_set, ends_bind]
  have queued : e.Sound { s with queue := s.queue ++ [⟨.text name, v, none⟩] } := by
    refine ⟨hs.slots, ?_, hs.unheard, hs.noticed⟩
    intro w hw keyless
    rcases List.mem_append.mp hw with old | new
    · exact hs.queue w old keyless
    · rw [List.mem_singleton.mp new] at keyless
      cases keyless
  refine (guards_drain compiled addressed defaults _ queued).mono ?_ fun _ h => h
  intro _ t ht
  rw [ends_bind, ends_get, ht.unheard]
  split
  · exact ht
  · exact ht

theorem sound_follow {writes : List (Value × Value)} (named : ∀ w ∈ writes, ∃ name, w.1 = .text name)
    (hs : e.Sound s) : e.Sound (e.follow writes s) := by
  refine follow_preserves ?_ hs
  intro w mem t ht
  obtain ⟨name, same⟩ := named w mem
  rw [same]
  exact (guards_write compiled addressed defaults name w.2 t ht).mono (fun _ _ h => h) fun _ h => h.1

end

/-! ## Failures -/

/-- A failing evaluation does not end the work in a session.  It is reported, and then a value is undefined and a
condition does not hold, so that the flag of the binding is taken away, or the trigger does not act. -/
structure Absorbs (e : Engine) (s : Session) : Prop where
  value : ∀ b ∈ e.dependencies.accepted, ∀ part x failure, x.evaluate (e.context s) = .error (.error failure) →
    ∃ t, e.partValue b part x s = .ok .undefined t ∧ e.partHolds b part x s = .ok false t ∧
      t.Reported b failure.kind ∧ e.Noticed t
  flag : ∀ b ∈ e.dependencies.accepted, b.writesValue = false → ∀ failure,
    b.expression.evaluate (e.context s) = .error (.error failure) →
    ∃ t, e.apply b s = .ok false t ∧ t.flags = s.flags.modify b.owner (·.put false b.kind) ∧
      t.Reported b failure.kind
  computed : ∀ b ∈ e.dependencies.accepted, b.kind = .setValueExpression → b.gate = none → ∀ failure,
    b.expression.evaluate (e.context s) = .error (.error failure) →
    ∃ changed t, e.apply b s = .ok changed t ∧ t.answers = s.answers.put (.text b.owner) .undefined ∧
      t.Reported b failure.kind
  condition : ∀ a x failure, a.condition = some x → x.evaluate (e.context s) = .error (.error failure) →
    e.conditionHolds a s =
      .ok false (s.report ⟨.eval failure, a.label, "expression", .text a.trigger.condition⟩)
  run : ∀ a x failure, a.trigger.kind = .runExpression → a.run = some x →
    x.evaluate (e.context s) = .error (.error failure) →
    e.execute a s = .ok () (s.report ⟨.eval failure, a.label, "runExpression", a.trigger.runExpression⟩)

theorem evaluate_of_failure {x : Expr} {failure : EvalError}
    (failed : x.evaluate (e.context s) = .error (.error failure)) : e.evaluate x s = .ok (.error failure) s := by
  rw [evaluate, get_bind, failed]
  rfl

theorem partValue_of_failure {x : Expr} {failure : EvalError}
    (failed : x.evaluate (e.context s) = .error (.error failure)) (b : Binding) (part : Part) :
    e.partValue b part x s = .ok .undefined (reportFailure b part failure s) := by
  rw [partValue, bind_eq_of_ok (evaluate_of_failure failed)]
  rfl

/-- Failures are absorbed wherever those at present were reported. -/
theorem Noticed.absorbs {bindings : List Binding} (compiled : e.Compiled bindings) (h : e.Noticed s) :
    e.Absorbs s where
  value b mem part x failure failed := by
    have value := partValue_of_failure failed b part
    have noticed := noticed_reportFailure compiled mem part failure h
    refine ⟨_, value, ?_, noticed.2, noticed.1⟩
    rw [partHolds, bind_eq_of_ok value]
    rfl
  flag b mem flag failure failed := by
    let noted := reportFailure b .expression failure s
    have same : noted.flags = s.flags := (noted_reportFailure b .expression failure s).flags
    refine ⟨{ noted with flags := noted.flags.modify b.owner (·.put false b.kind) }, ?_, by rw [same],
      (noticed_reportFailure compiled mem .expression failure h).2⟩
    rw [apply_flag e flag, bind_eq_of_ok (partValue_of_failure failed b .expression)]
    rfl
  computed b mem kind gate failure failed := by
    let noted := reportFailure b .expression failure s
    have same : noted.answers = s.answers := (noted_reportFailure b .expression failure s).answers
    refine ⟨(Fields.store? noted.answers (.text b.owner) .undefined).isSome,
      { noted with answers := noted.answers.put (.text b.owner) .undefined }, ?_, by rw [same],
      (noticed_reportFailure compiled mem .expression failure h).2⟩
    rw [apply_computed e kind gate, bind_eq_of_ok (partValue_of_failure failed b .expression)]
    exact store_eq _ _ noted
  condition a x failure condition failed := by
    rw [conditionHolds, condition]
    simp only
    rw [bind_eq_of_ok (evaluate_of_failure failed)]
    rfl
  run a x failure kind run failed := by
    rw [execute]
    simp only [kind, run]
    rw [bind_eq_of_ok (evaluate_of_failure failed)]
    rfl

/-! ## Sessions of a survey -/

/-- A session of a survey before any binding is applied, with its engine. -/
def Opens (survey : Survey) (settings : Settings) (given : Fields) (navigator : Bool) (e : Engine) (s : Session) :
    Prop :=
  ∃ bindings problems slots, survey.bindings = .ok (bindings, problems) ∧
    (survey.triggers.mapIdx Slot.ofTrigger).mapM id = .ok slots ∧ e = ofBindings survey settings bindings ∧
    s = e.opening problems slots given navigator

section

variable {survey : Survey} {bindings : List Binding} {problems : List Diagnostic}

theorem addressed_of_evaluates (bound : survey.bindings = .ok (bindings, problems)) (settings : Settings) {x : Expr}
    (h : (ofBindings survey settings bindings).Evaluates x) : x.Addressed := by
  cases h with
  | binding mem own =>
    exact Survey.addressed_of_bindings bound _ (Dependencies.accepted_subset mem) x own
  | trigger _ writes => exact writes.addressed

/-- Computed defaults are bindings in use. -/
theorem mem_accepted_of_defaults (survey : Survey) (settings : Settings) (bindings : List Binding) :
    ∀ name b, (ofBindings survey settings bindings).defaults.find? name = some b →
      b ∈ (ofBindings survey settings bindings).dependencies.accepted := by
  let accepted := (Dependencies.ofBindings bindings).accepted
  have all : ∀ c ∈ (ofBindings survey settings bindings).defaults, c.2 ∈ accepted := by
    refine List.foldlRecOn (motive := fun table : Table String Binding => ∀ c ∈ table, c.2 ∈ accepted) _ _
      (List.forall_mem_nil _) ?_
    intro table known b mem c hc
    rcases Table.mem_of_mem_set hc with new | old
    · exact new ▸ (List.mem_filter.mp mem).1
    · exact known c old
  intro name b found
  obtain ⟨_, mem⟩ := Table.exists_mem_of_find?_eq_some found
  exact all _ mem

theorem sound_opening {slots : List (Slot × List Diagnostic)}
    (each : (survey.triggers.mapIdx Slot.ofTrigger).mapM id = .ok slots) (settings : Settings)
    (bindings : List Binding) (problems : List Diagnostic) (given : Fields) (navigator : Bool) :
    (ofBindings survey settings bindings).Sound
      ((ofBindings survey settings bindings).opening problems slots given navigator) := by
  refine ⟨?_, fun w hw => absurd hw List.not_mem_nil, rfl, fun b _ part kind fails => absurd fails List.not_mem_nil⟩
  intro a mem
  obtain ⟨c, mem', rfl⟩ := List.mem_map.mp mem
  obtain ⟨_, t, known, reads⟩ := Slot.reads_of_mem each mem'
  refine ⟨reads.trigger ▸ known, ?_⟩
  intro x hx
  exact .trigger known (reads.expressions x hx)

end

/-- No fault without a cause.  A survey whose logic is texts starts normally, unless a trigger has no label or a cause
is at hand in the session as it then stands; and after any writes of the host under texts, faults included, the next
one ends normally unless a cause is at hand.  All along what fails at present was reported, and in every such session
failing evaluations are absorbed. -/
theorem faults_have_causes {survey : Survey} (textual : survey.Textual) (settings : Settings) (given : Fields)
    (navigator : Bool) :
    ((∃ e s, start survey settings given navigator = .ok (e, s)) ∨ survey.Unlabelled ∨
      ∃ e s, Opens survey settings given navigator e s ∧ e.Escape (Act.after e.applyAll s)) ∧
    ∀ e s, start survey settings given navigator = .ok (e, s) →
      ∀ writes : List (Value × Value), (∀ w ∈ writes, ∃ name, w.1 = .text name) →
        e.Noticed (e.follow writes s) ∧ (∀ u, e.Noticed u → e.Absorbs u) ∧
        ∀ name v, (∃ u, e.write (.text name) v (e.follow writes s) = .ok () u) ∨
          e.Escape (Act.after (e.write (.text name) v) (e.follow writes s)) := by
  constructor
  · rcases Survey.exists_slots textual with ⟨slots, each⟩ | unlabelled
    · obtain ⟨⟨bindings, problems⟩, bound⟩ := Survey.exists_bindings textual
      let e := ofBindings survey settings bindings
      have sound := sound_opening each settings bindings problems given navigator
      have guards := guards_applyAll (compiled_ofBindings bound settings)
        (fun x => addressed_of_evaluates bound settings)
        (mem_accepted_of_defaults survey settings bindings)
      rcases guards.ok_or sound with ⟨_, s, run⟩ | escaped
      · exact Or.inl ⟨e, s, start_of_applyAll bound each run⟩
      · exact Or.inr (Or.inr ⟨e, _, ⟨bindings, problems, slots, bound, each, rfl, rfl⟩, escaped.2⟩)
    · exact Or.inr (Or.inl unlabelled)
  · intro e s begun writes named
    obtain ⟨bindings, problems, slots, bound, each, rfl, ended⟩ := start_ok begun
    have compiled := compiled_ofBindings bound settings
    have addressed : ∀ x, (ofBindings survey settings bindings).Evaluates x → x.Addressed :=
      fun x => addressed_of_evaluates bound settings
    have defaults := mem_accepted_of_defaults survey settings bindings
    have opened := sound_opening each settings bindings problems given navigator
    have started := (guards_applyAll compiled addressed defaults _ opened).of_ok ended
    have followed := sound_follow compiled addressed defaults named started
    refine ⟨followed.noticed, fun u h => h.absorbs compiled, ?_⟩
    intro name v
    rcases (guards_write compiled addressed defaults name v).ok_or followed with ⟨_, u, run⟩ | escaped
    · exact Or.inl ⟨u, run⟩
    · exact Or.inr escaped.2

theorem sample_textual : Sample.survey.Textual := ⟨by decide +kernel, by decide +kernel, by decide +kernel⟩

/-- A great answer of the sample makes the condition of the panel balk, and nothing is reported. -/
theorem sample_fault : ∃ e s t, start Sample.survey Sample.settings (Sample.given 1 35) false = .ok (e, s) ∧
    e.write (.text "a") (Sample.whole (10 ^ 308)) s = .error .badValue t ∧ t.diagnostics = [] := by
  obtain ⟨_, s₀, primed, -⟩ : ∃ a s, (ofBindings Sample.survey Sample.settings Sample.bindings).applyAll
      ((ofBindings Sample.survey Sample.settings Sample.bindings).opening [] [] (Sample.given 1 35) false) = .ok a s ∧
      s.diagnostics.isEmpty = true := exists_of_seen (by decide +kernel)
  have faulty : ∃ f t, ((ofBindings Sample.survey Sample.settings Sample.bindings).applyAll >>= fun _ =>
        (ofBindings Sample.survey Sample.settings Sample.bindings).write (.text "a") (Sample.whole (10 ^ 308)))
      ((ofBindings Sample.survey Sample.settings Sample.bindings).opening [] [] (Sample.given 1 35) false) =
        .error f t ∧ (f, t.diagnostics.isEmpty) = (.badValue, true) := exists_error_of_seen (by decide +kernel)
  obtain ⟨f, t, run, seen⟩ := faulty
  rw [bind_eq_of_ok primed] at run
  obtain ⟨rfl, quiet⟩ := Prod.mk.inj seen
  exact ⟨_, s₀, t, start_of_applyAll Sample.bound rfl primed, run, List.isEmpty_iff.mp quiet⟩

theorem sample_escapes : ∃ e s, start Sample.survey Sample.settings (Sample.given 1 35) false = .ok (e, s) ∧
    e.Escape (Act.after (e.write (.text "a") (Sample.whole (10 ^ 308))) s) := by
  obtain ⟨e, s, t, begun, fault, -⟩ := sample_fault
  have causes := faults_have_causes sample_textual Sample.settings (Sample.given 1 35) false
  obtain ⟨-, -, next⟩ := causes.2 e s begun [] (List.forall_mem_nil _)
  refine ⟨e, s, begun, (next "a" (Sample.whole (10 ^ 308))).resolve_left ?_⟩
  rintro ⟨u, run⟩
  cases fault.symm.trans run

/-- A fault does end a write of the host.  The sample is loaded and its logic is texts. -/
theorem great_answer_escapes : Survey.ofDocument Sample.document = .ok Sample.survey ∧ Sample.survey.Textual ∧
    ∃ e s t, start Sample.survey Sample.settings (Sample.given 1 35) false = .ok (e, s) ∧
      e.write (.text "a") (Sample.whole (10 ^ 308)) s = .error .badValue t ∧ t.diagnostics = [] :=
  ⟨Sample.loaded, sample_textual, sample_fault⟩

end Engine

end Questionnaire
