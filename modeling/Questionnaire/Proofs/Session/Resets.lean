import Questionnaire.Proofs.Session.Notices

/-!
# What a reset goes back to

A reset evaluates the default of its question on the answers as they are when its turn in a sweep comes.  The sweep
orders it by what its own condition reads, and not by what the default reads.  So an input of the default may be
written after the reset was applied, and then the question keeps a default that nothing stands for any more: it has an
answer, and a default is computed for a question without one alone.

If nothing that is applied after the reset writes an input of the default, the question shows its default once the
reset took place: what is applied afterwards leaves the inputs and the answer alone.  This is so in particular if the
condition of the reset reads every computed answer that the default reads, for then the writers of the inputs come
before it.
-/
namespace Questionnaire

open Act
open Session (Applied Noted Indexed Dropped)

/-! ## The notes of an engine on defaults -/

namespace Binding

/-- One binding computes the default of a question, another one resets it, and no further one writes its answer. -/
structure Renew (bindings : List Binding) (name : String) (d r : Binding) : Prop where
  default : d ∈ bindings
  reset : r ∈ bindings
  defaults : d.kind = .defaultValueExpression
  resets : r.kind = .resetValueIf
  defaultOwner : d.owner = name
  resetOwner : r.owner = name
  sole : ∀ b ∈ bindings, b.writesValue = true → b.owner = name → b = d ∨ b = r

end Binding

namespace Engine

section

variable {survey : Survey} {settings : Settings} {bindings : List Binding}

theorem find?_defaults {name : String} {d r : Binding}
    (renew : Binding.Renew (ofBindings survey settings bindings).dependencies.accepted name d r) :
    (ofBindings survey settings bindings).defaults.find? name = some d := by
  rw [← renew.defaultOwner]
  refine Table.find?_foldl_set_of_sole (fun b : Binding => b.owner) id (c := d) ?_ ?_
  · exact List.mem_filter.mpr ⟨renew.default, by simp [renew.defaults]⟩
  · intro b mem same
    obtain ⟨mem, kind⟩ := List.mem_filter.mp mem
    have kind : b.kind = .defaultValueExpression := by simpa using kind
    have writes : b.writesValue = true := by
      rw [Binding.writesValue, kind]
      rfl
    refine (renew.sole b mem writes (same.trans renew.defaultOwner)).resolve_right ?_
    rintro rfl
    cases kind.symm.trans renew.resets

theorem find?_questions (distinct : survey.questionNames.Nodup) {q : Question} (mem : q ∈ survey.questions) :
    (ofBindings survey settings bindings).questions.find? q.name = some q := by
  rw [← Survey.map_contained] at mem
  obtain ⟨c, walked, rfl⟩ := List.mem_map.mp mem
  refine Table.find?_foldl_set_of_mem (fun c : Question × List String => c.1.name) (·.1) ?_ walked
  rwa [Survey.questionNames, ← Survey.map_contained, List.map_map] at distinct

end

/-- The notes of an engine on a question whose default is computed and reset. -/
theorem noted_of_start {document : Value} {survey : Survey} {settings : Settings} {given : Fields} {navigator : Bool}
    {e : Engine} {s : Session} {q : Question} {d r : Binding} (loaded : Survey.ofDocument document = .ok survey)
    (begun : start survey settings given navigator = .ok (e, s)) (mem : q ∈ survey.questions)
    (renew : Binding.Renew e.dependencies.accepted q.name d r) :
    e.defaults.find? d.owner = some d ∧
      ((e.questions.find? d.owner).map (·.properties .defaultValue)).getD .undefined = q.properties .defaultValue := by
  obtain ⟨bindings, problems, bound, rfl, -⟩ := started_of_start begun
  rw [renew.defaultOwner, find?_questions (Survey.nodup_of_ofDocument loaded) mem]
  exact ⟨find?_defaults renew, rfl⟩

/-! ## A question that shows its default -/

/-- The answer is what the default comes to on the current answers, or the literal default where that is undefined. -/
def ShowsDefault (e : Engine) (d : Binding) (literal : Value) (s : Session) : Prop :=
  ∃ w, e.current s d.expression = .ok w ∧ (s.value d.owner).Matches (if w.isDefined then w else literal)

variable {e : Engine} {s t u : Session} {d r : Binding} {literal : Value}

theorem ShowsDefault.of_answers (h : e.ShowsDefault d literal s) (same : t.answers = s.answers) :
    e.ShowsDefault d literal t := by
  obtain ⟨w, value, shown⟩ := h
  refine ⟨w, (current_of_answers same).trans value, ?_⟩
  rwa [Session.value, same]

/-- Bindings that write neither the answer nor an input of the default leave it shown. -/
theorem ShowsDefault.of_applied {few : List Binding} (h : e.ShowsDefault d literal s) (declared : d.Declared)
    (applied : Applied few s t) (silent : ∀ x ∈ few, ¬ x.Feeds d)
    (apart : ∀ x ∈ few, x.writesValue = true → x.owner ≠ d.owner) : e.ShowsDefault d literal t := by
  obtain ⟨w, value, shown⟩ := h
  refine ⟨w, ?_, ?_⟩
  · rw [← value]
    refine current_congr rfl rfl fun name mem => value_eq_of_find? (applied.answers _ ?_)
    intro x hx writes same
    exact silent x hx ⟨writes, Key.text.inj same ▸ declared mem⟩
  · have same : t.value d.owner = s.value d.owner :=
      value_eq_of_find? (applied.answers _ fun x hx writes same => apart x hx writes (Key.text.inj same).symm)
    rwa [same]

/-- What is put for a question is shown as its default, if it is that and the default does not read the question. -/
theorem ShowsDefault.of_put {w : Value} (value : e.current s d.expression = .ok w) (declared : d.Declared)
    (apart : d.owner ∉ d.references) : e.ShowsDefault d literal
      { s with answers := s.answers.put (.text d.owner) (if w.isDefined then w else literal) } := by
  refine ⟨w, ?_, Fields.matches_put s.answers _ _⟩
  rw [← value]
  refine current_congr rfl rfl fun name mem => value_eq_of_find? (Fields.find?_put_of_differs _ ?_)
  refine Key.text_differs fun same => apart ?_
  exact Key.text.inj same ▸ declared mem

section

variable (noted : e.defaults.find? d.owner = some d)
variable (found : ((e.questions.find? d.owner).map (·.properties .defaultValue)).getD .undefined = literal)
include noted found

theorem ends_defaultOf_current (active : s.disabled = []) :
    Ends (fun v t => Noted s t ∧ ∃ w, e.current s d.expression = .ok w ∧ v = if w.isDefined then w else literal)
      (fun _ => True) (e.defaultOf d.owner) s := by
  rw [defaultOf, noted, found]
  simp only
  rw [ends_bind, ends_get, active]
  simp only [List.contains_nil, Bool.false_eq_true, if_false]
  rw [ends_bind]
  refine (ends_partValue .expression d.expression).mono ?_ fun _ _ => trivial
  intro w t h
  exact ⟨h.1, w, h.2, rfl⟩

/-- A reset that takes place shows the default; one that does not changes no answer. -/
theorem ends_apply_reset (resets : r.kind = .resetValueIf) (owner : r.owner = d.owner) (declared : d.Declared)
    (apart : d.owner ∉ d.references) (active : s.disabled = []) :
    Ends (fun _ t => e.ShowsDefault d literal t ∨
        t.answers = s.answers ∧ ¬ (r.expression.holds (e.context s) = .ok true ∧ (s.value r.owner).isDefined = true))
      (fun _ => True) (e.apply r) s := by
  rw [apply, resets]
  simp only
  rw [ends_bind, partHolds, ends_bind]
  refine (ends_partValue .expression r.expression).mono ?_ fun _ _ => trivial
  intro v t h
  have answers : t.answers = s.answers := h.1.answers
  have value : t.value r.owner = s.value r.owner := by rw [Session.value, answers, Session.value]
  rw [ends_pure, ends_bind, ends_get, value]
  split
  · rw [ends_bind, owner]
    have active' : t.disabled = [] := h.1.recomputed.disabled.trans active
    refine (ends_defaultOf_current noted found active').mono ?_ fun _ _ => trivial
    rintro _ u ⟨kept, w, current, rfl⟩
    rw [ends_store]
    refine Or.inl (ShowsDefault.of_put ?_ declared apart)
    exact (current_of_answers kept.answers).trans current
  · rename_i idle
    refine Or.inr ⟨answers, ?_⟩
    rwa [holds_iff_of_current h.2, ← Bool.and_eq_true]

end

/-- The default is not computed for a question that shows it. -/
theorem ends_apply_default (defaults : d.kind = .defaultValueExpression) (h : e.ShowsDefault d literal s) :
    Ends (fun _ t => e.ShowsDefault d literal t) (fun _ => True) (e.apply d) s := by
  rw [apply, defaults]
  simp only
  rw [ends_bind, ends_get]
  split
  · exact h
  · rename_i absent
    rw [ends_bind]
    refine (ends_partValue .expression d.expression).mono ?_ fun _ _ => trivial
    intro v t ht
    -- a default that is shown without an answer is undefined, and storing it changes nothing
    have none : s.value d.owner = .undefined := Value.eq_undefined_of_not_isDefined (by simpa using absent)
    have kept : t.answers.put (.text d.owner) v = s.answers := by
      obtain ⟨w, value, shown⟩ := h
      cases value.symm.trans ht.2
      have undefined : v = .undefined := by
        rw [none] at shown
        have same : .undefined = if v.isDefined then v else literal :=
          shown.elim id fun same => (Value.unchanged_undefined_left.mp same).symm
        cases defined : v.isDefined with
        | true =>
          rw [defined, if_pos rfl] at same
          exact same.symm
        | false => exact Value.eq_undefined_of_not_isDefined defined
      have same : (s.answers.lookUp (.text d.owner)).unchanged .undefined = true :=
        Value.unchanged_undefined_right.mpr none
      rw [undefined, ht.1.answers, Fields.put, store?_eq_none_iff.mpr same, Option.getD_none]
    rw [ends_store]
    exact h.of_answers kept

/-- A write changes an answer, and in the sweep that follows it the condition of a reset holds when its turn comes,
with an answer there to be reset.  The sweep goes on with `rest`. -/
def Resets (e : Engine) (r : Binding) (w : Write) (s : Session) (rest : List Binding) : Prop :=
  ∃ key front stale m, w.target.key? = some key ∧ (s.answers.lookUp key).unchanged w.value = false ∧
    e.dependencies.propagation key.text?.toList s.disabled = front ++ r :: rest ∧
    e.sweep [] [] front { s with answers := s.answers.put key w.value } = .ok stale m ∧
    r.expression.holds (e.context m) = .ok true ∧ (m.value r.owner).isDefined = true

/-! ## The sweep after a reset -/

/-- A sweep that comes to a session goes on from there. -/
theorem ends_sweep_append {Q : List String → Session → Prop} {F : Session → Prop} {front back : List Binding}
    {ran : List Nat} {stale out : List String} (swept : e.sweep ran stale front s = .ok out t)
    (later : ∀ ran stale, Ends Q F (e.sweep ran stale back) t) :
    Ends Q F (e.sweep ran stale (front ++ back)) s := by
  induction front generalizing ran stale s with
  | nil =>
    cases swept
    exact later _ _
  | cons x rest ih =>
    rw [sweep, get_bind] at swept
    rw [List.cons_append, sweep, ends_bind, ends_get]
    split at swept
    · rename_i off
      rw [if_pos off]
      exact ih swept
    · rename_i on
      rw [if_neg on]
      simp only at swept ⊢
      cases applied : e.apply x s with
      | error f u =>
        rw [bind_eq_of_error applied] at swept
        cases swept
      | ok changed u =>
        rw [bind_eq_of_ok applied] at swept
        rw [Ends, bind_eq_of_ok applied, ← Ends]
        exact ih swept

section

variable {bindings : List Binding} (compiled : e.Compiled bindings) {q : Question}
variable (renew : Binding.Renew e.dependencies.accepted d.owner d r)
variable (noted : e.defaults.find? d.owner = some d)
variable (found : ((e.questions.find? d.owner).map (·.properties .defaultValue)).getD .undefined = literal)
include compiled renew

theorem not_mem_references_of_renew : d.owner ∉ d.references := by
  intro reads
  refine compiled.not_feeds_self renew.default ⟨?_, reads⟩
  rw [Binding.writesValue, renew.defaults]
  rfl

include noted found

/-- A default that is shown stays shown while nothing is applied that feeds it. -/
theorem ends_sweep_showsDefault {rest : List Binding} (sub : rest ⊆ e.dependencies.accepted)
    (settled : ∀ x ∈ rest, ¬ x.Feeds d) {ran : List Nat} {stale : List String} (active : s.disabled = [])
    (h : e.ShowsDefault d literal s) :
    Ends (fun _ t => e.ShowsDefault d literal t) (fun _ => True) (e.sweep ran stale rest) s := by
  have declared := compiled.mem_accepted_declared renew.default
  have apart := not_mem_references_of_renew compiled renew
  induction rest generalizing ran stale s with
  | nil => exact h
  | cons x rest ih =>
    obtain ⟨hx, hrest⟩ := List.cons_subset.mp sub
    obtain ⟨silent, later⟩ := List.forall_mem_cons.mp settled
    have applied : Ends (fun _ t => e.ShowsDefault d literal t) (fun _ => True) (e.apply x) s := by
      by_cases mine : x.writesValue = true ∧ x.owner = d.owner
      · rcases renew.sole x hx mine.1 mine.2 with rfl | rfl
        · exact ends_apply_default renew.defaults h
        · refine (ends_apply_reset noted found renew.resets mine.2 declared apart active).mono ?_ fun _ _ => trivial
          intro _ t ht
          exact ht.elim id fun same => h.of_answers same.1
      · refine ends_apply.mono (fun _ t ht => ?_) fun _ _ => trivial
        refine h.of_applied declared ht.1 (List.forall_mem_singleton.mpr silent) (List.forall_mem_singleton.mpr ?_)
        intro writes owner
        exact mine ⟨writes, owner⟩
    rw [sweep, ends_bind, ends_get, active]
    simp only [List.contains_nil, Bool.false_eq_true, if_false]
    rw [ends_bind]
    refine ((ends_apply (e := e) (b := x)).and applied).mono ?_ fun _ _ => trivial
    intro changed t ht
    have active' : t.disabled = [] := ht.1.1.recomputed.disabled.trans active
    exact ih hrest later active' ht.2

/-! ## The turn in which a reset takes place -/

/-- A write that is stored and settled, with a reset that takes place on the way, shows the default. -/
theorem ends_perform_resets {w : Write} {rest : List Binding} (active : s.disabled = [])
    (resets : e.Resets r w s rest) (settled : ∀ x ∈ rest, ¬ x.Feeds d) :
    Ends (fun _ t => e.ShowsDefault d literal t) (fun _ => True) (e.perform w) s := by
  obtain ⟨key, front, stale, m, target, differs, reached, swept, holds, answered⟩ := resets
  have declared := compiled.mem_accepted_declared renew.default
  have apart := not_mem_references_of_renew compiled renew
  have owner : r.owner = d.owner := renew.resetOwner
  have sub := compiled.propagation_subset key.text?.toList s.disabled
  have first := compiled.writersFirst_propagation key.text?.toList s.disabled
  rw [reached] at sub first
  obtain ⟨subFront, subBack⟩ := List.append_subset.mp sub
  have before := (ends_sweep compiled subFront (first.sublist (List.sublist_append_left front (r :: rest)))
    fun _ _ ran => absurd ran List.not_mem_nil).of_ok swept
  have active' : m.disabled = [] := before.1.recomputed.disabled.trans active
  have sweeping : Ends (fun _ t => e.ShowsDefault d literal t) (fun _ => True)
      (e.sweep [] [] (front ++ r :: rest)) { s with answers := s.answers.put key w.value } := by
    refine ends_sweep_append swept fun ran stale => ?_
    rw [sweep, ends_bind, ends_get, active']
    simp only [List.contains_nil, Bool.false_eq_true, if_false]
    rw [ends_bind]
    have reset := ends_apply_reset noted found renew.resets owner declared apart active'
    refine ((ends_apply (e := e) (b := r)).and reset).mono (fun changed t ht => ?_) fun _ _ => trivial
    have shown : e.ShowsDefault d literal t := ht.2.resolve_right fun idle => idle.2 ⟨holds, answered⟩
    have active'' : t.disabled = [] := ht.1.1.recomputed.disabled.trans active'
    exact ends_sweep_showsDefault compiled renew noted found (List.cons_subset.mp subBack).2 settled active'' shown
  have stored : (Fields.store? s.answers key w.value).isSome = true := by
    rw [Option.isSome_iff_ne_none, Ne, store?_eq_none_iff, differs]
    exact Bool.false_ne_true
  rw [perform, target]
  simp only
  rw [ends_bind, ends_store, if_pos stored, ends_bind, Ends, settle_eq_pass compiled, ← Ends, pass, ends_bind, ends_get,
    reached, ends_bind]
  refine sweeping.mono (fun _ t shown => ?_) fun _ _ => trivial
  refine ends_dispatch.mono (fun _ u after => ?_) fun _ _ => trivial
  exact shown.of_answers after.aside.answers

omit renew noted found in
/-- The writers of what the condition of a reset reads come before it. -/
theorem Resets.settled {w : Write} {rest : List Binding} (resets : e.Resets r w s rest)
    (reads : ∀ x ∈ e.dependencies.accepted, x.Feeds d → x.Feeds r) : ∀ x ∈ rest, ¬ x.Feeds d := by
  obtain ⟨key, front, stale, m, -, -, reached, -⟩ := resets
  have sub := compiled.propagation_subset key.text?.toList s.disabled
  have first := compiled.writersFirst_propagation key.text?.toList s.disabled
  rw [reached] at sub first
  obtain ⟨behind, -⟩ := List.pairwise_cons.mp (List.pairwise_append.mp first).2.1
  intro x mem feeds
  have accepted : x ∈ e.dependencies.accepted := sub (List.mem_append_right front (List.mem_cons_of_mem r mem))
  exact behind x mem (reads x accepted feeds)

end

/-! ## The rest of the queue -/

/-- A turn of the loop begins at a later moment and leads to one, from which the loop goes on. -/
theorem Drains.exists_turn {made : Nat} {earlier later : List Turn} {turn : Turn}
    (h : e.Drains made s (earlier ++ turn :: later) (.ok ⟨⟩ u)) :
    ∃ s' made' t', e.Leads s s' ∧ turn.before = { s' with queue := turn.before.queue } ∧
      e.turn turn.made turn.write turn.before = .ok made' t' ∧ e.Leads s t' ∧
      e.Drains made' t' later (.ok ⟨⟩ u) := by
  generalize whole : earlier ++ turn :: later = log at h
  generalize ended : EStateM.Result.ok PUnit.unit u = result at h
  induction h generalizing earlier with
  | done => simp at whole
  | fails => cases ended
  | @goes made made' s t w others log result waiting run rest ih =>
    have next := Happens.turned (e := e) made waiting
    rw [Act.after, run] at next
    cases earlier with
    | nil =>
      cases whole
      exact ⟨s, made', t, .refl, rfl, run, .single next, ended ▸ rest⟩
    | cons first earlier =>
      obtain ⟨s', made'', t', leads, before, run', leads', rest'⟩ := ih (List.cons.inj whole).2 ended
      exact ⟨s', made'', t', .head next leads, before, run', .head next leads', rest'⟩

/-- The loop comes to what emptying the queue comes to. -/
theorem Drains.drain_eq {log : List Turn} {result : EStateM.Result Fault Session PUnit} (indexed : s.Indexed)
    (h : e.Drains 0 s log result) : e.drain s = result := by
  obtain ⟨log', h'⟩ := exists_drains_drain (e := e) indexed
  exact (h'.unique h).2

/-- Turns that make no write leave the answers alone. -/
theorem Drains.answers_of_unmade {made : Nat} {log : List Turn} (indexed : s.Indexed)
    (h : e.Drains made s log (.ok ⟨⟩ u)) (unmade : ∀ turn ∈ log, e.verdict turn ≠ .performed) :
    u.answers = s.answers := by
  generalize ended : EStateM.Result.ok PUnit.unit u = result at h
  induction h with
  | done =>
    cases ended
    rfl
  | fails => cases ended
  | @goes made made' s t w rest log result waiting run _ ih =>
    obtain ⟨here, later⟩ := List.forall_mem_cons.mp unmade
    obtain ⟨took, onward⟩ := took_of_turn indexed run
    have kept : t.answers = s.answers := by
      cases took with
      | host origin => exact absurd (verdict_of_host origin) here
      | trigger origin on room => exact absurd (verdict_of_room origin on room) here
      | dropped => rfl
      | excessive _ _ _ dropped => exact dropped.answers
    exact (ih (indexed.onward onward) later ended).trans kept

/-- Without triggers and writes that wait there is one turn. -/
theorem drains_ask {target v : Value} (idle : s.queue = []) (ruleless : s.slots = [])
    (run : e.perform ⟨target, v, none⟩ s = .ok ⟨⟩ u) :
    e.Drains 0 (s.ask target v) [⟨0, ⟨target, v, none⟩, s⟩] (.ok ⟨⟩ u) := by
  have waiting : (s.ask target v).queue = [⟨target, v, none⟩] := by rw [Session.ask, idle, List.nil_append]
  have back : { s.ask target v with queue := [] } = s := by rw [Session.ask, ← idle]
  have asked : Indexed (s.ask target v) := by
    intro i a here
    rw [Session.ask, ruleless] at here
    cases here
  have empty := ends_drain_empty (e := e) asked
  rw [Ends, drain_ask idle ruleless, run] at empty
  have turned : e.turn 0 ⟨target, v, none⟩ { s.ask target v with queue := [] } = .ok 0 u := by
    rw [back]
    exact bind_eq_of_ok run
  have drains := Drains.goes waiting turned (.done empty.1)
  rwa [back] at drains

/-- A question with a computed default that a reset goes back to shows the default at the end of a call in which the
reset took place, in some turn of the queue, if nothing that was applied after it in that turn writes an input of the
default and no later turn makes a write.  Listeners may still write in turn. -/
theorem reset_shows_default {document : Value} {survey : Survey} {settings : Settings} {given : Fields}
    {navigator : Bool} {s₀ : Session} {target v : Value} {q : Question} {earlier later : List Turn} {turn : Turn}
    {rest : List Binding} (loaded : Survey.ofDocument document = .ok survey)
    (begun : start survey settings given navigator = .ok (e, s₀)) (moment : e.Leads s₀ s) (mem : q ∈ survey.questions)
    (renew : Binding.Renew e.dependencies.accepted q.name d r)
    (drains : e.Drains 0 (s.ask target v) (earlier ++ turn :: later) (.ok ⟨⟩ u)) (made : e.verdict turn = .performed)
    (resets : e.Resets r turn.write turn.before rest) (unmade : ∀ turn' ∈ later, e.verdict turn' ≠ .performed)
    (settled : ∀ w ∈ rest, ¬ w.Feeds d) :
    e.ShowsDefault d (q.properties .defaultValue) u ∧
      ((∀ l ∈ s.listeners, l.writes = none) → ∀ t, e.write target v s = .ok ⟨⟩ t →
        e.ShowsDefault d (q.properties .defaultValue) t) := by
  obtain ⟨bindings, compiled⟩ := exists_compiled begun
  obtain ⟨noted, found⟩ := noted_of_start loaded begun mem renew
  have asked : e.Leads s₀ (s.ask target v) := moment.tail (.asked target v)
  obtain ⟨s', made', t', leads, before, run, leads', others⟩ := drains.exists_turn
  have active : turn.before.disabled = [] := by
    rw [before]
    exact (lasting_of_leads begun (asked.trans leads)).active
  have turned : Ends (fun _ t => e.ShowsDefault d (q.properties .defaultValue) t) (fun _ => True)
      (e.turn turn.made turn.write) turn.before := by
    obtain ⟨count, same⟩ := exists_turn_of_performed made
    rw [Ends, same, ← Ends, ends_bind]
    exact ends_perform_resets compiled (renew.defaultOwner ▸ renew) noted found active resets settled
  have shown : e.ShowsDefault d (q.properties .defaultValue) u := by
    refine (turned.of_ok run).of_answers ?_
    exact others.answers_of_unmade (indexed_of_leads begun (asked.trans leads')) unmade
  refine ⟨shown, ?_⟩
  intro mute t written
  have drained := drains.drain_eq (indexed_of_leads begun asked)
  have listeners := ((ends_drain_untold compiled _).of_ok drained).1
  have told := told_of_write drained (fun l mem => mute l (listeners ▸ mem)) written
  refine shown.of_answers ?_
  rw [told]

end Engine

/-! ## A default that reads a computed value -/

namespace Renewal

/-- What the condition of the reset reads: the computed answer, or the one that it is computed from. -/
def name (computed : Bool) : String := if computed then "x" else "a"

def condition (computed : Bool) : String := if computed then "{x} > 5" else "{a} > 5"

/-- The answer `x` is the successor of `a` and the default of `q`, which a condition resets. -/
def document (computed : Bool) : Value :=
  Sample.fields [("elements", .sequence [
    Sample.fields [("name", .text "a")],
    Sample.fields [("name", .text "q"), ("defaultValueExpression", .text "{x}"),
      ("resetValueIf", .text (condition computed))],
    Sample.fields [("name", .text "x"), ("setValueExpression", .text "{a} + 1")]])]

def survey (computed : Bool) : Survey :=
  match Survey.ofDocument (document computed) with
  | .ok survey => survey
  | .error _ => ⟨.undefined, .undefined, .undefined, [], [], []⟩

/-- The condition that an answer is great. -/
def great (name : String) : Expr := .binary (.relation .greater) (.reference name) (.literal (Sample.whole 5))

def default : Binding :=
  ⟨.defaultValueExpression, "q", .question, .defaultValueExpression, .reference "x", "{x}", 0, none, .undefined, ["x"]⟩

def reset (computed : Bool) : Binding :=
  ⟨.resetValueIf, "q", .question, .resetValueIf, great (name computed), condition computed, 1, none, .undefined,
    [name computed]⟩

def successor : Binding :=
  ⟨.setValueExpression, "x", .question, .setValueExpression, Sample.successor, "{a} + 1", 2, none, .undefined, ["a"]⟩

def bindings (computed : Bool) : List Binding := [default, reset computed, successor]

theorem loaded (computed : Bool) : Survey.ofDocument (document computed) = .ok (survey computed) := rfl

theorem bound (computed : Bool) : (survey computed).bindings = .ok (bindings computed, []) := by
  have input : Expr.ofText "{x}" = .ok (.reference "x") := by cbv
  have next : Expr.ofText "{a} + 1" = .ok Sample.successor := by cbv
  have late : Expr.ofText "{x} > 5" = .ok (great "x") := by cbv
  have early : Expr.ofText "{a} > 5" = .ok (great "a") := by cbv
  have rules : Rule.ofSurvey (survey computed) =
      [Sample.rule .defaultValueExpression "q" .defaultValueExpression "{x}",
        Sample.rule .resetValueIf "q" .resetValueIf (condition computed),
        Sample.rule .setValueExpression "x" .setValueExpression "{a} + 1"] := by
    cases computed <;> rfl
  rw [Survey.bindings, rules]
  cases computed <;>
    · simp [Sample.rule, Rule.compile, Rule.parse, condition, input, next, late, early, Value.truthy, bind, Except.bind,
        pure, Except.pure]
      rfl

def engine (computed : Bool) : Engine := Engine.ofBindings (survey computed) Sample.settings (bindings computed)

/-- The session that starts with a one for `a`. -/
@[irreducible] def first (computed : Bool) : Session :=
  Act.after (engine computed).applyAll ((engine computed).opening [] [] (Sample.wholes [("a", 1)]) false)

theorem started (computed : Bool) : Engine.start (survey computed) Sample.settings (Sample.wholes [("a", 1)]) false =
    .ok (engine computed, first computed) := by
  obtain ⟨_, s, ended, -⟩ : ∃ a s, (engine computed).applyAll
      ((engine computed).opening [] [] (Sample.wholes [("a", 1)]) false) = .ok a s ∧ s.disabled = [] := by
    cases computed <;> exact Act.exists_of_seen (by decide +kernel)
  have left : first computed = s := by rw [first, Act.after, ended]
  have each : ((survey computed).triggers.mapIdx Slot.ofTrigger).mapM id = .ok [] := rfl
  rw [left]
  exact Engine.start_of_applyAll (bound computed) each ended

theorem triggers (computed : Bool) : (survey computed).triggers = [] := rfl

/-- The default and the reset of `q` are the bindings that write its answer. -/
theorem renew (computed : Bool) :
    Binding.Renew (engine computed).dependencies.accepted "q" default (reset computed) := by
  have accepted : (engine computed).dependencies.accepted = bindings computed := by cases computed <;> rfl
  rw [accepted]
  refine ⟨by simp [bindings], by simp [bindings], rfl, rfl, rfl, rfl, ?_⟩
  intro b mem _ owner
  simp only [bindings, List.mem_cons, List.not_mem_nil, or_false] at mem
  rcases mem with rfl | rfl | rfl
  · exact Or.inl rfl
  · exact Or.inr rfl
  · simp [successor] at owner

/-- What comes of an eight for `a`. -/
theorem answered (computed : Bool) : ∃ u,
    (engine computed).perform ⟨.text "a", Sample.whole 8, none⟩ (first computed) = .ok ⟨⟩ u ∧
      u.answers = Sample.wholes [("a", 8), ("x", 9), ("q", if computed then 9 else 2)] := by
  obtain ⟨_, u, run, seen⟩ : ∃ a u,
      (engine computed).perform ⟨.text "a", Sample.whole 8, none⟩ (first computed) = .ok a u ∧
        u.answers.map Sample.whole? = [some ("a", 8), some ("x", 9), some ("q", if computed then 9 else 2)] := by
    cases computed <;> exact Act.exists_of_seen (by decide +kernel)
  exact ⟨u, run, Sample.eq_wholes seen⟩

/-- The eight for `a` is the one write that is made. -/
theorem drained (computed : Bool) : ∃ u,
    (engine computed).Drains 0 ((first computed).ask (.text "a") (Sample.whole 8))
        [⟨0, ⟨.text "a", Sample.whole 8, none⟩, first computed⟩] (.ok ⟨⟩ u) ∧
      u.answers = Sample.wholes [("a", 8), ("x", 9), ("q", if computed then 9 else 2)] := by
  obtain ⟨u, run, answers⟩ := answered computed
  have idle := (Engine.primed_of_start (started computed)).1.queue
  have ruleless := Engine.slots_of_leads (triggers computed) (started computed) .refl
  exact ⟨u, Engine.drains_ask idle ruleless run, answers⟩

/-- What is applied after the reset: it waits for `x` only if its condition reads it. -/
def rest (computed : Bool) : List Binding := if computed then [] else [successor, default]

/-- The reset takes place when `a` is answered by eight. -/
theorem resets (computed : Bool) : (engine computed).Resets (reset computed) ⟨.text "a", Sample.whole 8, none⟩
    (first computed) (rest computed) := by
  have active := (Engine.lasting_of_leads (started computed) .refl).active
  have reached : (engine computed).dependencies.propagation ["a"] [] =
      (if computed then [successor, default] else []) ++ reset computed :: rest computed := by
    cases computed <;> rfl
  have differs : ((first computed).answers.lookUp (.text "a")).unchanged (Sample.whole 8) = false := by
    cases computed <;> decide +kernel
  obtain ⟨stale, m, swept, seen⟩ : ∃ stale m,
      (engine computed).sweep [] [] (if computed then [successor, default] else [])
        { first computed with answers := (first computed).answers.put (.text "a") (Sample.whole 8) } = .ok stale m ∧
      (((great (name computed)).holds ((engine computed).context m)).toOption, (m.value "q").isDefined) =
        (some true, true) := by
    cases computed <;> exact Act.exists_of_seen (by decide +kernel)
  obtain ⟨holds, answered⟩ := Prod.mk.inj seen
  refine ⟨.text "a", _, stale, m, rfl, differs, ?_, swept, ?_, answered⟩
  · rw [active]
    exact reached
  · cases result : (great (name computed)).holds ((engine computed).context m) with
    | ok b =>
      rw [result] at holds
      exact result.trans (congrArg Except.ok (Option.some.inj holds))
    | error stop =>
      rw [result] at holds
      cases holds

end Renewal

namespace Engine

/-- The condition of the reset reads what the default reads, and `q` shows the new `x`. -/
theorem late_reset_shows : ∃ q ∈ (Renewal.survey true).questions, ∃ u,
    start (Renewal.survey true) Sample.settings (Sample.wholes [("a", 1)]) false =
      .ok (Renewal.engine true, Renewal.first true) ∧
    (Renewal.engine true).drain ((Renewal.first true).ask (.text "a") (Sample.whole 8)) = .ok ⟨⟩ u ∧
    u.value "q" = Sample.whole 9 ∧ (Renewal.engine true).ShowsDefault Renewal.default (q.properties .defaultValue) u := by
  have question : "q" ∈ (Renewal.survey true).questions.map (·.name) := by decide
  obtain ⟨q, mem, named⟩ := List.mem_map.mp question
  have begun := Renewal.started true
  have renew : Binding.Renew (Renewal.engine true).dependencies.accepted q.name Renewal.default (Renewal.reset true) :=
    named ▸ Renewal.renew true
  obtain ⟨bindings, compiled⟩ := exists_compiled begun
  obtain ⟨u, drains, answers⟩ := Renewal.drained true
  have one : (Renewal.engine true).Drains 0 ((Renewal.first true).ask (.text "a") (Sample.whole 8))
    ([] ++ (⟨0, ⟨.text "a", Sample.whole 8, none⟩, Renewal.first true⟩ : Turn) :: []) (.ok ⟨⟩ u) := drains
  have reads (x : Binding) (feeds : x.Feeds Renewal.default) : x.Feeds (Renewal.reset true) := feeds
  have resets := Renewal.resets true
  have shown := (reset_shows_default (Renewal.loaded true) begun .refl mem renew one (verdict_of_host rfl) resets
    (List.forall_mem_nil _) (resets.settled compiled fun x _ => reads x)).1
  refine ⟨q, mem, u, begun, drains.drain_eq (indexed_of_leads begun (.single (.asked _ _))), ?_, shown⟩
  rw [Session.value, answers]
  rfl

/-- The condition of the reset reads `a` alone.  The reset takes place before the new `x` is computed, and `q` keeps the
old one. -/
theorem early_reset_stale : ∃ u turn, Survey.ofDocument (Renewal.document false) = .ok (Renewal.survey false) ∧
    (Renewal.survey false).names.Nodup ∧ (Renewal.survey false).triggers = [] ∧
    start (Renewal.survey false) Sample.settings (Sample.wholes [("a", 1)]) false =
      .ok (Renewal.engine false, Renewal.first false) ∧
    Binding.Renew (Renewal.engine false).dependencies.accepted "q" Renewal.default (Renewal.reset false) ∧
    (Renewal.engine false).Drains 0 ((Renewal.first false).ask (.text "a") (Sample.whole 8)) [turn] (.ok ⟨⟩ u) ∧
    (Renewal.engine false).Resets (Renewal.reset false) turn.write turn.before (Renewal.rest false) ∧
    (Renewal.engine false).write (.text "a") (Sample.whole 8) (Renewal.first false) = .ok ⟨⟩ u ∧
    (Renewal.engine false).current u Renewal.default.expression = .ok (Sample.whole 9) ∧
    u.value "q" = Sample.whole 2 ∧ (u.value "q").unchanged (Sample.whole 9) = false := by
  have begun := Renewal.started false
  obtain ⟨bindings, compiled⟩ := exists_compiled begun
  obtain ⟨u, drains, answers⟩ := Renewal.drained false
  have drained := drains.drain_eq (indexed_of_leads begun (.single (.asked _ _)))
  have unheard : u.listeners = [] :=
    ((ends_drain_untold compiled _).of_ok drained).1.trans (primed_of_start begun).1.listeners
  have value : u.value "q" = Sample.whole 2 := by
    rw [Session.value, answers]
    rfl
  refine ⟨u, _, Renewal.loaded false, by decide, rfl, begun, Renewal.renew false, drains, Renewal.resets false, ?_, ?_,
    value, ?_⟩
  · rw [write, writeWithin_of_drained _ drained, unheard]
    split <;> rfl
  · rw [current, context, answers]
    rfl
  · rw [value]
    decide +kernel

end Engine

end Questionnaire
