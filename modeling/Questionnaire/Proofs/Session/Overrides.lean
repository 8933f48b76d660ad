import Questionnaire.Proofs.Session.Edges
import Questionnaire.Proofs.Session.Moments
import Questionnaire.Proofs.Session.Retention

/-!
# What is written over a computed value

A question that shows an expression is computed when something changes that the expression reads, and at no other time.
A write of the question itself is a write like any other one.  It puts its value there, and as no binding feeds
back into itself nothing computes the old one again.  So the question shows what was last written over it, by the host
or by a trigger, until a change reaches its expression.

The log of a run tells which of the two holds.  What a turn leaves over the computed value is a function of the turn
and of what was there before, and the run lemma follows the log turn by turn.
-/
namespace Questionnaire

open Act

/-! ## The binding of a shown expression -/

namespace Rule

theorem eq_of_mem_plain {owner : String} {ownerKind : OwnerKind} {properties : Properties} {kind : BindingKind}
    {property : Property} {r : Rule} (mem : r ∈ plain owner ownerKind properties kind property) :
    r = ⟨kind, owner, ownerKind, property, properties property, .undefined, .undefined⟩ := by
  unfold plain at mem
  simp only at mem
  split at mem
  · exact List.mem_singleton.mp mem
  · cases mem

/-- The expression that a question shows is compiled like a value that is always set. -/
theorem of_expression {s : Survey} {r : Rule} (mem : r ∈ ofSurvey s) (shows : r.property = .expression) :
    r.kind = .setValueExpression ∧ r.gate = .undefined := by
  have other {owner : String} {ownerKind : OwnerKind} {properties : Properties} {kind : BindingKind}
      {property : Property} (differs : property ≠ .expression) :
      r ∉ plain owner ownerKind properties kind property := by
    intro mem
    rw [eq_of_mem_plain mem] at shows
    exact differs shows
  have unset {q : Question} : r ∉ setting q := by
    unfold setting
    simp only
    intro mem
    split at mem
    · rw [List.mem_singleton.mp mem] at shows
      cases shows
    · split at mem
      · rw [List.mem_singleton.mp mem] at shows
        cases shows
      · cases mem
  obtain ⟨p, -, mem⟩ := List.mem_flatMap.mp mem
  rcases List.mem_append.mp mem with page | question
  · simp [ofPage, other] at page
  · obtain ⟨q, -, mem⟩ := List.mem_flatMap.mp question
    simp only [ofQuestion, List.mem_append, other, unset, ne_eq, reduceCtorEq, not_false_eq_true, or_false,
      false_or] at mem
    split at mem
    · rw [eq_of_mem_plain mem]
      exact ⟨rfl, rfl⟩
    · cases mem

end Rule

/-- A shown expression has no condition. -/
theorem Survey.of_expression {s : Survey} {bindings : List Binding} {problems : List Diagnostic}
    (bound : s.bindings = .ok (bindings, problems)) {b : Binding} (mem : b ∈ bindings)
    (shows : b.property = .expression) : b.kind = .setValueExpression ∧ b.gate = none := by
  obtain ⟨r, known, b', _, i, compiled, rfl⟩ := exists_rule_of_bindings bound mem
  obtain ⟨kind, place, gate⟩ := Rule.like_of_compile compiled
  obtain ⟨computed, none⟩ := Rule.of_expression known ((Prod.mk.inj place).2.symm.trans shows)
  exact ⟨kind.trans computed, gate (by rw [none]; rfl)⟩

namespace Engine

/-! ## One turn -/

/-- What covers a computed value after a turn: what the turn writes over it, and nothing if its change reaches the
binding.  Every other turn leaves the cover that there was. -/
def coverAfter (e : Engine) (b : Binding) (turn : Turn) (cover : Option Value) : Option Value :=
  match e.settledIn turn, turn.write.target with
  | some _, .text name =>
    if name = b.owner then some turn.write.value
    else if (e.dependencies.propagation [name] []).any (·.order == b.order) then none
    else cover
  | _, _ => cover

/-- What covers a computed value after some turns, with the cover that there was before. -/
def coverOf (e : Engine) (b : Binding) (cover : Option Value) (log : List Turn) : Option Value :=
  log.foldl (fun cover turn => e.coverAfter b turn cover) cover

/-- The owner of a binding shows the cover, or without one what the binding computes. -/
def ShowsUnder (e : Engine) (b : Binding) (cover : Option Value) (s : Session) : Prop :=
  match cover with
  | none => e.UpToDate s b
  | some v => s.value b.owner = v

variable {e : Engine} {b : Binding} {cover : Option Value} {s t : Session}

section

variable {bindings : List Binding} (compiled : e.Compiled bindings) (decides : b.Decides e.dependencies.accepted)
  (writes : b.writesValue = true)
include compiled decides writes

/-- What is shown depends on answers alone. -/
theorem ShowsUnder.of_answers (h : e.ShowsUnder b cover s) (answers : t.answers = s.answers) :
    e.ShowsUnder b cover t := by
  have same (name : String) : t.value name = s.value name := by rw [Session.value, Session.value, answers]
  cases cover with
  | none =>
    exact UpToDate.congr h (compiled.mem_accepted_declared decides.mem) (fun name _ => same name)
      (fun _ => same b.owner) fun flag => by simp [writes] at flag
  | some v => exact (same b.owner).trans h

omit compiled in
/-- No other binding writes what the binding computes. -/
theorem owner_of_ne {other : Binding} (mem : other ∈ e.dependencies.accepted) (differs : other ≠ b)
    (writes' : other.writesValue = true) : Key.text b.owner ≠ .text other.owner := by
  intro same
  refine differs (decides.sole other mem ?_)
  simp [Binding.target, writes, writes', Key.text.inj same]

/-- A stored value covers what was computed. -/
theorem showsUnder_of_store {v : Value} {answers : Fields}
    (stored : Fields.store? s.answers (.text b.owner) v = some answers) :
    Ends (fun _ t => e.ShowsUnder b (some v) t) (fun _ => True) (e.settle [b.owner]) { s with answers } := by
  have put : s.answers.put (.text b.owner) v = answers := by rw [Fields.put, stored, Option.getD_some]
  have found : answers.lookUp (.text b.owner) = v := by
    rw [← put, Fields.lookUp_put_self, if_neg]
    intro same
    rw [store?_eq_none_iff.mpr same] at stored
    cases stored
  refine (ends_settle_propagation compiled [b.owner] _).mono ?_ fun _ _ => trivial
  intro _ t applied
  have free : ∀ x ∈ e.dependencies.propagation [b.owner] s.disabled, x.writesValue = true →
      Key.text b.owner ≠ .text x.owner := by
    intro x mem writes'
    refine owner_of_ne decides writes (compiled.propagation_subset _ _ mem) ?_ writes'
    rintro rfl
    rw [compiled.dependencies] at mem
    exact Dependencies.not_mem_propagation_owner compiled.numbered (compiled.dependencies ▸ decides.mem) writes _ mem
  have kept := value_eq_of_find? (applied.answers (.text b.owner) free)
  exact kept.trans found

omit writes in
theorem any_order_iff {changed : List String} :
    (e.dependencies.propagation changed []).any (·.order == b.order) = true ↔
      b ∈ e.dependencies.propagation changed [] := by
  rw [List.any_eq_true]
  constructor
  · rintro ⟨x, mem, same⟩
    obtain rfl := compiled.eq_of_order (compiled.propagation_subset _ _ mem) decides.mem (by simpa using same)
    exact mem
  · exact fun mem => ⟨b, mem, by simp⟩

/-- A change that reaches the binding takes the cover away, and one that does not leaves what is shown. -/
theorem showsUnder_of_settle (active : s.disabled = []) (h : e.ShowsUnder b cover s) {key : Key}
    (other : (key == Key.text b.owner) = false) (v : Value) :
    Ends (fun _ t => (b ∈ e.dependencies.propagation key.text?.toList [] → e.ShowsUnder b none t) ∧
        (b ∉ e.dependencies.propagation key.text?.toList [] → e.ShowsUnder b cover t))
      (fun _ => True) (e.settle key.text?.toList) { s with answers := s.answers.put key v } := by
  have settled := (ends_settle_upToDate compiled key.text?.toList (s := { s with answers := s.answers.put key v })
    active).and (ends_settle_propagation compiled key.text?.toList _)
  refine settled.mono ?_ fun _ _ => trivial
  rintro _ t ⟨upToDate, applied⟩
  refine ⟨fun reached => upToDate b decides (Or.inl reached), fun out => ?_⟩
  simp only [active] at applied
  obtain ⟨unread, unfed⟩ := compiled.unreached decides.mem out
  have stays : Session.value { s with answers := s.answers.put key v } b.owner = s.value b.owner :=
    value_eq_of_find? (Fields.find?_put_of_differs v other)
  cases cover with
  | none =>
    refine upToDate b decides (Or.inr ⟨?_, unfed⟩)
    exact UpToDate.congr h (compiled.mem_accepted_declared decides.mem)
      (fun name reads => value_eq_of_find? (Fields.find?_put_of_differs v (unread name reads)))
      (fun _ => stays) fun flag => by simp [writes] at flag
  | some covered =>
    have free : ∀ x ∈ e.dependencies.propagation key.text?.toList [], x.writesValue = true →
        Key.text b.owner ≠ .text x.owner := by
      intro x mem writes'
      refine owner_of_ne decides writes (compiled.propagation_subset _ _ mem) ?_ writes'
      rintro rfl
      exact out mem
    have kept := value_eq_of_find? (applied.answers (.text b.owner) free)
    exact kept.trans (stays.trans h)

/-- A turn that settles leaves the cover over what is computed that it is said to leave. -/
theorem showsUnder_of_settledIn {turn : Turn} (active : turn.before.disabled = [])
    (h : e.ShowsUnder b cover turn.before) (settled : e.settledIn turn = some t) :
    e.ShowsUnder b (e.coverAfter b turn cover) t := by
  obtain ⟨key, answers, hkey, stored, ended⟩ := settle_of_settledIn settled
  have put : turn.before.answers.put key turn.write.value = answers := by rw [Fields.put, stored, Option.getD_some]
  have elsewhere (other : (key == Key.text b.owner) = false) := by
    have settles := showsUnder_of_settle compiled decides writes active h other turn.write.value
    rw [put] at settles
    exact settles.of_ok ended
  rw [coverAfter, settled]
  cases target : turn.write.target with
  | text name =>
    rw [target] at hkey
    cases hkey
    simp only
    split
    · rename_i own
      subst own
      exact (showsUnder_of_store compiled decides writes stored).of_ok ended
    · rename_i other
      obtain ⟨reached, out⟩ := elsewhere (Key.text_differs fun same => other (Key.text.inj same).symm)
      split
      · rename_i found
        exact reached ((any_order_iff compiled decides).mp found)
      · rename_i none
        exact out fun found => none ((any_order_iff compiled decides).mpr found)
  | sequence | structured =>
    rw [target] at hkey
    cases hkey
  | undefined | boolean | number =>
    rw [target] at hkey
    cases hkey
    refine (elsewhere ?_).2 ?_
    · rw [BEq.comm]
      exact Key.text_differs fun same => Key.noConfusion same
    · simp [Key.text?, propagation_nil]

end

/-- A turn ends with the answers of the session that it settles, or with those that it found. -/
theorem Took.answers {turn : Turn} {made : Nat} (h : e.Took turn made t) :
    t.answers = ((e.settledIn turn).getD turn.before).answers := by
  have performs (verdict : e.verdict turn = .performed) (performed : e.Performed turn.write turn.before t) :
      t.answers = ((e.settledIn turn).getD turn.before).answers := by
    rw [settledIn, if_pos verdict]
    unfold Performed at performed
    cases after : e.settledAfter turn.write turn.before with
    | none =>
      rw [after] at performed
      rw [performed, Option.getD_none]
    | some u =>
      rw [after] at performed
      rw [performed.2.answers, Option.getD_some]
  cases h with
  | host origin performed => exact performs (verdict_of_host origin) performed
  | trigger origin on room performed => exact performs (verdict_of_room origin on room) performed
  | dropped origin off => rw [settledIn, if_neg (by simp [verdict_of_off origin off]), Option.getD_none]
  | excessive origin on full dropped =>
    rw [settledIn, if_neg (by simp [verdict_of_full origin on full]), Option.getD_none, dropped.answers]

section

variable {bindings : List Binding} (compiled : e.Compiled bindings) (decides : b.Decides e.dependencies.accepted)
  (writes : b.writesValue = true)
include compiled decides writes

/-- Every turn leaves the cover that it is said to leave. -/
theorem Took.showsUnder {turn : Turn} {made : Nat} (took : e.Took turn made t) (active : turn.before.disabled = [])
    (h : e.ShowsUnder b cover turn.before) : e.ShowsUnder b (e.coverAfter b turn cover) t := by
  have answers := took.answers
  cases settled : e.settledIn turn with
  | none =>
    rw [settled, Option.getD_none] at answers
    have kept : e.coverAfter b turn cover = cover := by rw [coverAfter, settled]
    rw [kept]
    exact h.of_answers compiled decides writes answers
  | some u =>
    rw [settled, Option.getD_some] at answers
    exact (showsUnder_of_settledIn compiled decides writes active h settled).of_answers compiled decides writes answers

end

/-! ## Runs -/

section

variable {survey : Survey} {settings : Settings} {given : Fields} {navigator : Bool} {s₀ : Session}
  (begun : start survey settings given navigator = .ok (e, s₀)) (decides : b.Decides e.dependencies.accepted)
  (writes : b.writesValue = true)
include begun decides writes

theorem Drains.showsUnder {made : Nat} {log : List Turn} (moment : e.Leads s₀ s) (h : e.ShowsUnder b cover s)
    (drains : e.Drains made s log (.ok ⟨⟩ t)) : e.Leads s₀ t ∧ e.ShowsUnder b (e.coverOf b cover log) t := by
  obtain ⟨bindings, compiled⟩ := exists_compiled begun
  generalize ended : EStateM.Result.ok PUnit.unit t = result at drains
  induction drains generalizing cover with
  | done =>
    cases ended
    exact ⟨moment, h⟩
  | fails => cases ended
  | @goes made made' s u w rest log result waiting run _ ih =>
    have taken : e.ShowsUnder b cover { s with queue := rest } := h.of_answers compiled decides writes rfl
    have active : Session.disabled { s with queue := rest } = [] := (lasting_of_leads begun moment).active
    obtain ⟨took, -⟩ := took_of_turn (indexed_of_leads begun moment) run
    have next := moment.tail (.turned made waiting)
    rw [Act.after, run] at next
    exact ih next (took.showsUnder compiled decides writes active taken) ended

theorem Follows.showsUnder {host : List (Value × Value)} {log : List Turn} (moment : e.Leads s₀ s)
    (h : e.ShowsUnder b cover s) (follows : e.Follows s host log t) :
    e.Leads s₀ t ∧ e.ShowsUnder b (e.coverOf b cover log) t := by
  obtain ⟨bindings, compiled⟩ := exists_compiled begun
  induction follows generalizing cover with
  | none => exact ⟨moment, h⟩
  | @write s t u w host log later drains _ ih =>
    have asked : e.ShowsUnder b cover (s.ask w.1 w.2) := h.of_answers compiled decides writes rfl
    obtain ⟨moment', shown⟩ := drains.showsUnder begun decides writes (moment.tail (.asked w.1 w.2)) asked
    rw [coverOf, List.foldl_append]
    exact ih moment' shown

end

/-- What a question shows that shows an expression, if no other binding writes it.  After every run that ended
normally, whatever the host and the triggers wrote, it shows the value of the expression on the current answers, or
what was written over it since that was last computed.  Without such a write it has no answer if the expression is
undefined or fails. -/
theorem expression_shown_or_overwritten {survey : Survey} {settings : Settings} {given : Fields} {navigator : Bool}
    {s₀ : Session} (begun : start survey settings given navigator = .ok (e, s₀))
    (mem : b ∈ e.dependencies.accepted) (shows : b.property = .expression)
    (sole : ∀ other ∈ e.dependencies.accepted, other.writesValue = true → other.owner = b.owner → other = b)
    {host : List (Value × Value)} (run : (host.forM fun w => e.write w.1 w.2) s₀ = .ok ⟨⟩ s) :
    ∃ log, e.Follows s₀ host log s ∧
      match e.coverOf b none log with
      | none => ∃ v, e.current s b.expression = .ok v ∧ (s.value b.owner).Matches v ∧
          (v = .undefined → s.answers.find? (.text b.owner) = none)
      | some v => s.value b.owner = v := by
  obtain ⟨bindings, problems, bound, engine, started⟩ := started_of_start begun
  have compiled : e.Compiled bindings := engine ▸ compiled_ofBindings bound settings
  obtain ⟨kind, gate⟩ := Survey.of_expression bound
    (Dependencies.accepted_subset (compiled.dependencies ▸ mem)) shows
  have writes : b.writesValue = true := by rw [Binding.writesValue, kind]; rfl
  have decides := decides_of_computed mem kind gate sole
  have fresh := (primed_of_start begun).1
  obtain ⟨log, follows⟩ := follows_of_writes compiled fresh.indexed fresh.listeners run
  have first : e.ShowsUnder b none s₀ := started.upToDate b decides
  obtain ⟨moment, shown⟩ := follows.showsUnder begun decides writes .refl first
  refine ⟨log, follows, ?_⟩
  cases covered : e.coverOf b none log with
  | some v =>
    rw [covered] at shown
    exact shown
  | none =>
    rw [covered] at shown
    obtain ⟨v, value, matched, -⟩ := shown
    refine ⟨v, value, matched writes, ?_⟩
    rintro rfl
    exact Fields.find?_eq_none_of_lookUp (lasting_of_leads begun moment).defined
      ((matched writes).elim id Value.unchanged_undefined_right.mp)

end Engine

/-! ## A write over a sum -/

namespace Overridden

/-- The question `q` shows the successor of `a`. -/
def document : Value :=
  Sample.fields [("elements", .sequence [
    Sample.fields [("name", .text "a")],
    Sample.fields [("name", .text "q"), ("type", .text "expression"), ("expression", .text "{a} + 1")]])]

def survey : Survey :=
  match Survey.ofDocument document with
  | .ok survey => survey
  | .error _ => ⟨.undefined, .undefined, .undefined, [], [], []⟩

def shown : Binding :=
  ⟨.setValueExpression, "q", .question, .expression, Sample.successor, "{a} + 1", 0, none, .undefined, ["a"]⟩

theorem loaded : Survey.ofDocument document = .ok survey := rfl

theorem bound : survey.bindings = .ok ([shown], []) := by
  have next : Expr.ofText "{a} + 1" = .ok Sample.successor := by cbv
  have rules : Rule.ofSurvey survey = [Sample.rule .setValueExpression "q" .expression "{a} + 1"] := rfl
  rw [Survey.bindings, rules]
  simp [Sample.rule, Rule.compile, Rule.parse, next, Value.truthy, bind, Except.bind, pure, Except.pure]
  rfl

def engine : Engine := Engine.ofBindings survey Sample.settings [shown]

/-- The session that starts with a one for `a`. -/
@[irreducible] def first : Session :=
  Act.after engine.applyAll (engine.opening [] [] (Sample.wholes [("a", 1)]) false)

theorem started : Engine.start survey Sample.settings (Sample.wholes [("a", 1)]) false = .ok (engine, first) := by
  obtain ⟨_, s, ended, -⟩ : ∃ a s, engine.applyAll
      (engine.opening [] [] (Sample.wholes [("a", 1)]) false) = .ok a s ∧ s.disabled = [] :=
    Act.exists_of_seen (by decide +kernel)
  have left : first = s := by rw [first, Act.after, ended]
  rw [left]
  exact Engine.start_of_applyAll bound rfl ended

theorem accepted : engine.dependencies.accepted = [shown] := rfl

theorem five_differs {n : Int} (differs : (Sample.whole 5).unchanged (Sample.whole n) = false) :
    ¬ (Sample.whole 5).Matches (Sample.whole n) := by
  rintro (same | same)
  · cases same
    exact absurd differs (by decide +kernel)
  · rw [differs] at same
    cases same

end Overridden

namespace Engine

/-- A five written over the sum stays there, though the sum is eight since `a` was answered by seven. -/
theorem sum_covered : ∃ s log,
    start Overridden.survey Sample.settings (Sample.wholes [("a", 1)]) false =
      .ok (Overridden.engine, Overridden.first) ∧
    Overridden.engine.Follows Overridden.first [(.text "a", Sample.whole 7), (.text "q", Sample.whole 5)] log s ∧
    Overridden.engine.current s Overridden.shown.expression = .ok (Sample.whole 8) ∧
    Overridden.engine.coverOf Overridden.shown none log = some (Sample.whole 5) := by
  obtain ⟨⟨⟩, s, run, seen⟩ : ∃ a s,
      ([(.text "a", Sample.whole 7), (.text "q", Sample.whole 5)].forM
        fun w => Overridden.engine.write w.1 w.2) Overridden.first = .ok a s ∧
      s.answers.map Sample.whole? = [some ("a", 7), some ("q", 5)] :=
    exists_of_seen (by decide +kernel)
  have answers : s.answers = Sample.wholes [("a", 7), ("q", 5)] := Sample.eq_wholes seen
  have value : s.value "q" = Sample.whole 5 := by rw [Session.value, answers]; rfl
  have current : Overridden.engine.current s Overridden.shown.expression = .ok (Sample.whole 8) := by
    rw [Engine.current, context, answers]
    rfl
  have sole : ∀ other ∈ Overridden.engine.dependencies.accepted, other.writesValue = true →
      other.owner = Overridden.shown.owner → other = Overridden.shown :=
    fun other mem _ _ => List.mem_singleton.mp (Overridden.accepted ▸ mem)
  obtain ⟨log, follows, shown⟩ := expression_shown_or_overwritten Overridden.started
    (Overridden.accepted ▸ List.mem_singleton_self _) rfl sole run
  refine ⟨s, log, Overridden.started, follows, current, ?_⟩
  cases covered : Overridden.engine.coverOf Overridden.shown none log with
  | some v =>
    rw [covered] at shown
    exact congrArg some (shown.symm.trans value)
  | none =>
    rw [covered] at shown
    obtain ⟨v, computed, matched, -⟩ := shown
    cases current.symm.trans computed
    have matched : (s.value "q").Matches (Sample.whole 8) := matched
    rw [value] at matched
    exact absurd matched (Overridden.five_differs (by decide +kernel))

/-- The store takes a five for a question that shows the sum of one and one, and nothing computes it again. -/
theorem expression_written_over : ∃ s, Survey.ofDocument Overridden.document = .ok Overridden.survey ∧
    Overridden.survey.names.Nodup ∧ Overridden.survey.triggers = [] ∧
    start Overridden.survey Sample.settings (Sample.wholes [("a", 1)]) false =
      .ok (Overridden.engine, Overridden.first) ∧
    Overridden.engine.dependencies.accepted = [Overridden.shown] ∧ Overridden.shown.property = .expression ∧
    Overridden.engine.write (.text "q") (Sample.whole 5) Overridden.first = .ok ⟨⟩ s ∧
    Overridden.engine.current s Overridden.shown.expression = .ok (Sample.whole 2) ∧
    s.value "q" = Sample.whole 5 ∧ ¬ (s.value "q").Matches (Sample.whole 2) := by
  obtain ⟨_, s, run, seen⟩ : ∃ a s, Overridden.engine.write (.text "q") (Sample.whole 5) Overridden.first = .ok a s ∧
      s.answers.map Sample.whole? = [some ("a", 1), some ("q", 5)] :=
    Act.exists_of_seen (by decide +kernel)
  have answers : s.answers = Sample.wholes [("a", 1), ("q", 5)] := Sample.eq_wholes seen
  have value : s.value "q" = Sample.whole 5 := by rw [Session.value, answers]; rfl
  refine ⟨s, Overridden.loaded, by decide, rfl, Overridden.started, Overridden.accepted, rfl, run, ?_, value, ?_⟩
  · rw [current, context, answers]
    rfl
  · rw [value]
    exact Overridden.five_differs (by decide +kernel)

end Engine

end Questionnaire
