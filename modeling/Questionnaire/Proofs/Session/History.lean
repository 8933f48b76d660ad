import Questionnaire.Proofs.Session.Freshness

/-!
# The history does not matter

When all answers that bindings write are computed without gates, at most one binding for each question, then the
answers are a solution of equations, one for each computed question.  The equations have no cycle, so what is not
computed fixes the solution: two sessions that agree there agree everywhere, whatever writes led to them, and their
flags agree too.  A new session that is given the answers of another one finds the solution already there.
-/
namespace Questionnaire

open Act
open Session (Noted Aside Dispatched)

/-- The bindings in use that write a value compute it without a gate, at most one for each question. -/
structure Dependencies.Computing (d : Dependencies) : Prop where
  computed : ∀ b ∈ d.accepted, b.writesValue = true → b.kind = .setValueExpression ∧ b.gate = none
  single : ∀ a ∈ d.accepted, ∀ b ∈ d.accepted, a.writesValue = true → b.writesValue = true →
    a.owner = b.owner → a = b

/-- No binding in use writes the answer under a key. -/
def Dependencies.Spares (d : Dependencies) (key : Key) : Prop :=
  ∀ b ∈ d.accepted, b.writesValue = true → key ≠ .text b.owner

theorem Dependencies.eq_text_of_not_spares {d : Dependencies} {key : Key} (h : ¬ d.Spares key) :
    ∃ b ∈ d.accepted, b.writesValue = true ∧ key = .text b.owner := by
  simp only [Spares, not_forall, not_not] at h
  obtain ⟨b, mem, writes, same⟩ := h
  exact ⟨b, mem, writes, same⟩

/-- All answers are booleans, integers and texts. -/
def Session.Plain (s : Session) : Prop := ∀ key v, s.answers.find? key = some v → v.isPlain = true

theorem Session.Plain.of_answers {s t : Session} (plain : s.Plain) (same : t.answers = s.answers) : t.Plain :=
  fun key v found => plain key v (same ▸ found)

theorem Session.Plain.value {s : Session} (plain : s.Plain) {name : String}
    (defined : (s.value name).isDefined = true) : (s.value name).isPlain = true := by
  rw [Session.value, Fields.get, Fields.lookUp] at defined ⊢
  cases found : s.answers.find? (.text name) with
  | none => simp [found, Value.isDefined] at defined
  | some v => exact plain _ v found

namespace Engine

/-- The answers solve the equations of the bindings in use: every expression has a value, and what a binding writes is
the answer. -/
def Solved (e : Engine) (s : Session) : Prop :=
  ∀ b ∈ e.dependencies.accepted,
    ∃ v, e.current s b.expression = .ok v ∧ (b.writesValue = true → s.value b.owner = v)

section

variable {e e' : Engine} {s s' : Session} {bindings : List Binding}
variable (compiled : e.Compiled bindings) (dependencies : e'.dependencies = e.dependencies)
variable (today : e.settings.today = e'.settings.today) (functions : e.settings.functions = e'.settings.functions)
include compiled dependencies today functions

/-- Two solutions that agree on what no binding writes agree.  By induction on the level of a question: what its
binding reads lies below it. -/
theorem values_agree (solved : e.Solved s) (solved' : e'.Solved s')
    (inputs : ∀ name, e.dependencies.Spares (.text name) → s.value name = s'.value name) (name : String) :
    s.value name = s'.value name := by
  induction level : (Levels.ofBindings e.dependencies.accepted).of name using Nat.strongRecOn generalizing name with
  | ind level ih =>
    by_cases spared : e.dependencies.Spares (.text name)
    · exact inputs name spared
    · obtain ⟨b, mem, writes, same⟩ := Dependencies.eq_text_of_not_spares spared
      cases same
      obtain ⟨v, value, answer⟩ := solved b mem
      obtain ⟨v', value', answer'⟩ := solved' b (dependencies ▸ mem)
      have below : ∀ source ∈ b.expression.references, s.value source = s'.value source := by
        intro source reads
        refine ih _ ?_ source rfl
        rw [← level]
        refine (Levels.of_le_rank (compiled.mem_accepted_declared mem reads)).trans_lt ?_
        rw [compiled.dependencies] at mem ⊢
        exact Levels.rank_lt_of_owner Dependencies.accepted_acyclic mem writes
      rw [current_congr today functions below, value'] at value
      rw [answer writes, answer' writes, Except.ok.inj value]

end

/-! ## Flags -/

/-- A condition holds alike on alike answers. -/
theorem holds_agree {e e' : Engine} {s s' : Session} (today : e.settings.today = e'.settings.today)
    (functions : e.settings.functions = e'.settings.functions) (values : ∀ name, s.value name = s'.value name)
    (x : Expr) : x.holds (e.context s) = x.holds (e'.context s') :=
  Expr.holds_congr ⟨today, functions, fun name _ => values name⟩

/-- Two sessions show the same flags for every name. -/
def SameFlags (e : Engine) (s : Session) (e' : Engine) (s' : Session) : Prop :=
  ∀ name, e.isVisible s name = e'.isVisible s' name ∧ e.isEnabled s name = e'.isEnabled s' name ∧
    e.isRequired s name = e'.isRequired s' name

theorem find?_flags_of_not_mem {survey : Survey} {e : Engine} {s : Session} {outside : Value → Prop}
    (standing : Standing survey e outside s) {name : String} (h : name ∉ survey.names) :
    s.flags.find? name = none := by
  have same := standing.flags.always name
  rw [find?_initialFlags_of_not_mem h] at same
  exact Option.map_eq_none_iff.mp same

/-- Sessions of one survey with the same answers show the same flags. -/
theorem flags_agree {survey : Survey} {settings settings' : Settings} {bindings : List Binding}
    {problems : List Diagnostic} {s s' : Session} {outside outside' : Value → Prop}
    (bound : survey.bindings = .ok (bindings, problems)) (distinct : survey.questionNames.Nodup)
    (pages : (survey.pages.map (·.name)).Nodup) (apart : ∀ p ∈ survey.pages, p.name ∉ survey.questionNames)
    (today : settings.today = settings'.today) (functions : settings.functions = settings'.functions)
    (standing : Standing survey (ofBindings survey settings bindings) outside s)
    (standing' : Standing survey (ofBindings survey settings' bindings) outside' s')
    (values : ∀ name, s.value name = s'.value name) :
    SameFlags (ofBindings survey settings bindings) s (ofBindings survey settings' bindings) s' := by
  have names := Survey.nodup_names pages distinct apart
  have holds (x : Expr) : x.holds ((ofBindings survey settings bindings).context s) =
      x.holds ((ofBindings survey settings' bindings).context s') := holds_agree today functions values x
  have all (kind : BindingKind) (name : String) :
      (ofBindings survey settings bindings).AllHold s kind name ↔
        (ofBindings survey settings' bindings).AllHold s' kind name := by
    simp only [AllHold, holds]
    rfl
  have one (kind : BindingKind) (name : String) :
      (ofBindings survey settings bindings).OneHolds s kind name ↔
        (ofBindings survey settings' bindings).OneHolds s' kind name := by
    simp only [OneHolds, holds]
    rfl
  intro name
  by_cases known : name ∈ survey.names
  · have visible : (ofBindings survey settings bindings).isVisible s name =
        (ofBindings survey settings' bindings).isVisible s' name := by
      rw [Bool.eq_iff_iff, isVisible_iff bound rfl names standing distinct known,
        isVisible_iff bound rfl names standing' distinct known]
      exact forall₂_congr fun y _ => all .visibleIf y
    refine ⟨visible, ?_, ?_⟩
    · rw [Bool.eq_iff_iff, isEnabled_iff bound rfl names standing distinct known,
        isEnabled_iff bound rfl names standing' distinct known]
      exact forall₂_congr fun y _ => all .enableIf y
    · rw [Bool.eq_iff_iff]
      rcases Survey.mem_names.mp known with ⟨p, hp, rfl⟩ | question
      · rw [isRequired_page_iff bound rfl names standing hp, isRequired_page_iff bound rfl names standing' hp, one]
      · obtain ⟨q, hq, rfl⟩ := List.mem_map.mp question
        rw [isRequired_question_iff bound rfl names standing apart hq,
          isRequired_question_iff bound rfl names standing' apart hq, one, visible]
  · have none := find?_flags_of_not_mem standing known
    have none' := find?_flags_of_not_mem standing' known
    simp [isVisible, isEnabled, isRequired, flagsAround, none, none']

/-! ## A session that starts from a solution -/

section

variable {e : Engine} {s t : Session} {b : Binding}

theorem Solved.of_answers (solved : e.Solved s) (same : t.answers = s.answers) : e.Solved t := by
  intro b mem
  obtain ⟨v, value, answer⟩ := solved b mem
  refine ⟨v, (current_of_answers same).trans value, ?_⟩
  intro writes
  rw [Session.value, same]
  exact answer writes

/-- Applying a binding whose equation is solved changes no answer, and does not fail. -/
theorem ends_apply_solved (computed : b.writesValue = true → b.kind = .setValueExpression ∧ b.gate = none)
    (plain : s.Plain) {v : Value} (value : e.current s b.expression = .ok v)
    (answer : b.writesValue = true → s.value b.owner = v) :
    Ends (fun changed t => changed = false ∧ t.answers = s.answers) (fun _ => False) (e.apply b) s := by
  have evaluated : Ends (fun v' t => Noted s t ∧ v' = v) (fun _ => False)
      (e.partValue b .expression b.expression) s := by
    refine (ends_partValue .expression b.expression).mono ?_ ?_
    · intro v' t h
      exact ⟨h.1, Except.ok.inj (h.2.symm.trans value)⟩
    · rintro t ⟨-, f, fault⟩
      rw [value] at fault
      cases fault
  cases writes : b.writesValue with
  | false =>
    rw [apply_flag e writes, ends_bind]
    refine evaluated.mono ?_ fun _ h => h
    intro _ t h
    exact ⟨rfl, h.1.answers⟩
  | true =>
    obtain ⟨kind, gate⟩ := computed writes
    rw [apply_computed e kind gate, ends_bind]
    refine evaluated.mono ?_ fun _ h => h
    intro v' t h
    rw [ends_store]
    have same : t.answers.lookUp (.text b.owner) = v' := by
      rw [h.1.answers, h.2, ← answer writes]
      rfl
    have kept : Fields.store? t.answers (.text b.owner) v' = none := by
      refine Fields.store?_eq_none same ?_
      intro defined
      rw [h.2, ← answer writes] at defined ⊢
      exact plain.value defined
    rw [kept, Fields.put, kept]
    exact ⟨rfl, h.1.answers⟩

/-- A sweep over solved equations changes no answer, and does not fail. -/
theorem ends_sweep_solved (computing : e.dependencies.Computing) {l : List Binding} {ran : List Nat}
    {stale : List String} (sub : l ⊆ e.dependencies.accepted) (solved : e.Solved s) (plain : s.Plain) :
    Ends (fun out t => out = stale ∧ t.answers = s.answers) (fun _ => False) (e.sweep ran stale l) s := by
  induction l generalizing ran s with
  | nil => exact ⟨rfl, rfl⟩
  | cons b rest ih =>
    obtain ⟨mem, hrest⟩ := List.cons_subset.mp sub
    rw [sweep, ends_bind, ends_get]
    split
    · exact ih hrest solved plain
    · obtain ⟨v, value, answer⟩ := solved b mem
      simp only
      rw [ends_bind]
      refine (ends_apply_solved (computing.computed b mem) plain value answer).mono ?_ fun _ h => h
      intro changed t h
      rw [h.1, Bool.false_and, if_neg Bool.false_ne_true]
      refine (ih hrest (solved.of_answers h.2) (plain.of_answers h.2)).mono ?_ fun _ h => h
      intro out u h'
      exact ⟨h'.1, h'.2.trans h.2⟩

/-- A session without triggers that holds a solution starts without changing an answer. -/
theorem ends_applyAll_solved {bindings : List Binding} (compiled : e.Compiled bindings)
    (computing : e.dependencies.Computing) (solved : e.Solved s) (plain : s.Plain) (slots : s.slots = []) :
    Ends (fun _ t => t.answers = s.answers) (fun _ => False) e.applyAll s := by
  have kept : Ends (fun out t => out = [] ∧ t.answers = s.answers) (fun _ => False)
      (e.sweep [] [] e.dependencies.ordered) s :=
    ends_sweep_solved computing compiled.ordered_subset solved plain
  rw [Ends, applyAll_eq compiled, ← Ends, ends_bind]
  refine (kept.and (ends_sweep_ordered compiled s)).mono ?_ fun _ h => h.1
  intro out t h
  have none : t.slots = [] := h.2.1.recomputed.slots.trans slots
  rw [prime, ends_bind, ends_get, none]
  exact h.1.2

end

theorem mem_questions {survey : Survey} {settings : Settings} {bindings : List Binding} {c : String × Question}
    (mem : c ∈ (ofBindings survey settings bindings).questions) : c.2 ∈ survey.questions := by
  revert c
  refine List.foldlRecOn
    (motive := fun table => ∀ {c : String × Question}, c ∈ table → c.2 ∈ survey.questions) _ _ ?_ ?_
  · exact fun h => absurd h List.not_mem_nil
  · intro table known entry hentry c mem
    rcases Table.mem_of_mem_set mem with same | old
    · rw [same, ← Survey.map_contained]
      exact List.mem_map_of_mem hentry
    · exact known old

/-- Without literal defaults a session begins with the answers that it is given. -/
theorem initialAnswers_eq {survey : Survey} {settings : Settings} {bindings : List Binding} {given : Fields}
    (literals : ∀ q ∈ survey.questions, (q.properties .defaultValue).isDefined = false)
    (defined : given.AllDefined) : (ofBindings survey settings bindings).initialAnswers given = given := by
  refine List.foldlRecOn (motive := fun answers => answers = given) _ _ ?_ ?_
  · exact List.filter_eq_self.mpr defined
  · rintro answers rfl ⟨name, q⟩ mem
    simp [literals q (mem_questions mem)]

/-- A survey without triggers and literal defaults starts from a solution, and keeps it. -/
theorem start_of_solved {survey : Survey} {settings : Settings} {bindings : List Binding}
    {problems : List Diagnostic} (bound : survey.bindings = .ok (bindings, problems))
    (triggers : survey.triggers = [])
    (literals : ∀ q ∈ survey.questions, (q.properties .defaultValue).isDefined = false)
    (computing : (Dependencies.ofBindings bindings).Computing) {s : Session}
    (solved : (ofBindings survey settings bindings).Solved s) (plain : s.Plain) (defined : s.answers.AllDefined)
    (navigator : Bool) :
    ∃ t, start survey settings s.answers navigator = .ok (ofBindings survey settings bindings, t) ∧
      t.answers = s.answers := by
  have opened : ((ofBindings survey settings bindings).opening problems [] s.answers navigator).answers = s.answers :=
    initialAnswers_eq literals defined
  obtain ⟨_, t, ended, same⟩ := (ends_applyAll_solved (compiled_ofBindings bound settings) computing
    (solved.of_answers opened) (plain.of_answers opened) rfl).exists_ok
  have slots : (survey.triggers.mapIdx Slot.ofTrigger).mapM id = .ok [] := by
    rw [triggers]
    rfl
  exact ⟨t, start_of_applyAll bound slots ended, same.trans opened⟩

/-! ## Two histories -/

theorem solved_of_standing {survey : Survey} {settings : Settings} {bindings : List Binding}
    {problems : List Diagnostic} (bound : survey.bindings = .ok (bindings, problems)) (names : survey.names.Nodup)
    (computing : (Dependencies.ofBindings bindings).Computing) {s : Session} {outside : Value → Prop}
    (standing : Standing survey (ofBindings survey settings bindings) outside s)
    (apart : ∀ b ∈ (Dependencies.ofBindings bindings).accepted, b.writesValue = true → ¬ outside (.text b.owner))
    (plain : s.Plain) :
    (ofBindings survey settings bindings).Solved s := by
  intro b mem
  cases writes : b.writesValue with
  | false =>
    have decides := decides_of_flag bound names mem writes
    obtain ⟨v, value, -⟩ := standing.upToDate b decides fun h => by simp [writes] at h
    exact ⟨v, value, fun h => by cases h⟩
  | true =>
    obtain ⟨kind, gate⟩ := computing.computed b mem writes
    have decides := decides_of_computed mem kind gate fun other hother writes' owner =>
      computing.single other hother b mem writes' writes owner
    obtain ⟨v, value, shown, -⟩ := standing.upToDate b decides fun _ => apart b mem writes
    exact ⟨v, value, fun _ => (shown writes).eq plain.value⟩

/-- Two runs of a survey without triggers and literal defaults, whose writing bindings in use compute one value for
each question without a gate.  The host writes no computed question, and all answers at the end are plain.  If the runs
end with the same answers where nothing is computed, they end with the same answers everywhere and the same flags.  A
session that starts with the answers at the end of a run keeps them, and shows the same flags. -/
theorem history_independent {document : Value} {survey : Survey} (loaded : Survey.ofDocument document = .ok survey)
    (pages : (survey.pages.map (·.name)).Nodup) (apart : ∀ p ∈ survey.pages, p.name ∉ survey.questionNames)
    (triggers : survey.triggers = [])
    (literals : ∀ q ∈ survey.questions, (q.properties .defaultValue).isDefined = false)
    {settings settings' : Settings} (today : settings.today = settings'.today)
    (functions : settings.functions = settings'.functions) {given given' : Fields} {navigator navigator' : Bool}
    {writes writes' : List (Value × Value)} {e e' : Engine} {s s' : Session}
    (run : play survey settings given navigator writes = .ok (e, s))
    (run' : play survey settings' given' navigator' writes' = .ok (e', s'))
    (computing : e.dependencies.Computing)
    (host : ∀ w ∈ writes, ∀ key ∈ w.1.key?, e.dependencies.Spares key)
    (host' : ∀ w ∈ writes', ∀ key ∈ w.1.key?, e.dependencies.Spares key) (plain : s.Plain) (plain' : s'.Plain) :
    ((∀ key, e.dependencies.Spares key → s.answers.find? key = s'.answers.find? key) →
      (∀ key, s.answers.find? key = s'.answers.find? key) ∧ SameFlags e s e' s') ∧
    ∀ navigator, ∃ e₁ s₁, start survey settings' s.answers navigator = .ok (e₁, s₁) ∧ s₁.answers = s.answers ∧
      SameFlags e s e₁ s₁ := by
  have distinct := Survey.nodup_of_ofDocument loaded
  have names := Survey.nodup_names pages distinct apart
  have quiet : ∀ t ∈ survey.triggers, ∀ key ∈ t.setToName.key?, e.dependencies.Spares key := by
    rw [triggers]
    exact List.forall_mem_nil _
  have written : ∀ b ∈ e.dependencies.accepted, b.writesValue = true →
      ¬ ∀ key ∈ (Value.text b.owner).key?, e.dependencies.Spares key :=
    fun b mem writes spares => spares _ rfl b mem writes rfl
  obtain ⟨bindings, problems, bound, rfl, standing⟩ :=
    standing_of_play run (fun target => ∀ key ∈ target.key?, e.dependencies.Spares key) host quiet
  obtain ⟨bindings', problems', bound', rfl, standing'⟩ := standing_of_play run'
    (fun target => ∀ key ∈ target.key?, (ofBindings survey settings bindings).dependencies.Spares key) host' quiet
  obtain ⟨rfl, rfl⟩ : bindings' = bindings ∧ problems' = problems := by
    rw [bound] at bound'
    cases bound'
    exact ⟨rfl, rfl⟩
  have compiled := compiled_ofBindings bound settings
  have solved := solved_of_standing bound names computing standing written plain
  refine ⟨?_, ?_⟩
  · intro same
    have solved' := solved_of_standing bound names computing standing' written plain'
    have dependencies : (ofBindings survey settings' bindings').dependencies =
      (ofBindings survey settings bindings').dependencies := rfl
    have values := values_agree compiled dependencies today functions solved solved' fun name spares =>
      value_eq_of_find? (same _ spares)
    refine ⟨fun key => ?_, flags_agree bound distinct pages apart today functions standing standing' values⟩
    by_cases spares : (ofBindings survey settings bindings').dependencies.Spares key
    · exact same key spares
    · obtain ⟨b, -, -, rfl⟩ := Dependencies.eq_text_of_not_spares spares
      exact Fields.find?_eq_of_lookUp standing.defined standing'.defined (values b.owner)
  · intro navigator
    have solved' : (ofBindings survey settings' bindings').Solved s := by
      intro b mem
      obtain ⟨v, value, answer⟩ := solved b mem
      exact ⟨v, (current_congr today functions fun _ _ => rfl).symm.trans value, answer⟩
    obtain ⟨s₁, begun, kept⟩ := start_of_solved bound triggers literals computing solved' plain standing.defined
      navigator
    refine ⟨_, s₁, begun, kept, ?_⟩
    obtain ⟨_, _, bound₁, same, started⟩ := started_of_start begun
    refine flags_agree bound distinct pages apart today functions standing (started.standing fun _ => True) ?_
    intro name
    rw [Session.value, Session.value, kept]

theorem plain_wholes {s : Session} {named : List (String × Int)} (h : s.answers = Sample.wholes named) : s.Plain := by
  intro key v found
  rw [h] at found
  obtain ⟨other, mem⟩ := Table.exists_mem_of_find?_eq_some found
  obtain ⟨c, -, same⟩ := List.mem_map.mp mem
  cases same
  rfl

theorem sample_computing : (Dependencies.ofBindings Sample.bindings).Computing where
  computed b mem writes := by
    rw [Sample.eq_computed mem writes]
    exact ⟨rfl, rfl⟩
  single a ha b hb writes writes' _ := (Sample.eq_computed ha writes).trans (Sample.eq_computed hb writes').symm

theorem sample_spares {name : String} (h : name ≠ "t") : (Dependencies.ofBindings Sample.bindings).Spares (.text name) := by
  intro b mem writes same
  rw [Sample.eq_computed mem writes] at same
  exact h (Key.text.inj same)

/-- The sample, once with an answer that is changed, and once with the answer from the start. -/
theorem sample_histories : ∃ e s e' s',
    play Sample.survey Sample.settings (Sample.given 1 35) false [(.text "a", Sample.whole 8)] = .ok (e, s) ∧
    play Sample.survey Sample.settings (Sample.given 8 35) false [] = .ok (e', s') ∧
    (∀ key, s.answers.find? key = s'.answers.find? key) ∧ SameFlags e s e' s' := by
  obtain ⟨⟨e, s⟩, run, shown⟩ := Sample.played
  obtain ⟨⟨e', s'⟩, run', shown'⟩ :
      ∃ r, play Sample.survey Sample.settings (Sample.given 8 35) false [] = .ok r ∧
        r.2.answers.map Sample.whole? = [some ("a", 8), some ("c", 35), some ("t", 9)] := by
    refine Outcome.exists_of_map ?_
    rw [play, start, Sample.bound]
    decide +kernel
  obtain ⟨_, _, bound, rfl, -⟩ := standing_of_play run (fun _ => True) (fun _ _ => trivial) fun _ _ => trivial
  cases Sample.bound.symm.trans bound
  have answers : s.answers = Sample.wholes [("a", 8), ("c", 35), ("t", 9)] :=
    Sample.eq_wholes (Prod.mk.inj shown).1
  have answers' : s'.answers = Sample.wholes [("a", 8), ("c", 35), ("t", 9)] := Sample.eq_wholes shown'
  have host : ∀ w ∈ [(Value.text "a", Sample.whole 8)], ∀ key ∈ w.1.key?,
      (Dependencies.ofBindings Sample.bindings).Spares key := by
    intro w hw key hkey
    rw [List.mem_singleton.mp hw] at hkey
    cases hkey
    exact sample_spares (by decide)
  have independent := history_independent Sample.loaded (by decide) (by decide) Sample.triggers (by decide) rfl rfl
    run run' sample_computing host (List.forall_mem_nil _) (plain_wholes answers) (plain_wholes answers')
  exact ⟨_, s, e', s', run, run', independent.1 fun key _ => by rw [answers, answers']⟩

/-- Runs have to end normally.  In the sample the condition of the panel fails on a great answer, with a fault that
ends the write before the question in the panel is looked at.  The next write mends the panel's condition and does not
reach the question, which stays hidden.  A session that starts with the same answers shows it. -/
theorem fault_leaves_flag_behind : ∃ e s₀ s s' t,
    start Sample.survey Sample.settings (Sample.given 1 35) false = .ok (e, s₀) ∧
    s = e.follow [(.text "a", Sample.whole (10 ^ 308))] s₀ ∧
    s' = e.follow [(.text "a", Sample.whole (10 ^ 308)), (.text "c", Sample.whole 1)] s₀ ∧
    start Sample.survey Sample.settings (Sample.given (10 ^ 308) 1) false = .ok (e, t) ∧
    e.dependencies.Computing ∧ e.dependencies.Spares (.text "a") ∧ e.dependencies.Spares (.text "c") ∧
    (s₀.Plain ∧ s.Plain ∧ s'.Plain ∧ t.Plain) ∧ (∀ key, s'.answers.find? key = t.answers.find? key) ∧
    e.isVisible s' "q" = false ∧ e.isVisible t "q" = true := by
  obtain ⟨⟨e, s₀⟩, begun, found⟩ :
      ∃ r, start Sample.survey Sample.settings (Sample.given 1 35) false = .ok r ∧
        [r.2, r.1.follow [(.text "a", Sample.whole (10 ^ 308))] r.2,
          r.1.follow [(.text "a", Sample.whole (10 ^ 308)), (.text "c", Sample.whole 1)] r.2].map (Sample.seen r.1) =
        [([some ("a", 1), some ("c", 35), some ("t", 2)], false),
          ([some ("a", 10 ^ 308), some ("c", 35), some ("t", 10 ^ 308 + 1)], false),
          ([some ("a", 10 ^ 308), some ("c", 1), some ("t", 10 ^ 308 + 1)], false)] := by
    refine Outcome.exists_of_map ?_
    rw [start, Sample.bound]
    decide +kernel
  obtain ⟨⟨e', t⟩, begun', found'⟩ :
      ∃ r, start Sample.survey Sample.settings (Sample.given (10 ^ 308) 1) false = .ok r ∧
        Sample.seen r.1 r.2 = ([some ("a", 10 ^ 308), some ("c", 1), some ("t", 10 ^ 308 + 1)], true) := by
    refine Outcome.exists_of_map ?_
    rw [start, Sample.bound]
    decide +kernel
  obtain ⟨_, _, bound, rfl, -⟩ := started_of_start begun
  cases Sample.bound.symm.trans bound
  obtain ⟨_, _, bound', rfl, -⟩ := started_of_start begun'
  cases Sample.bound.symm.trans bound'
  simp only [List.map_cons, List.map_nil, List.cons.injEq, Sample.seen, Prod.mk.injEq, and_true] at found found'
  obtain ⟨⟨first, -⟩, ⟨second, -⟩, third, hidden⟩ := found
  obtain ⟨fresh, shown⟩ := found'
  have answers (named : List (String × Int)) {s : Session} (h : s.answers.map Sample.whole? = named.map some) :
      s.answers = Sample.wholes named := Sample.eq_wholes h
  have before := answers [("a", 1), ("c", 35), ("t", 2)] first
  have failed := answers [("a", 10 ^ 308), ("c", 35), ("t", 10 ^ 308 + 1)] second
  have mended := answers [("a", 10 ^ 308), ("c", 1), ("t", 10 ^ 308 + 1)] third
  have anew := answers [("a", 10 ^ 308), ("c", 1), ("t", 10 ^ 308 + 1)] fresh
  refine ⟨_, s₀, _, _, t, begun, rfl, rfl, begun', sample_computing, sample_spares (by decide),
    sample_spares (by decide), ⟨plain_wholes before, plain_wholes failed, plain_wholes mended, plain_wholes anew⟩,
    fun key => ?_, hidden, shown⟩
  rw [mended, anew]

end Engine

end Questionnaire
