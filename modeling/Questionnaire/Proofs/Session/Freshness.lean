import Mathlib
import Questionnaire.Proofs.Session.Opening
import Questionnaire.Proofs.Survey.Containment

/-!
# Nothing goes stale

Three results about every run.  Sweeps leave nothing stale, so a change settles in one pass and no binding is ever
switched off as unstable.  A question that one computed value alone decides shows that value on the current answers.
And the effective flags of every page and question are what its conditions, and those of all that contains it, come
to on the current answers.

A small survey stands first, for runs on which each result is seen at work.
-/
namespace Questionnaire

/-! ## A sample -/

namespace Sample

def fields (named : List (String × Value)) : Value := .structured (named.map fun (name, v) => (.text name, v))

/-- Two answers `a` and `c`, the successor `t` of `a`, and a panel `d` under a condition on both answers, which holds a
question `q` for great successors. -/
def document : Value :=
  fields [("elements", .sequence [
    fields [("name", .text "a")],
    fields [("name", .text "c")],
    fields [("name", .text "t"), ("setValueExpression", .text "{a} + 1")],
    fields [("name", .text "d"), ("type", .text "panel"), ("visibleIf", .text "{c} / 2 * {a} % 3"),
      ("elements", .sequence [fields [("name", .text "q"), ("visibleIf", .text "{t} > 5")]])]])]

def survey : Survey :=
  match Survey.ofDocument document with
  | .ok survey => survey
  | .error _ => ⟨.undefined, .undefined, .undefined, [], [], []⟩

def settings : Settings := { maxPasses := 3, today := ⟨2024, 6, 15⟩, functions := Library.standard }

def whole (n : Int) : Value := .number (.int n)

/-- Whole numbers as answers. -/
def wholes (named : List (String × Int)) : Fields := named.map fun (name, n) => (.text name, whole n)

/-- Answers to the two questions that are not computed. -/
def given (a c : Int) : Fields := wholes [("a", a), ("c", c)]

def successor : Expr := .binary (.arithmetic .add) (.reference "a") (.literal (whole 1))

def remainder : Expr :=
  .binary (.arithmetic .modulo)
    (.binary (.arithmetic .multiply)
      (.binary (.arithmetic .divide) (.reference "c") (.literal (whole 2))) (.reference "a")) (.literal (whole 3))

def great : Expr := .binary (.relation .greater) (.reference "t") (.literal (whole 5))

def rule (kind : BindingKind) (owner : String) (property : Property) (source : String) : Rule :=
  ⟨kind, owner, .question, property, .text source, .undefined, .undefined⟩

/-- The binding that computes `t`. -/
def computed : Binding :=
  ⟨.setValueExpression, "t", .question, .setValueExpression, successor, "{a} + 1", 0, none, .undefined, ["a"]⟩

def bindings : List Binding := [computed,
  ⟨.visibleIf, "d", .question, .visibleIf, remainder, "{c} / 2 * {a} % 3", 1, none, .undefined, ["a", "c"]⟩,
  ⟨.visibleIf, "q", .question, .visibleIf, great, "{t} > 5", 2, none, .undefined, ["t"]⟩]

theorem loaded : Survey.ofDocument document = .ok survey := rfl

theorem bound : survey.bindings = .ok (bindings, []) := by
  have rules : Rule.ofSurvey survey = [rule .setValueExpression "t" .setValueExpression "{a} + 1",
      rule .visibleIf "d" .visibleIf "{c} / 2 * {a} % 3", rule .visibleIf "q" .visibleIf "{t} > 5"] := rfl
  have first : Expr.ofText "{a} + 1" = .ok successor := by cbv
  have second : Expr.ofText "{c} / 2 * {a} % 3" = .ok remainder := by cbv
  have third : Expr.ofText "{t} > 5" = .ok great := by cbv
  rw [Survey.bindings, rules]
  simp [rule, Rule.compile, Rule.parse, first, second, third, Value.truthy, bind, Except.bind, pure, Except.pure]
  rfl

theorem triggers : survey.triggers = [] := rfl

theorem accepted : (Dependencies.ofBindings bindings).accepted = bindings := rfl

/-- One binding writes a value. -/
theorem eq_computed {b : Binding} (mem : b ∈ (Dependencies.ofBindings bindings).accepted)
    (writes : b.writesValue = true) : b = computed := by
  rw [accepted, bindings] at mem
  rcases List.mem_cons.mp mem with rfl | mem
  · rfl
  · rcases List.mem_cons.mp mem with rfl | mem
    · cases writes
    · rw [List.mem_singleton.mp mem] at writes
      cases writes

/-- An entry that is a whole number under a text. -/
def whole? : Key × Value → Option (String × Int)
  | (.text name, .number (.int n)) => some (name, n)
  | _ => none

theorem eq_wholes {named : List (String × Int)} {answers : Fields} (h : answers.map whole? = named.map some) :
    answers = wholes named := by
  induction named generalizing answers with
  | nil => exact List.map_eq_nil_iff.mp h
  | cons entry rest ih =>
    obtain ⟨c, others, rfl, first, later⟩ := List.map_eq_cons_iff.mp h
    rw [ih later]
    unfold whole? at first
    split at first
    · cases first
      rfl
    · cases first

/-- What is seen of a session: the answers, and whether the question of the panel is visible. -/
def seen (e : Engine) (s : Session) : List (Option (String × Int)) × Bool :=
  (s.answers.map whole?, e.isVisible s "q")

/-- The sample starts when both questions have answers. -/
theorem started : ∃ s₀, Engine.start survey settings (given 1 35) false =
    .ok (Engine.ofBindings survey settings bindings, s₀) := by
  obtain ⟨⟨e, s₀⟩, begun, -⟩ :
      ∃ r, Engine.start survey settings (given 1 35) false = .ok r ∧ r.2.disabled = [] := by
    refine Outcome.exists_of_map ?_
    rw [Engine.start, bound]
    decide +kernel
  obtain ⟨_, _, bound', rfl, -⟩ := Engine.started_of_start begun
  cases bound.symm.trans bound'
  exact ⟨s₀, begun⟩

/-- A session starts with some answers, and then `a` is answered by eight. -/
theorem played : ∃ r, Engine.play survey settings (given 1 35) false [(.text "a", whole 8)] = .ok r ∧
    seen r.1 r.2 = ([some ("a", 8), some ("c", 35), some ("t", 9)], true) := by
  refine Outcome.exists_of_map ?_
  rw [Engine.play, Engine.start, bound]
  decide +kernel

end Sample

end Questionnaire

namespace Questionnaire.Engine

open Act
open Session (FlagsKept)

/-! ## One pass -/

/-- No binding is out of use, and none was reported as unstable. -/
def Steady (s : Session) : Prop := s.disabled = [] ∧ ∀ d ∈ s.diagnostics, ¬ d.Unstable

theorem keeps_steady {e : Engine} {bindings : List Binding} (compiled : e.Compiled bindings) :
    e.Keeps (fun _ => True) Steady Steady where
  fault h := h
  aside h aside := ⟨aside.disabled.trans h.1, fun d hd => (aside.added d hd).elim (h.2 d) id⟩
  settle {s target key} h _ _ v := by
    have steady {t : Session}
        (applied : Session.Applied e.dependencies.accepted { s with answers := s.answers.put key v } t) : Steady t := by
      refine ⟨applied.recomputed.disabled.trans h.1, ?_⟩
      intro d hd
      rcases applied.recomputed.added d hd with old | ⟨failure, found⟩
      · exact h.2 d old
      · exact Diagnostic.not_unstable_of_eval found
    exact (ends_settle compiled key.text?.toList _).mono (fun _ _ => steady) fun _ => steady

/-- Every sweep over all bindings, and every sweep over what some change can reach, leaves nothing stale.  So settling
is one pass, and along every run, faults included, no binding goes out of use and none is reported as unstable. -/
theorem one_pass_settles {survey : Survey} {bindings : List Binding} {problems : List Diagnostic}
    (bound : survey.bindings = .ok (bindings, problems)) (settings : Settings) :
    let e := ofBindings survey settings bindings
    (∀ s out t, e.sweep [] [] e.dependencies.ordered s = .ok out t → out = []) ∧
    (∀ changed excluded s out t,
      e.sweep [] [] (e.dependencies.propagation changed excluded) s = .ok out t → out = []) ∧
    (∀ changed s, e.settle changed s = e.pass changed s) ∧
    ∀ given navigator s₀, start survey settings given navigator = .ok (e, s₀) → ∀ writes,
      (e.follow writes s₀).disabled = [] ∧
      ∀ d ∈ (e.follow writes s₀).diagnostics, d.problem.kindName ≠ "UnstableLogic" := by
  intro e
  have compiled : e.Compiled bindings := compiled_ofBindings bound settings
  refine ⟨?_, ?_, ?_, ?_⟩
  · intro s out t swept
    exact ((ends_sweep_ordered compiled s).of_ok swept).2
  · intro changed excluded s out t swept
    exact ((ends_sweep_propagation compiled changed excluded s).of_ok swept).2
  · exact settle_eq_pass compiled
  · intro given navigator s₀ begun writes
    obtain ⟨_, _, _, _, started⟩ := started_of_start begun
    exact follow_keeps compiled (keeps_steady compiled) writes ⟨started.active, started.stable⟩

/-- A sample run, in which the second write fails in the panel's condition. -/
theorem sample_settles : ∃ e s₀, start Sample.survey Sample.settings (Sample.given 1 35) false = .ok (e, s₀) ∧
    (e.follow [(.text "a", Sample.whole 8), (.text "a", Sample.whole (10 ^ 308))] s₀).disabled = [] ∧
    ∀ d ∈ (e.follow [(.text "a", Sample.whole 8), (.text "a", Sample.whole (10 ^ 308))] s₀).diagnostics,
      d.problem.kindName ≠ "UnstableLogic" := by
  obtain ⟨s₀, begun⟩ := Sample.started
  exact ⟨_, s₀, begun, (one_pass_settles Sample.bound Sample.settings).2.2.2 _ _ s₀ begun _⟩

/-! ## Computed values -/

/-- A computed value without a gate decides alone if no other binding writes its owner. -/
theorem decides_of_computed {bindings : List Binding} {b : Binding} (mem : b ∈ bindings)
    (kind : b.kind = .setValueExpression) (gate : b.gate = none)
    (sole : ∀ other ∈ bindings, other.writesValue = true → other.owner = b.owner → other = b) :
    b.Decides bindings := by
  have writesValue : b.writesValue = true := by rw [Binding.writesValue, kind]; rfl
  refine ⟨mem, ?_, fun _ => ⟨kind, gate⟩⟩
  intro other hother same
  have places := Prod.mk.inj same
  have otherWrites : other.writesValue = true := by
    by_contra reads
    simp [writesValue, reads] at places
  exact sole other hother otherWrites places.1

/-- A computed value without a gate is a question's current answer after every run that ended normally, if no other
binding in use writes the question, and neither the host nor a trigger does. -/
theorem computed_value_current {survey : Survey} {settings : Settings} {given : Fields} {navigator : Bool}
    {writes : List (Value × Value)} {e : Engine} {s : Session}
    (run : play survey settings given navigator writes = .ok (e, s)) {b : Binding}
    (mem : b ∈ e.dependencies.accepted) (kind : b.kind = .setValueExpression) (gate : b.gate = none)
    (sole : ∀ other ∈ e.dependencies.accepted, other.writesValue = true → other.owner = b.owner → other = b)
    (host : ∀ w ∈ writes, w.1 ≠ .text b.owner) (triggers : ∀ t ∈ survey.triggers, t.setToName ≠ .text b.owner) :
    ∃ v, e.current s b.expression = .ok v ∧ (s.value b.owner).Matches v ∧
      (v = .undefined → s.answers.find? (.text b.owner) = none) := by
  obtain ⟨_, _, _, _, standing⟩ := standing_of_play run (fun target => target ≠ .text b.owner) host triggers
  have writesValue : b.writesValue = true := by rw [Binding.writesValue, kind]; rfl
  have decides := decides_of_computed mem kind gate sole
  obtain ⟨v, value, shown, -⟩ := standing.upToDate b decides fun _ => not_not_intro rfl
  refine ⟨v, value, shown writesValue, ?_⟩
  intro undefined
  have matched := undefined ▸ shown writesValue
  exact Fields.find?_eq_none_of_lookUp standing.defined (matched.elim id Value.unchanged_undefined_right.mp)

theorem sample_successor : ∃ e s v, play Sample.survey Sample.settings (Sample.given 1 35) false
      [(.text "a", Sample.whole 8)] = .ok (e, s) ∧
    e.current s Sample.successor = .ok v ∧ (s.value "t").Matches v := by
  obtain ⟨⟨e, s⟩, run, -⟩ := Sample.played
  obtain ⟨bindings, problems, bound, rfl, -⟩ :=
    standing_of_play run (fun _ => True) (fun _ _ => trivial) fun _ _ => trivial
  cases Sample.bound.symm.trans bound
  have mem : Sample.computed ∈ (Dependencies.ofBindings Sample.bindings).accepted := by
    rw [Sample.accepted]
    exact List.mem_cons_self
  obtain ⟨v, value, shown, -⟩ := computed_value_current run mem rfl rfl
    (fun other hother writes _ => Sample.eq_computed hother writes)
    (by simp [Sample.computed]) (by simp [Sample.triggers])
  exact ⟨_, s, v, run, value, shown⟩

/-! ## Flags -/

/-- Every binding of a kind for a page or question holds on the current answers. -/
def AllHold (e : Engine) (s : Session) (kind : BindingKind) (owner : String) : Prop :=
  ∀ b ∈ e.dependencies.accepted, b.kind = kind → b.owner = owner → b.expression.holds (e.context s) = .ok true

/-- Some binding of a kind for a page or question holds on the current answers. -/
def OneHolds (e : Engine) (s : Session) (kind : BindingKind) (owner : String) : Prop :=
  ∃ b ∈ e.dependencies.accepted, b.kind = kind ∧ b.owner = owner ∧ b.expression.holds (e.context s) = .ok true

theorem holds_iff_of_current {e : Engine} {s : Session} {x : Expr} {v : Value} (h : e.current s x = .ok v) :
    x.holds (e.context s) = .ok true ↔ v.truthy = true := by
  rw [current] at h
  rw [Expr.holds]
  split at h
  · rename_i found
    cases h
    rw [found]
    exact ⟨Except.ok.inj, congrArg Except.ok⟩
  · rename_i failed
    cases h
    rw [failed]
    constructor
    · intro same
      cases same
    · intro same
      cases same
  · cases h

/-- A binding of a flag decides alone, if no two pages or questions share a name. -/
theorem decides_of_flag {survey : Survey} {bindings : List Binding} {problems : List Diagnostic}
    (bound : survey.bindings = .ok (bindings, problems)) (names : survey.names.Nodup) {b : Binding}
    (mem : b ∈ (Dependencies.ofBindings bindings).accepted) (flag : b.writesValue = false) :
    b.Decides (Dependencies.ofBindings bindings).accepted where
  mem := mem
  sole other hother same := (Survey.compiles_of_bindings bound).sole names (Dependencies.accepted_subset mem)
    (Dependencies.accepted_subset hother) flag same
  computed writes := by simp [flag] at writes

/-- Every page and question has flags, with the part of them that never changes. -/
theorem exists_flags {survey : Survey} {e : Engine} {s : Session} {outside : Value → Prop}
    (names : survey.names.Nodup) (standing : Standing survey e outside s) {c : String × Flags}
    (mem : c ∈ survey.fresh) : ∃ own, s.flags.find? c.1 = some own ∧ own.always = c.2.always := by
  have same := standing.flags.always c.1
  rw [find?_initialFlags names mem] at same
  exact Option.map_eq_some_iff.mp same

/-- Pages and questions are visible and enabled at first. -/
theorem fresh_get {survey : Survey} {c : String × Flags} (mem : c ∈ survey.fresh) :
    c.2.visible = true ∧ c.2.enabled = true := by
  obtain ⟨p, -, mem⟩ := List.mem_flatMap.mp mem
  rcases List.mem_cons.mp mem with rfl | question
  · exact ⟨rfl, rfl⟩
  · obtain ⟨q, -, rfl⟩ := List.mem_map.mp question
    exact ⟨rfl, rfl⟩

section

variable {survey : Survey} {settings : Settings} {bindings : List Binding} {problems : List Diagnostic}
variable {e : Engine} {s : Session} {outside : Value → Prop}
variable (bound : survey.bindings = .ok (bindings, problems)) (engine : e = ofBindings survey settings bindings)
variable (names : survey.names.Nodup) (standing : Standing survey e outside s)
include bound engine names standing

/-- A flag is what its binding comes to on the current answers, or what it was at first if it has none. -/
theorem flag_current {kind : BindingKind} (flag : kind.writesValue = false) {name : String} {own : Flags}
    (found : s.flags.find? name = some own) :
    (∃ b ∈ e.dependencies.accepted, b.kind = kind ∧ b.owner = name ∧
      (∀ other ∈ e.dependencies.accepted, other.kind = kind → other.owner = name → other = b) ∧
      (own.get kind = true ↔ b.expression.holds (e.context s) = .ok true)) ∨
    ((∀ b ∈ e.dependencies.accepted, b.kind = kind → b.owner ≠ name) ∧
      ((initialFlags survey).find? name).map (·.get kind) = some (own.get kind)) := by
  have place {b : Binding} (hkind : b.kind = kind) (howner : b.owner = name) : b.target = (name, some kind) := by
    simp [Binding.target, Binding.writesValue, hkind, howner, flag]
  by_cases some : ∃ b ∈ e.dependencies.accepted, b.kind = kind ∧ b.owner = name
  · obtain ⟨b, mem, hkind, howner⟩ := some
    have reads : b.writesValue = false := by rw [Binding.writesValue, hkind, flag]
    have decides : b.Decides e.dependencies.accepted := by
      subst engine
      exact decides_of_flag bound names mem reads
    obtain ⟨v, value, -, shown⟩ := standing.upToDate b decides fun writes => by simp [reads] at writes
    refine Or.inl ⟨b, mem, hkind, howner, ?_, ?_⟩
    · intro other hother hkind' howner'
      exact decides.sole other hother ((place hkind' howner').trans (place hkind howner).symm)
    · rw [holds_iff_of_current value, ← shown reads own (howner ▸ found), hkind]
  · refine Or.inr ⟨fun b mem hkind howner => some ⟨b, mem, hkind, howner⟩, ?_⟩
    rw [← standing.flags.unset name kind, found, Option.map_some]
    intro b mem same
    have places := Prod.mk.inj same
    refine some ⟨b, mem, ?_, places.1⟩
    split at places
    · cases places.2
    · exact Option.some.inj places.2

/-- A flag that is set at first is set exactly while its binding holds, if it has one. -/
theorem get_iff_allHold {kind : BindingKind} (flag : kind.writesValue = false) {c : String × Flags}
    (mem : c ∈ survey.fresh) (first : c.2.get kind = true) {own : Flags} (found : s.flags.find? c.1 = some own) :
    own.get kind = true ↔ e.AllHold s kind c.1 := by
  rcases flag_current bound engine names standing flag found with ⟨b, hb, hkind, howner, sole, shown⟩ | ⟨none, same⟩
  · refine shown.trans ⟨?_, fun all => all b hb hkind howner⟩
    intro holds other hother hkind' howner'
    rwa [sole other hother hkind' howner']
  · rw [find?_initialFlags names mem, Option.map_some, first] at same
    exact iff_of_true (Option.some.inj same).symm fun b hb hkind howner => absurd howner (none b hb hkind)

/-- A flag that is not set at first is set exactly while its binding holds. -/
theorem get_iff_oneHolds (kind : BindingKind) (flag : kind.writesValue = false) {c : String × Flags}
    (mem : c ∈ survey.fresh) (first : c.2.get kind = false) {own : Flags} (found : s.flags.find? c.1 = some own) :
    own.get kind = true ↔ e.OneHolds s kind c.1 := by
  rcases flag_current bound engine names standing flag found with ⟨b, hb, hkind, howner, sole, shown⟩ | ⟨none, same⟩
  · refine shown.trans ⟨fun holds => ⟨b, hb, hkind, howner, holds⟩, ?_⟩
    rintro ⟨other, hother, hkind', howner', holds⟩
    rwa [← sole other hother hkind' howner']
  · rw [find?_initialFlags names mem, Option.map_some, first] at same
    refine iff_of_false ?_ ?_
    · intro set
      rw [set] at same
      cases same
    · rintro ⟨b, hb, hkind, howner, -⟩
      exact none b hb hkind howner

/-- All flags of a kind around a page or question are set exactly while the bindings for it, and for all that contains
it, hold. -/
theorem all_flagsAround_iff (kind : BindingKind) (flag : kind.writesValue = false)
    (distinct : survey.questionNames.Nodup) (first : ∀ c ∈ survey.fresh, c.2.get kind = true)
    {c : String × Flags} (mem : c ∈ survey.fresh) :
    (e.flagsAround s c.1).all (·.get kind) = true ↔
      ∀ name, name = c.1 ∨ survey.Contains name c.1 → e.AllHold s kind name := by
  obtain ⟨own, found, -⟩ := exists_flags names standing mem
  have self : own.get kind = true ↔ e.AllHold s kind c.1 :=
    get_iff_allHold bound engine names standing flag mem (first c mem) found
  have note {name : String} : name ∈ (e.ancestors.find? c.1).getD [] ↔ survey.Contains name c.1 := by
    rw [engine]
    exact mem_find?_ancestors settings bindings distinct
  have enclosing {name : String} (contains : survey.Contains name c.1) :
      ∃ outer, s.flags.find? name = some outer ∧ (outer.get kind = true ↔ e.AllHold s kind name) := by
    have known := contains.mem_names
    rw [← Survey.map_fresh] at known
    obtain ⟨c', mem', rfl⟩ := List.mem_map.mp known
    obtain ⟨outer, found', -⟩ := exists_flags names standing mem'
    exact ⟨outer, found', get_iff_allHold bound engine names standing flag mem' (first c' mem') found'⟩
  rw [flagsAround, found, List.all_cons, Bool.and_eq_true, self, List.all_eq_true]
  constructor
  · rintro ⟨here, around⟩ name (rfl | contains)
    · exact here
    · obtain ⟨outer, found', holds⟩ := enclosing contains
      exact holds.mp (around outer (List.mem_filterMap.mpr ⟨name, note.mpr contains, found'⟩))
  · intro all
    refine ⟨all c.1 (Or.inl rfl), ?_⟩
    intro outer houter
    obtain ⟨name, hname, found'⟩ := List.mem_filterMap.mp houter
    have contains := note.mp hname
    obtain ⟨_, same, holds⟩ := enclosing contains
    rw [found'] at same
    cases same
    exact holds.mpr (all name (Or.inr contains))

/-- A page or question is visible exactly while the conditions for it, and for all that contains it, hold. -/
theorem isVisible_iff (distinct : survey.questionNames.Nodup) {x : String} (hx : x ∈ survey.names) :
    e.isVisible s x = true ↔ ∀ y, y = x ∨ survey.Contains y x → e.AllHold s .visibleIf y := by
  rw [← Survey.map_fresh] at hx
  obtain ⟨c, mem, rfl⟩ := List.mem_map.mp hx
  exact all_flagsAround_iff bound engine names standing .visibleIf rfl distinct (fun c hc => (fresh_get hc).1) mem

theorem isEnabled_iff (distinct : survey.questionNames.Nodup) {x : String} (hx : x ∈ survey.names) :
    e.isEnabled s x = true ↔ ∀ y, y = x ∨ survey.Contains y x → e.AllHold s .enableIf y := by
  rw [← Survey.map_fresh] at hx
  obtain ⟨c, mem, rfl⟩ := List.mem_map.mp hx
  exact all_flagsAround_iff bound engine names standing .enableIf rfl distinct (fun c hc => (fresh_get hc).2) mem

/-- A question is required while it is visible and is always required or its condition holds. -/
theorem isRequired_question_iff (apart : ∀ p ∈ survey.pages, p.name ∉ survey.questionNames) {q : Question}
    (hq : q ∈ survey.questions) :
    e.isRequired s q.name = true ↔
      (q.isRequired = true ∨ e.OneHolds s .requiredIf q.name) ∧ e.isVisible s q.name = true := by
  have mem : (q.name, ({ always := q.isRequired } : Flags)) ∈ survey.fresh := by
    obtain ⟨p, hp, hq⟩ := List.mem_flatMap.mp hq
    exact List.mem_flatMap.mpr ⟨p, hp, List.mem_cons_of_mem _ (List.mem_map_of_mem hq)⟩
  obtain ⟨own, found, always⟩ := exists_flags names standing mem
  have conditionally : own.conditionally = true ↔ e.OneHolds s .requiredIf q.name :=
    get_iff_oneHolds bound engine names standing .requiredIf rfl mem rfl found
  have notPage : (e.pages.find? q.name).isSome = false := by
    rw [Bool.eq_false_iff, engine, Ne, isSome_find?_pages]
    intro page
    obtain ⟨p, hp, same⟩ := List.mem_map.mp page
    exact apart p hp (same ▸ List.mem_map_of_mem hq)
  rw [isRequired, found]
  simp only [notPage, Bool.false_or, Bool.and_eq_true, Flags.required, Bool.or_eq_true, always, conditionally]

/-- A page is required while its condition holds. -/
theorem isRequired_page_iff {p : Page} (hp : p ∈ survey.pages) :
    e.isRequired s p.name = true ↔ e.OneHolds s .requiredIf p.name := by
  have mem : (p.name, ({} : Flags)) ∈ survey.fresh := List.mem_flatMap.mpr ⟨p, hp, List.mem_cons_self⟩
  obtain ⟨own, found, always⟩ := exists_flags names standing mem
  have conditionally : own.conditionally = true ↔ e.OneHolds s .requiredIf p.name :=
    get_iff_oneHolds bound engine names standing .requiredIf rfl mem rfl found
  have page : (e.pages.find? p.name).isSome = true := by
    rw [engine, isSome_find?_pages]
    exact List.mem_map_of_mem hp
  rw [isRequired, found]
  simp only [page, Bool.true_or, Bool.and_true, Flags.required, always, Bool.false_or, conditionally]

end

/-- After every run that ended normally, the effective flags of every page and question are what the bindings in use
come to on the current answers.  Visible and enabled is that for which, and for all that contains it, the conditions
hold.  A question is required while it is visible and is always required or its condition holds; a page is while its
condition holds. -/
theorem flags_current {document : Value} {survey : Survey} (loaded : Survey.ofDocument document = .ok survey)
    (pages : (survey.pages.map (·.name)).Nodup) (apart : ∀ p ∈ survey.pages, p.name ∉ survey.questionNames)
    {settings : Settings} {given : Fields} {navigator : Bool} {writes : List (Value × Value)} {e : Engine}
    {s : Session} (run : play survey settings given navigator writes = .ok (e, s)) :
    (∀ x ∈ survey.names,
      (e.isVisible s x = true ↔ ∀ y, y = x ∨ survey.Contains y x → e.AllHold s .visibleIf y) ∧
      (e.isEnabled s x = true ↔ ∀ y, y = x ∨ survey.Contains y x → e.AllHold s .enableIf y)) ∧
    (∀ q ∈ survey.questions,
      e.isRequired s q.name = true ↔
        (q.isRequired = true ∨ e.OneHolds s .requiredIf q.name) ∧ e.isVisible s q.name = true) ∧
    ∀ p ∈ survey.pages, e.isRequired s p.name = true ↔ e.OneHolds s .requiredIf p.name := by
  obtain ⟨bindings, problems, bound, engine, standing⟩ :=
    standing_of_play run (fun _ => True) (fun _ _ => trivial) fun _ _ => trivial
  have distinct := Survey.nodup_of_ofDocument loaded
  have names := Survey.nodup_names pages distinct apart
  refine ⟨?_, ?_, ?_⟩
  · intro x hx
    constructor
    · exact isVisible_iff bound engine names standing distinct hx
    · exact isEnabled_iff bound engine names standing distinct hx
  · intro q hq
    exact isRequired_question_iff bound engine names standing apart hq
  · intro p hp
    exact isRequired_page_iff bound engine names standing hp

theorem sample_flags : ∃ e s, play Sample.survey Sample.settings (Sample.given 1 35) false
      [(.text "a", Sample.whole 8)] = .ok (e, s) ∧ e.isVisible s "q" = true ∧
    ∀ y, y = "q" ∨ Sample.survey.Contains y "q" → e.AllHold s .visibleIf y := by
  obtain ⟨⟨e, s⟩, run, shown⟩ := Sample.played
  have visible : e.isVisible s "q" = true := (Prod.mk.inj shown).2
  have current := flags_current Sample.loaded (by decide) (by decide) run
  exact ⟨e, s, run, visible, (current.1 "q" (by decide)).1.mp visible⟩

end Questionnaire.Engine
