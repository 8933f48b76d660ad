import Questionnaire.Proofs.Logic.Isolation
import Questionnaire.Proofs.Logic.Loops
import Questionnaire.Proofs.Session.Freshness
import Questionnaire.Proofs.Session.Triggers
import Questionnaire.Survey.Report

/-!
# What a report says of the sessions to come

A report reads the texts of a survey without a session, and a session that starts reads them once more.  Both compile
the bindings in the same way and so refuse the same texts and find the same feedback.  They differ over what a trigger
runs: a report reads it if it is given, a session if the trigger is one that runs something.

Nothing else is ever refused in a session: what it evaluates is read by then, so that its first sweep adds neither a
refusal nor a finding of feedback.
-/
namespace Questionnaire

open Act
open Outcome (bind_eq_ok)

namespace Outcome

variable {ε α β : Type}

/-- What is counted of the results of going through a list is the sum of what is counted of each. -/
theorem sum_of_mapIdx {f : Nat → α → Except ε β} {xs : List α} {ys : List β}
    (each : (xs.mapIdx f).mapM id = .ok ys) {count : β → Nat} {weight : α → Nat}
    (counts : ∀ i, ∀ x ∈ xs, ∀ y, f i x = .ok y → count y = weight x) :
    (ys.map count).sum = (xs.map weight).sum := by
  induction xs generalizing f ys with
  | nil =>
    cases each
    rfl
  | cons x rest ih =>
    rw [List.mapIdx_cons, List.mapM_cons] at each
    obtain ⟨y, first, each⟩ := bind_eq_ok.mp each
    obtain ⟨others, later, each⟩ := bind_eq_ok.mp each
    cases each
    have onward := ih later fun i z mem => counts (i + 1) z (List.mem_cons_of_mem x mem)
    rw [List.map_cons, List.map_cons, List.sum_cons, List.sum_cons, onward,
      counts 0 x List.mem_cons_self y first]

end Outcome

namespace Diagnostic

/-- A diagnostic on a text that is no expression. -/
def isRefusal (d : Diagnostic) : Bool := d.problem.kindName == "LexError" || d.problem.kindName == "ParseError"

/-- A diagnostic on a binding that feeds back into itself. -/
def isFeedback (d : Diagnostic) : Bool := d.problem.kindName == "CyclicSetValue"

theorem isRefusal_of_source {d : Diagnostic} {error : Expr.SourceError} (h : d.problem = .source error) :
    d.isRefusal = true := by
  rw [isRefusal, h]
  cases error <;> rfl

/-- What is authored wrongly is no feedback. -/
theorem Authored.not_isFeedback {d : Diagnostic} (h : d.Authored) : d.isFeedback = false := by
  rcases h with ⟨error, found⟩ | ⟨error, found⟩
  · rw [isFeedback, found]
    cases error <;> rfl
  · rw [isFeedback, found]
    rfl

/-- A failing evaluation is neither. -/
theorem eval_unforeseen (failure : EvalError) {owner property : String} {source : Value} :
    (⟨.eval failure, owner, property, source⟩ : Diagnostic).isRefusal = false ∧
      (⟨.eval failure, owner, property, source⟩ : Diagnostic).isFeedback = false := by
  simp only [isRefusal, isFeedback, Problem.kindName]
  cases failure.kind <;> decide

end Diagnostic

namespace Session

/-- The diagnostics that a report could have foreseen. -/
def foreseen (s : Session) : List Diagnostic := s.diagnostics.filter fun d => d.isRefusal || d.isFeedback

theorem foreseen_report {d : Diagnostic} (other : d.isRefusal = false ∧ d.isFeedback = false) (s : Session) :
    (s.report d).foreseen = s.foreseen := by
  simp [foreseen, report, other]

theorem countP_foreseen (s : Session) :
    s.foreseen.countP Diagnostic.isRefusal = s.diagnostics.countP Diagnostic.isRefusal := by
  rw [foreseen, List.countP_filter]
  refine List.countP_congr fun d _ => ?_
  cases d.isRefusal <;> simp

theorem any_foreseen (s : Session) :
    s.foreseen.any Diagnostic.isFeedback = s.diagnostics.any Diagnostic.isFeedback := by
  rw [foreseen, List.any_filter]
  refine congrArg s.diagnostics.any (funext fun d => ?_)
  cases d.isFeedback <;> simp

end Session

/-! ## Starting adds nothing that could be foreseen -/

namespace Engine

variable {e : Engine} {found : List Diagnostic}

theorem guards_foreseen_partValue (b : Binding) (part : Part) (x : Expr) :
    Preserves (fun s => s.foreseen = found) (e.partValue b part x) := by
  rw [partValue]
  refine (preserves_evaluate x).bind ?_
  intro outcome
  cases outcome with
  | ok v =>
    refine (guards_modify ?_).bind fun _ => guards_pure v
    exact fun _ h => h
  | error failure =>
    refine (guards_modify ?_).bind fun _ => guards_pure Value.undefined
    intro s h
    rw [reportFailure]
    split
    · exact h
    · rw [Session.foreseen_report (Diagnostic.eval_unforeseen failure)]
      exact h

theorem bears_foreseen : e.Bears (fun _ => True) (fun s => s.foreseen = found) (fun s => s.foreseen = found) where
  ordered _ _ := trivial
  default _ _ _ := trivial
  value b _ part x _ := guards_foreseen_partValue b part x
  store _ _ _ h := ends_store.mpr h
  flag _ _ := guards_modify fun _ h => h
  unstable b := by
    refine guards_modify fun s h => ?_
    rw [Session.foreseen_report ⟨rfl, rfl⟩]
    exact h

theorem guards_foreseen_prime : Preserves (fun s => s.foreseen = found) e.prime := by
  have conditionHolds (a : Slot) : Preserves (fun s => s.foreseen = found) (e.conditionHolds a) := by
    rw [Engine.conditionHolds]
    split
    · exact guards_pure false
    · refine (preserves_evaluate _).bind fun outcome => ?_
      split
      · exact guards_pure _
      · refine Guards.bind (guards_modify fun s h => ?_) fun _ => guards_pure false
        rw [Session.foreseen_report (Diagnostic.eval_unforeseen _)]
        exact h
  rw [prime]
  refine guards_get.bind fun _ => .forM fun index _ => guards_get.bind fun t => ?_
  split
  · exact guards_pure _
  · split
    · exact guards_pure _
    · exact (conditionHolds _).bind fun holds => guards_modify fun _ h => h

/-- What could be foreseen of a session that has started was there before the first sweep. -/
theorem foreseen_of_applyAll {s t : Session} (ended : e.applyAll s = .ok () t) : t.foreseen = s.foreseen :=
  (bears_foreseen.covers.applyAll guards_foreseen_prime s rfl).of_ok ended

end Engine

/-! ## The texts of a trigger -/

/-- The text of a source; none is the empty one. -/
def Value.sourceText : Value → String
  | .text s => s
  | _ => ""

/-- One for a text that is no expression. -/
def Expr.refusals (text : String) : Nat := (Expr.ofText text).toOption.isNone.toNat

theorem Expr.refusals_empty : Expr.refusals "" = 1 := by
  have refused : Expr.ofText "" = .error (.parse ⟨.emptyExpression, 0⟩) := by cbv
  rw [refusals, refused]
  rfl

namespace Trigger

/-- A trigger is to run an expression and has none. -/
def isIdle (t : Trigger) : Bool := t.kind == .runExpression && !t.runExpression.truthy

/-- A trigger has a malformed text to run, and is none that runs anything. -/
def isLittered (t : Trigger) : Bool := t.kind != .runExpression && t.runExpression.isMalformed

/-- The texts of a trigger that a report refuses. -/
def reportRefusals (t : Trigger) : Nat :=
  Expr.refusals t.condition + if t.runExpression.truthy then Expr.refusals t.runExpression.sourceText else 0

/-- The texts of a trigger that a session refuses. -/
def sessionRefusals (t : Trigger) : Nat :=
  Expr.refusals t.condition + if t.kind == .runExpression then Expr.refusals t.runExpression.sourceText else 0

/-- A session refuses one more if nothing is given to run, and a report if what is given is never run. -/
theorem refusals_balance {t : Trigger} (textual : t.runExpression.isSource = true) :
    t.reportRefusals + t.isIdle.toNat = t.sessionRefusals + t.isLittered.toNat := by
  rw [reportRefusals, sessionRefusals, isIdle, isLittered]
  cases given : t.runExpression.truthy with
  | true =>
    obtain ⟨s, text⟩ := Value.exists_text_of_truthy textual given
    have there : s ≠ "" := by
      rw [text] at given
      simpa [Value.truthy, Value.isEmpty] using given
    rw [text, Rule.isMalformed_text there]
    cases runs : t.kind == .runExpression <;> simp [bne, runs, Value.sourceText, Expr.refusals]
  | false =>
    have sound : t.runExpression.isMalformed = false := by
      refine Bool.eq_false_iff.mpr fun malformed => ?_
      rw [Value.truthy_of_isMalformed malformed] at given
      cases given
    have empty : t.runExpression.sourceText = "" := by
      generalize t.runExpression = v at textual given
      cases v with
      | text s =>
        have blank : s = "" := by simpa [Value.truthy, Value.isEmpty] using given
        exact blank
      | _ => rfl
    rw [sound, empty, Expr.refusals_empty]
    cases t.kind == .runExpression <;> simp

theorem sum_refusals_balance {triggers : List Trigger}
    (textual : ∀ t ∈ triggers, t.runExpression.isSource = true) :
    (triggers.map reportRefusals).sum + triggers.countP isIdle =
      (triggers.map sessionRefusals).sum + triggers.countP isLittered := by
  induction triggers with
  | nil => rfl
  | cons t rest ih =>
    obtain ⟨first, later⟩ := List.forall_mem_cons.mp textual
    have here := refusals_balance first
    have onward := ih later
    rw [List.map_cons, List.map_cons, List.sum_cons, List.sum_cons, List.countP_cons, List.countP_cons]
    cases idle : t.isIdle <;> cases littered : t.isLittered <;> simp [idle, littered] at here ⊢ <;> omega

end Trigger

namespace Slot

theorem countP_parse {label property : String} {source : Value} {x : Option Expr} {problems : List Diagnostic}
    (textual : source.isSource = true) (h : parse label property source = .ok (x, problems)) :
    problems.countP Diagnostic.isRefusal = Expr.refusals source.sourceText := by
  unfold parse at h
  extract_lets rest at h
  have ends (text : String) (h : rest text = .ok (x, problems)) :
      problems.countP Diagnostic.isRefusal = Expr.refusals text := by
    simp only [rest] at h
    rw [Expr.refusals]
    cases read : Expr.ofText text with
    | ok e =>
      rw [read] at h
      cases h
      rfl
    | error error =>
      rw [read] at h
      cases h
      rw [List.countP_singleton, Diagnostic.isRefusal_of_source rfl]
      rfl
  cases source with
  | text s => exact ends s h
  | undefined => exact ends "" h
  | _ => cases textual

theorem countP_ofTrigger {index : Nat} {t : Trigger} {a : Slot} {problems : List Diagnostic}
    (textual : t.runExpression.isSource = true) (h : ofTrigger index t = .ok (a, problems)) :
    problems.countP Diagnostic.isRefusal = t.sessionRefusals := by
  obtain ⟨name, -, h⟩ := bind_eq_ok.mp h
  extract_lets label targetProblems sourceProblems at h
  obtain ⟨⟨condition, found⟩, parsed, h⟩ := bind_eq_ok.mp h
  have target : targetProblems.countP Diagnostic.isRefusal = 0 := by
    simp only [targetProblems]
    split <;> rfl
  have source : sourceProblems.countP Diagnostic.isRefusal = 0 := by
    simp only [sourceProblems]
    split <;> rfl
  have first := countP_parse (by rfl) parsed
  simp only at h
  rw [Trigger.sessionRefusals]
  split at h
  · rename_i runs
    obtain ⟨⟨run, runFound⟩, runParsed, h⟩ := bind_eq_ok.mp h
    cases h
    rw [List.countP_append, List.countP_append, List.countP_append, target, source, first,
      countP_parse textual runParsed, if_pos runs]
    rfl
  · rename_i other
    cases h
    rw [List.countP_append, List.countP_append, List.countP_append, target, source, first, if_neg other]
    rfl

end Slot

namespace Report

/-- A report has the texts of a trigger, one for each that it refuses. -/
theorem exists_ofSources {t : Trigger} (textual : t.runExpression.isSource = true) (index : Nat) :
    ∃ found, ofSources index (sourcesOf t) = .ok found ∧ found.2.length = t.reportRefusals := by
  have one (property text : String) {rest : List (String × Value)} {found : List Expr × List String}
      (later : ofSources index rest = .ok found) :
      ∃ found', ofSources index ((property, .text text) :: rest) = .ok found' ∧
        found'.2.length = Expr.refusals text + found.2.length := by
    rw [ofSources, later, Expr.refusals]
    cases read : Expr.ofText text with
    | ok e =>
      refine ⟨(e :: found.1, found.2), ?_, (Nat.zero_add _).symm⟩
      simp only [read, bind, Except.bind, pure, Except.pure]
    | error error =>
      refine ⟨(found.1, (s!"[trigger[{index}].{property}] " ++ error.message) :: found.2), ?_, Nat.add_comm _ 1⟩
      simp only [read, bind, Except.bind, pure, Except.pure]
  have last : ofSources index [] = .ok ([], []) := rfl
  rw [sourcesOf, Trigger.reportRefusals]
  split
  · rename_i given
    obtain ⟨s, text⟩ := Value.exists_text_of_truthy textual given
    obtain ⟨_, run, many⟩ := one "runExpression" s last
    obtain ⟨_, all, more⟩ := one "expression" t.condition run
    rw [text]
    exact ⟨_, all, by rw [more, many]; rfl⟩
  · exact one "expression" t.condition last

theorem exists_ofTriggers {triggers : List Trigger} (textual : ∀ t ∈ triggers, t.runExpression.isSource = true) :
    ∃ found, ofTriggers triggers = .ok found ∧ found.2.length = (triggers.map Trigger.reportRefusals).sum := by
  obtain ⟨found, each⟩ : ∃ found, (triggers.mapIdx fun i t => ofSources i (sourcesOf t)).mapM id = .ok found := by
    refine Outcome.exists_mapM.mpr fun _ mem => ?_
    obtain ⟨i, bound, rfl⟩ := List.mem_mapIdx.mp mem
    obtain ⟨found, read, -⟩ := exists_ofSources (textual _ (List.getElem_mem bound)) i
    exact ⟨found, read⟩
  rw [ofTriggers, each]
  refine ⟨_, rfl, ?_⟩
  rw [List.length_flatMap]
  refine Outcome.sum_of_mapIdx each fun i t mem y ok => ?_
  obtain ⟨_, found, many⟩ := exists_ofSources (textual t mem) i
  cases found.symm.trans ok
  exact many

/-! ## Reports and sessions -/

/-- A name that is given can be looked up. -/
def names (v : Value) : Bool := !v.truthy || v.key?.isSome

/-- The names in a trigger can be looked up, and the target of a skip can be written out. -/
structure Covers (t : Trigger) : Prop where
  source : names t.fromName = true
  target : names t.setToName = true
  goal : names t.gotoName = true
  written : t.gotoName.truthy = true → ∃ name, t.gotoName.nameText = .ok name

theorem exists_nameIn {v : Value} : (∃ found, nameIn v = .ok found) ↔ names v = true := by
  rw [nameIn, names]
  cases v.truthy with
  | false => simp
  | true => cases v.key? <;> simp

/-- A text is written out as it is. -/
theorem exists_nameText {v : Value} {key : Key} (named : v.key? = some key) (text : key.text?.isSome = true) :
    ∃ name, v.nameText = .ok name := by
  cases v with
  | text s => exact ⟨s, rfl⟩
  | undefined | boolean | number =>
    cases named
    cases text
  | _ => cases named

theorem exists_skipWarnings {s : Survey} {triggers : List Trigger} :
    (∃ warnings, skipWarnings s triggers = .ok warnings) ↔ ∀ t ∈ triggers, names t.gotoName = true ∧
      (t.gotoName.truthy = true → ∃ name, t.gotoName.nameText = .ok name) := by
  induction triggers with
  | nil => exact ⟨fun _ => List.forall_mem_nil _, fun _ => ⟨[], rfl⟩⟩
  | cons t rest ih =>
    rw [List.forall_mem_cons, ← ih, skipWarnings, names]
    generalize t.gotoName = v
    generalize (fun name => s.questionNames.contains name || (s.findPage? name).isSome) = isThere
    cases v.truthy with
    | false => cases skipWarnings s rest <;> simp [bind, Except.bind, pure, Except.pure]
    | true =>
      cases named : v.key? with
      | none => simp [bind, Except.bind, throw, throwThe, MonadExceptOf.throw]
      | some key =>
        by_cases known : key.text?.any isThere = true
        · have written := exists_nameText named (Option.isSome_of_any known)
          cases skipWarnings s rest <;> simp [known, written, bind, Except.bind, pure, Except.pure]
        · cases v.nameText <;> cases skipWarnings s rest <;>
            simp [known, bind, Except.bind, pure, Except.pure]

/-- The names of the triggers are looked up. -/
theorem exists_endpoints {triggers : List Trigger} :
    (∃ found, triggers.mapM (fun t => (do
        let source ← nameIn t.fromName
        return source ++ (← nameIn t.setToName) : Except Fault (List String))) = .ok found) ↔
      ∀ t ∈ triggers, names t.fromName = true ∧ names t.setToName = true := by
  rw [Outcome.exists_mapM]
  refine forall₂_congr fun t _ => ?_
  rw [← exists_nameIn, ← exists_nameIn]
  cases nameIn t.fromName <;> cases nameIn t.setToName <;> simp [bind, Except.bind, pure, Except.pure]

section

variable {s : Survey} {bindings : List Binding} {problems : List Diagnostic} {found : List Expr × List String}
  (bound : s.bindings = .ok (bindings, problems)) (read : ofTriggers s.triggers = .ok found)
include bound read

/-- A survey whose texts are read has a report if it covers the triggers. -/
theorem exists_ofSurvey : (∃ report, ofSurvey s = .ok report) ↔ ∀ t ∈ s.triggers, Covers t := by
  have covers : (∀ t ∈ s.triggers, Covers t) ↔
      (∀ t ∈ s.triggers, names t.fromName = true ∧ names t.setToName = true) ∧
        ∀ t ∈ s.triggers, names t.gotoName = true ∧
          (t.gotoName.truthy = true → ∃ name, t.gotoName.nameText = .ok name) := by
    rw [← forall₂_and]
    refine forall₂_congr fun t _ => ⟨fun h => ⟨⟨h.source, h.target⟩, h.goal, h.written⟩, ?_⟩
    rintro ⟨⟨source, target⟩, goal, written⟩
    exact ⟨source, target, goal, written⟩
  rw [covers, ← exists_endpoints, ← exists_skipWarnings (s := s), ofSurvey]
  constructor
  · rintro ⟨report, h⟩
    obtain ⟨_, -, h⟩ := bind_eq_ok.mp h
    obtain ⟨_, -, h⟩ := bind_eq_ok.mp h
    obtain ⟨endpoints, looked, h⟩ := bind_eq_ok.mp h
    obtain ⟨warnings, warned, -⟩ := bind_eq_ok.mp h
    exact ⟨⟨endpoints, looked⟩, warnings, warned⟩
  · rintro ⟨⟨endpoints, looked⟩, warnings, warned⟩
    exact ⟨_, bind_eq_ok.mpr ⟨_, bound, bind_eq_ok.mpr ⟨_, read, bind_eq_ok.mpr ⟨_, looked,
      bind_eq_ok.mpr ⟨_, warned, rfl⟩⟩⟩⟩⟩

theorem ofSurvey_ok {report : Report} (h : ofSurvey s = .ok report) :
    report.parseErrors = problems.map Diagnostic.text ++ found.2 ∧
      report.cycle = (Feedback.cycles bindings).head?.map (·.2) := by
  rw [ofSurvey] at h
  obtain ⟨_, same, h⟩ := bind_eq_ok.mp h
  cases bound.symm.trans same
  obtain ⟨_, same, h⟩ := bind_eq_ok.mp h
  cases read.symm.trans same
  obtain ⟨_, -, h⟩ := bind_eq_ok.mp h
  obtain ⟨_, -, h⟩ := bind_eq_ok.mp h
  cases h
  exact ⟨rfl, rfl⟩

end

end Report

namespace Engine

section

variable {e : Engine} {bindings : List Binding} {problems : List Diagnostic} {slots : List (Slot × List Diagnostic)}
  {given : Fields} {navigator : Bool} (sources : ∀ d ∈ problems, ∃ error, d.problem = .source error)
  (each : (e.survey.triggers.mapIdx Slot.ofTrigger).mapM id = .ok slots)
include sources each

/-- The texts that a session refuses. -/
theorem countP_opening (textual : ∀ t ∈ e.survey.triggers, t.runExpression.isSource = true) :
    (e.opening problems slots given navigator).diagnostics.countP Diagnostic.isRefusal =
      problems.length + (e.survey.triggers.map Trigger.sessionRefusals).sum := by
  have bound : problems.countP Diagnostic.isRefusal = problems.length := by
    refine List.countP_eq_length.mpr fun d mem => ?_
    obtain ⟨error, found⟩ := sources d mem
    exact Diagnostic.isRefusal_of_source found
  have rejected {f : Binding × ConfigError → Diagnostic} (config : ∀ c, (f c).problem = .config c.2) :
      (e.dependencies.rejected.map f).countP Diagnostic.isRefusal = 0 := by
    rw [List.countP_map]
    refine List.countP_eq_zero.mpr fun c _ => ?_
    simp only [Function.comp_apply, Diagnostic.isRefusal, config, Problem.kindName]
    cases c.2.cause.kind <;> decide
  have triggers : (slots.flatMap (·.2)).countP Diagnostic.isRefusal =
      (e.survey.triggers.map Trigger.sessionRefusals).sum := by
    rw [List.countP_flatMap]
    exact Outcome.sum_of_mapIdx each fun i t mem _ ok => Slot.countP_ofTrigger (textual t mem) ok
  rw [opening, List.countP_append, List.countP_append, bound, rejected fun _ => rfl, triggers, Nat.add_zero]

/-- A session that starts reports feedback exactly if a binding feeds back into itself. -/
theorem any_opening (dependencies : e.dependencies = .ofBindings bindings) :
    (e.opening problems slots given navigator).diagnostics.any Diagnostic.isFeedback =
      bindings.any fun b => (Feedback.cycle? bindings b).isSome := by
  have bound : problems.any Diagnostic.isFeedback = false := by
    refine List.any_eq_false.mpr fun d mem => Bool.eq_false_iff.mp ?_
    exact Diagnostic.Authored.not_isFeedback (Or.inl (sources d mem))
  have triggers : (slots.flatMap (·.2)).any Diagnostic.isFeedback = false := by
    refine List.any_eq_false.mpr fun d mem => Bool.eq_false_iff.mp ?_
    obtain ⟨c, mem, hd⟩ := List.mem_flatMap.mp mem
    obtain ⟨_, _, -, reads⟩ := Slot.reads_of_mem each mem
    exact (reads.problems d hd).not_isFeedback
  have rejected {f : Binding × ConfigError → Diagnostic} (config : ∀ c, (f c).problem = .config c.2) :
      (e.dependencies.rejected.map f).any Diagnostic.isFeedback =
        bindings.any fun b => (Feedback.cycle? bindings b).isSome := by
    have ordered : ∀ b, (Feedback.cycle? bindings b).isSome =
        (Feedback.cycle? (Binding.inOrder bindings) b).isSome :=
      Feedback.isSome_cycle?_congr fun b => Binding.mem_inOrder.symm
    simp only [ordered]
    rw [dependencies, Dependencies.ofBindings, List.any_map, List.any_filterMap,
      ← (Binding.inOrder_perm bindings).any_eq]
    refine congrArg (Binding.inOrder bindings).any (funext fun b => ?_)
    cases Feedback.cycle? (Binding.inOrder bindings) b with
    | none => rfl
    | some path =>
      simp only [Option.map_some, Function.comp_apply, Diagnostic.isFeedback, config]
      rfl
  rw [opening, List.any_append, List.any_append, bound, rejected fun _ => rfl, triggers, Bool.false_or, Bool.or_false]

end

/-- How a report and a session that starts count.  A survey whose logic is texts has a report if the names in its
triggers can be looked up.  The report counts as many malformed texts as the session, but for the triggers that
are to run nothing, each of which the session refuses, and those that have a malformed text which they never run, each
of which the report counts.  And the report has a cycle exactly if the session reports feedback. -/
theorem report_forecasts {survey : Survey} {settings : Settings} {given : Fields} {navigator : Bool} {e : Engine}
    {s : Session} (textual : survey.Textual) (begun : start survey settings given navigator = .ok (e, s)) :
    ((∃ report, Report.ofSurvey survey = .ok report) ↔ ∀ t ∈ survey.triggers, Report.Covers t) ∧
    ∀ report, Report.ofSurvey survey = .ok report →
      report.parseErrors.length + survey.triggers.countP Trigger.isIdle =
          s.diagnostics.countP Diagnostic.isRefusal + survey.triggers.countP Trigger.isLittered ∧
        report.cycle.isSome = s.diagnostics.any Diagnostic.isFeedback := by
  obtain ⟨bindings, problems, slots, bound, each, rfl, ended⟩ := start_ok begun
  obtain ⟨found, read, many⟩ := Report.exists_ofTriggers textual.triggers
  refine ⟨Report.exists_ofSurvey bound read, fun report reported => ?_⟩
  obtain ⟨parseErrors, cycle⟩ := Report.ofSurvey_ok bound read reported
  have sources := (Survey.compiles_of_bindings bound).sources
  have kept := foreseen_of_applyAll ended
  have balance := Trigger.sum_refusals_balance textual.triggers
  constructor
  case left =>
    rw [parseErrors, ← Session.countP_foreseen, kept, Session.countP_foreseen,
      countP_opening sources each textual.triggers, List.length_append, List.length_map, many]
    change _ = _ + (survey.triggers.map Trigger.sessionRefusals).sum + _
    omega
  case right =>
    rw [← Session.any_foreseen, kept, Session.any_foreseen, any_opening sources each rfl, cycle, Option.isSome_map,
      Feedback.cycles, List.head?_filterMap, Bool.eq_iff_iff, List.findSome?_isSome_iff, List.any_eq_true]
    simp only [Option.isSome_map]

end Engine

namespace Misread

/-- A trigger that is to run something, and nothing is given. -/
def idle : Value := Sample.fields [("type", .text "runexpression"), ("expression", .text "{a} = 1")]

/-- A trigger that completes the survey, with a malformed text to run. -/
def littered : Value :=
  Sample.fields [("type", .text "complete"), ("expression", .text "{a} = 1"), ("runExpression", .text "{a} +")]

/-- A malformed condition, an answer computed from itself, and one trigger or three. -/
def document (more : Bool) : Value :=
  Sample.fields [("elements", .sequence [
      Sample.fields [("name", .text "a"), ("visibleIf", .text "{b} >=")],
      Sample.fields [("name", .text "x"), ("setValueExpression", .text "{x} + 1")]]),
    ("triggers", .sequence (idle :: if more then [littered, idle] else []))]

def survey (more : Bool) : Survey :=
  match Survey.ofDocument (document more) with
  | .ok survey => survey
  | .error _ => ⟨.undefined, .undefined, .undefined, [], [], []⟩

theorem loaded (more : Bool) : Survey.ofDocument (document more) = .ok (survey more) := by cases more <;> rfl

theorem textual (more : Bool) : (survey more).Textual := by
  constructor <;> cases more <;> decide

def successor : Expr := .binary (.arithmetic .add) (.reference "x") (.literal (Sample.whole 1))

def bindings : List Binding :=
  [⟨.setValueExpression, "x", .question, .setValueExpression, successor, "{x} + 1", 0, none, .undefined, ["x"]⟩]

def problems : List Diagnostic :=
  [⟨.source (.parse ⟨.missingOperand, 6⟩), "a", "visibleIf", .text "{b} >="⟩]

theorem bound (more : Bool) : (survey more).bindings = .ok (bindings, problems) := by
  have broken : Expr.ofText "{b} >=" = .error (.parse ⟨.missingOperand, 6⟩) := by cbv
  have own : Expr.ofText "{x} + 1" = .ok successor := by cbv
  have rules : Rule.ofSurvey (survey more) = [Sample.rule .visibleIf "a" .visibleIf "{b} >=",
      Sample.rule .setValueExpression "x" .setValueExpression "{x} + 1"] := by
    cases more <;> rfl
  rw [Survey.bindings, rules]
  simp [Sample.rule, Rule.compile, Rule.parse, broken, own, Value.truthy, bind, Except.bind, pure, Except.pure]
  rfl

def one : Expr := .binary .equal (.reference "a") (.literal (Sample.whole 1))

/-- A trigger that waits for a one. -/
def trigger (kind : TriggerKind) (runExpression : Value) : Trigger :=
  ⟨kind, "{a} = 1", .undefined, .undefined, .undefined, .undefined, runExpression⟩

theorem triggers (more : Bool) : (survey more).triggers = trigger .runExpression .undefined ::
    if more then [trigger .complete (.text "{a} +"), trigger .runExpression .undefined] else [] := by
  cases more <;> rfl

/-- The slot of the first or third trigger, which is switched off. -/
def switchedOff (index : Nat) : Slot × List Diagnostic :=
  let t := trigger .runExpression .undefined
  (⟨t, "runexpression", index, some one, none, false, true, 0⟩,
    [⟨.source (.parse ⟨.emptyExpression, 0⟩), "trigger[" ++ toString index ++ "]:runexpression", "runExpression",
      .undefined⟩])

def slots (more : Bool) : List (Slot × List Diagnostic) :=
  switchedOff 0 :: if more then
    [(⟨trigger .complete (.text "{a} +"), "complete", 1, some one, none, false, false, 0⟩, []), switchedOff 2] else []

theorem each (more : Bool) : ((survey more).triggers.mapIdx Slot.ofTrigger).mapM id = .ok (slots more) := by
  have condition : Expr.ofText "{a} = 1" = .ok one := by cbv
  have nothing : Expr.ofText "" = .error (.parse ⟨.emptyExpression, 0⟩) := by cbv
  rw [triggers]
  cases more <;>
    simp [Slot.ofTrigger, Slot.parse, trigger, Trigger.label, condition, nothing, Value.truthy, bind, Except.bind, pure,
      Except.pure] <;>
    rfl

def engine (more : Bool) : Engine := Engine.ofBindings (survey more) Sample.settings bindings

/-- A session starts with the malformed condition, the feedback, and each trigger that is to run nothing. -/
theorem started (more : Bool) : ∃ s, Engine.start (survey more) Sample.settings [] false = .ok (engine more, s) ∧
    s.diagnostics.countP Diagnostic.isRefusal = if more then 3 else 2 := by
  obtain ⟨_, s, ended, seen⟩ : ∃ a s, (engine more).applyAll
      ((engine more).opening problems (slots more) [] false) = .ok a s ∧
        s.diagnostics.countP Diagnostic.isRefusal = if more then 3 else 2 := by
    cases more <;> exact Act.exists_of_seen (by decide +kernel)
  exact ⟨s, Engine.start_of_applyAll (bound more) (each more) ended, seen⟩

/-- No trigger gives a name. -/
theorem covered (more : Bool) : ∀ t ∈ (survey more).triggers, Report.Covers t := by
  have nameless (kind : TriggerKind) (runExpression : Value) : Report.Covers (trigger kind runExpression) :=
    ⟨rfl, rfl, rfl, fun given => nomatch given⟩
  rw [triggers]
  cases more <;> simp [nameless]

end Misread

namespace Engine

/-- Two triggers that are to run nothing, and one that never runs its malformed text. -/
theorem misread_forecast : ∃ e s report,
    start (Misread.survey true) Sample.settings [] false = .ok (e, s) ∧
    Report.ofSurvey (Misread.survey true) = .ok report ∧ report.parseErrors.length = 2 ∧
    s.diagnostics.countP Diagnostic.isRefusal = 3 ∧ report.cycle.isSome = s.diagnostics.any Diagnostic.isFeedback := by
  obtain ⟨s, begun, many⟩ := Misread.started true
  obtain ⟨reports, counts⟩ := report_forecasts (Misread.textual true) begun
  obtain ⟨report, reported⟩ := reports.mpr (Misread.covered true)
  obtain ⟨balance, cycle⟩ := counts report reported
  have broken : Expr.ofText "{a} +" = .error (.parse ⟨.missingOperand, 5⟩) := by cbv
  have idle : (Misread.survey true).triggers.countP Trigger.isIdle = 2 := by
    rw [Misread.triggers]
    rfl
  have littered : (Misread.survey true).triggers.countP Trigger.isLittered = 1 := by
    have malformed : (Value.text "{a} +").isMalformed = true := by
      rw [Rule.isMalformed_text (by decide), broken]
      rfl
    rw [Misread.triggers]
    simp [Misread.trigger, Trigger.isLittered, malformed]
  rw [idle, littered, many] at balance
  exact ⟨_, s, report, begun, reported, Nat.add_right_cancel balance, many, cycle⟩

/-- One trigger that is to run nothing.  The session refuses the text that is not there, and the report does not count
it. -/
theorem missing_text_unforeseen : ∃ e s report,
    Survey.ofDocument (Misread.document false) = .ok (Misread.survey false) ∧ (Misread.survey false).Textual ∧
    start (Misread.survey false) Sample.settings [] false = .ok (e, s) ∧
    Report.ofSurvey (Misread.survey false) = .ok report ∧ report.parseErrors.length = 1 ∧
    s.diagnostics.countP Diagnostic.isRefusal = 2 := by
  obtain ⟨s, begun, many⟩ := Misread.started false
  obtain ⟨found, read, refused⟩ := Report.exists_ofTriggers (Misread.textual false).triggers
  obtain ⟨report, reported⟩ := (Report.exists_ofSurvey (Misread.bound false) read).mpr (Misread.covered false)
  have parseErrors := (Report.ofSurvey_ok (Misread.bound false) read reported).1
  have condition : Expr.refusals "{a} = 1" = 0 := by cbv
  rw [Misread.triggers] at refused
  refine ⟨_, s, report, Misread.loaded false, Misread.textual false, begun, reported, ?_, many⟩
  rw [parseErrors, List.length_append, refused]
  simp [Misread.trigger, Trigger.reportRefusals, Value.truthy, Value.isEmpty, condition, Misread.problems]

end Engine

end Questionnaire
