import Questionnaire.Proofs.Expr.Addresses
import Questionnaire.Proofs.Legible
import Questionnaire.Proofs.Logic.Rules
import Questionnaire.Proofs.Session.Steps

/-!
# The texts of a survey

Bindings and triggers are read from the texts of a survey when a session starts.  A text that is no expression is
reported, so nothing but a property that is no text, or a trigger that cannot be named, keeps a session from having
its bindings and triggers.  And every expression that a session evaluates is one that such a text writes.
-/
namespace Questionnaire

open Outcome (bind_eq_ok bind_eq_error)

/-- A source of an expression is left out or is a text. -/
def Value.isSource : Value → Bool
  | undefined | text _ => true
  | _ => false

theorem Value.exists_text_of_truthy {v : Value} (source : v.isSource = true) (given : v.truthy = true) :
    ∃ s, v = text s := by
  cases v with
  | text s => exact ⟨s, rfl⟩
  | undefined => cases given
  | _ => cases source

/-- The properties that hold logic. -/
def Property.logic : List Property :=
  [visibleIf, enableIf, requiredIf, defaultValueExpression, resetValueIf, setValueIf, setValueExpression, expression]

/-- Whatever holds logic in a survey is left out or is a text. -/
structure Survey.Textual (s : Survey) : Prop where
  pages : ∀ p ∈ s.pages, ∀ property ∈ Property.logic, (p.properties property).isSource = true
  questions : ∀ q ∈ s.questions, ∀ property ∈ Property.logic, (q.properties property).isSource = true
  triggers : ∀ t ∈ s.triggers, t.runExpression.isSource = true

/-! ## Bindings -/

namespace Rule

/-- A rule whose texts are texts. -/
structure Textual (r : Rule) : Prop where
  source : ∃ s, r.source = .text s
  gate : r.gate.isSource = true

theorem exists_parse (owner : String) (property : Property) (s : String) :
    ∃ found, parse owner property (.text s) = .ok found := by
  rw [parse]
  cases Expr.ofText s with
  | ok x => exact ⟨_, rfl⟩
  | error error => exact ⟨_, rfl⟩

theorem exists_compile {r : Rule} (textual : r.Textual) : ∃ compiled, r.compile = .ok compiled := by
  obtain ⟨s, source⟩ := textual.source
  obtain ⟨found, parsed⟩ := exists_parse r.owner r.property s
  rw [compile, source, parsed]
  by_cases given : r.gate.truthy = true
  · obtain ⟨gate, same⟩ := Value.exists_text_of_truthy textual.gate given
    obtain ⟨foundGate, parsedGate⟩ := exists_parse r.owner .setValueIf gate
    rw [same] at given ⊢
    simp only [given, if_true, parsedGate, bind, Except.bind]
    exact ⟨_, rfl⟩
  · simp only [given, bind, Except.bind]
    exact ⟨_, rfl⟩

theorem textual_plain {owner : String} {ownerKind : OwnerKind} {properties : Properties} {kind : BindingKind}
    {property : Property} (source : (properties property).isSource = true) :
    ∀ r ∈ plain owner ownerKind properties kind property, r.Textual := by
  unfold plain
  simp only
  split
  · rename_i given
    exact List.forall_mem_singleton.mpr ⟨Value.exists_text_of_truthy source given, rfl⟩
  · exact List.forall_mem_nil _

theorem textual_setting {q : Question} (sources : ∀ p ∈ Property.logic, (q.properties p).isSource = true) :
    ∀ r ∈ setting q, r.Textual := by
  unfold setting
  simp only
  split
  · rename_i given
    exact List.forall_mem_singleton.mpr
      ⟨Value.exists_text_of_truthy (sources _ (by decide)) given, sources _ (by decide)⟩
  · split
    · rename_i given
      exact List.forall_mem_singleton.mpr ⟨Value.exists_text_of_truthy (sources _ (by decide)) given, rfl⟩
    · exact List.forall_mem_nil _

theorem textual_ofPage {p : Page} (sources : ∀ property ∈ Property.logic, (p.properties property).isSource = true) :
    ∀ r ∈ ofPage p, r.Textual := by
  rw [ofPage, List.forall_mem_append, List.forall_mem_append]
  exact ⟨⟨textual_plain (sources _ (by decide)), textual_plain (sources _ (by decide))⟩,
    textual_plain (sources _ (by decide))⟩

theorem textual_ofQuestion {q : Question}
    (sources : ∀ property ∈ Property.logic, (q.properties property).isSource = true) :
    ∀ r ∈ ofQuestion q, r.Textual := by
  have computed : ∀ r ∈ (if isComputed q then plain q.name .question q.properties .setValueExpression .expression
      else []), r.Textual := by
    split
    · exact textual_plain (sources _ (by decide))
    · exact List.forall_mem_nil _
  unfold ofQuestion
  simp only [List.forall_mem_append]
  refine ⟨⟨⟨⟨⟨⟨?_, ?_⟩, ?_⟩, ?_⟩, ?_⟩, computed⟩, textual_setting sources⟩
  all_goals exact textual_plain (sources _ (by decide))

theorem textual_ofSurvey {s : Survey} (textual : s.Textual) : ∀ r ∈ ofSurvey s, r.Textual := by
  intro r mem
  obtain ⟨p, hp, mem⟩ := List.mem_flatMap.mp mem
  rcases List.mem_append.mp mem with page | question
  · exact textual_ofPage (textual.pages p hp) r page
  · obtain ⟨q, hq, mem⟩ := List.mem_flatMap.mp question
    exact textual_ofQuestion (textual.questions q (List.mem_flatMap.mpr ⟨p, hp, hq⟩)) r mem

theorem addressed_of_parse {owner : String} {property : Property} {source : Value} {x : Expr}
    {problems : List Diagnostic} (h : parse owner property source = .ok (some x, problems)) : x.Addressed := by
  unfold parse at h
  split at h
  · split at h
    · rename_i read
      cases h
      exact Expr.addressed_of_ofText read
    · cases h
  · cases h

theorem addressed_of_compile {r : Rule} {binding : Option Binding} {problems : List Diagnostic}
    (h : r.compile = .ok (binding, problems)) : ∀ b ∈ binding, ∀ x ∈ b.expressions, x.Addressed := by
  unfold compile at h
  obtain ⟨⟨own, found⟩, parsed, h⟩ := bind_eq_ok.mp h
  simp only at h
  split at h
  all_goals
    obtain ⟨⟨gate, gateFound⟩, gateParsed, h⟩ := bind_eq_ok.mp h
    cases h
    intro b hb x hx
    obtain ⟨e, read, hb⟩ := Option.bind_eq_some_iff.mp hb
    split at hb
    · cases hb
    · cases hb
      rcases List.mem_cons.mp hx with rfl | gated
      · exact addressed_of_parse (read ▸ parsed)
      · have gated : gate = some x := Option.mem_toList.mp gated
        first
        | exact addressed_of_parse (gated ▸ gateParsed)
        | cases gateParsed; cases gated

end Rule

namespace Survey

/-- A survey whose logic is texts has bindings. -/
theorem exists_bindings {s : Survey} (textual : s.Textual) : ∃ found, s.bindings = .ok found := by
  obtain ⟨compiled, each⟩ : ∃ compiled, (Rule.ofSurvey s).mapM Rule.compile = .ok compiled :=
    Outcome.exists_mapM.mpr fun r mem => Rule.exists_compile (Rule.textual_ofSurvey textual r mem)
  rw [bindings, each]
  exact ⟨_, rfl⟩

theorem addressed_of_bindings {s : Survey} {bindings : List Binding} {problems : List Diagnostic}
    (h : s.bindings = .ok (bindings, problems)) : ∀ b ∈ bindings, ∀ x ∈ b.expressions, x.Addressed := by
  intro b hb
  obtain ⟨r, -, b', _, i, ok, rfl⟩ := exists_rule_of_bindings h hb
  exact Rule.addressed_of_compile ok b' rfl

end Survey

/-! ## Triggers -/

/-- An expression that a trigger writes: its condition, or what it runs. -/
def Trigger.Writes (t : Trigger) (x : Expr) : Prop :=
  Expr.ofText t.condition = .ok x ∨ ∃ text, t.runExpression = .text text ∧ Expr.ofText text = .ok x

theorem Trigger.Writes.addressed {t : Trigger} {x : Expr} (h : t.Writes x) : x.Addressed := by
  rcases h with read | ⟨_, -, read⟩
  · exact Expr.addressed_of_ofText read
  · exact Expr.addressed_of_ofText read

/-- A trigger that leads to what cannot be written out has no label. -/
theorem Trigger.label_error {t : Trigger} {f : Fault} (h : t.label = .error f) :
    t.setToName.legible = false ∨ t.gotoName.legible = false := by
  have shown {v : Value} (h : v.nameText = .error f) : v.legible = false := by
    unfold Value.nameText at h
    split at h
    · cases h
    · exact Value.shown_error h
  unfold label at h
  extract_lets target at h
  have illegible : target.legible = false := by
    split at h
    · rcases bind_eq_error.mp h with failed | ⟨_, -, done⟩
      · exact shown failed
      · cases done
    · cases h
  simp only [target] at illegible
  split at illegible
  · exact Or.inl illegible
  · exact Or.inr illegible

/-- A diagnostic on what is authored: on a text that is no expression, or on what a trigger lacks. -/
def Diagnostic.Authored (d : Diagnostic) : Prop :=
  (∃ error, d.problem = .source error) ∨ ∃ error, d.problem = .definition error

namespace Slot

/-- The expressions of a trigger. -/
def expressions (a : Slot) : List Expr := a.condition.toList ++ a.run.toList

/-- What a trigger is when a session starts, and what is reported beside it. -/
structure Reads (index : Nat) (t : Trigger) (a : Slot) (problems : List Diagnostic) : Prop where
  trigger : a.trigger = t
  index : a.index = index
  fireCount : a.fireCount = 0
  expressions : ∀ x ∈ a.expressions, t.Writes x
  problems : ∀ d ∈ problems, d.Authored

theorem parse_ok {label property : String} {source : Value} {x : Option Expr} {problems : List Diagnostic}
    (h : parse label property source = .ok (x, problems)) :
    (∀ e ∈ x, ∃ text, source = .text text ∧ Expr.ofText text = .ok e) ∧
      ∀ d ∈ problems, ∃ error, d.problem = .source error := by
  have nothing (e : Expr) : Expr.ofText "" ≠ .ok e := by
    have refused : Expr.ofText "" = .error (.parse ⟨.emptyExpression, 0⟩) := by cbv
    rw [refused]
    rintro ⟨⟩
  unfold parse at h
  extract_lets rest at h
  have ends (text : String) (h : rest text = .ok (x, problems)) :
      (∀ e ∈ x, Expr.ofText text = .ok e) ∧ ∀ d ∈ problems, ∃ error, d.problem = .source error := by
    simp only [rest] at h
    split at h
    · rename_i read
      cases h
      exact ⟨fun e found => Option.some.inj found ▸ read, List.forall_mem_nil _⟩
    · rename_i error _
      cases h
      refine ⟨?_, List.forall_mem_singleton.mpr ⟨error, rfl⟩⟩
      rintro e ⟨⟩
  split at h
  · rename_i text
    exact ⟨fun e found => ⟨text, rfl, (ends text h).1 e found⟩, (ends text h).2⟩
  · split at h
    · cases h
    · exact ⟨fun e found => absurd ((ends "" h).1 e found) (nothing e), (ends "" h).2⟩

theorem exists_parse {label property : String} {source : Value} (textual : source.isSource = true) :
    ∃ found, parse label property source = .ok found := by
  unfold parse
  extract_lets rest
  have ends (text : String) : ∃ found, rest text = .ok found := by
    simp only [rest]
    cases Expr.ofText text with
    | ok x => exact ⟨_, rfl⟩
    | error error => exact ⟨_, rfl⟩
  cases source with
  | text s => exact ends s
  | undefined => exact ends ""
  | _ => cases textual

theorem reads_of_ofTrigger {index : Nat} {t : Trigger} {a : Slot} {problems : List Diagnostic}
    (h : ofTrigger index t = .ok (a, problems)) : Reads index t a problems := by
  obtain ⟨name, -, h⟩ := bind_eq_ok.mp h
  extract_lets label targetProblems sourceProblems at h
  obtain ⟨⟨condition, found⟩, parsed, h⟩ := bind_eq_ok.mp h
  have target : ∀ d ∈ targetProblems, d.Authored := by
    simp only [targetProblems]
    split
    · exact List.forall_mem_singleton.mpr (Or.inr ⟨_, rfl⟩)
    · exact List.forall_mem_nil _
  have source : ∀ d ∈ sourceProblems, d.Authored := by
    simp only [sourceProblems]
    split
    · exact List.forall_mem_singleton.mpr (Or.inr ⟨_, rfl⟩)
    · exact List.forall_mem_nil _
  have all {runFound : List Diagnostic} (run : ∀ d ∈ runFound, d.Authored) :
      ∀ d ∈ found ++ runFound ++ targetProblems ++ sourceProblems, d.Authored := by
    simp only [List.forall_mem_append]
    exact ⟨⟨⟨fun d hd => Or.inl ((parse_ok parsed).2 d hd), run⟩, target⟩, source⟩
  have conditions : ∀ x ∈ condition.toList, t.Writes x := by
    intro x hx
    obtain ⟨text, same, read⟩ := (parse_ok parsed).1 x (Option.mem_toList.mp hx)
    cases same
    exact Or.inl read
  simp only at h
  split at h
  · obtain ⟨⟨run, runFound⟩, runParsed, h⟩ := bind_eq_ok.mp h
    cases h
    refine ⟨rfl, rfl, rfl, ?_, all fun d hd => Or.inl ((parse_ok runParsed).2 d hd)⟩
    refine List.forall_mem_append.mpr ⟨conditions, ?_⟩
    intro x hx
    exact Or.inr ((parse_ok runParsed).1 x (Option.mem_toList.mp hx))
  · cases h
    refine ⟨rfl, rfl, rfl, ?_, all (List.forall_mem_nil _)⟩
    exact List.forall_mem_append.mpr ⟨conditions, List.forall_mem_nil _⟩

/-- A trigger whose texts are texts cannot be taken up only if it has no label. -/
theorem ofTrigger_error {index : Nat} {t : Trigger} {f : Fault} (textual : t.runExpression.isSource = true)
    (h : ofTrigger index t = .error f) : t.label = .error f := by
  rcases bind_eq_error.mp h with failed | ⟨name, -, h⟩
  · exact failed
  · extract_lets label targetProblems sourceProblems at h
    have read {property : String} {source : Value} (textual : source.isSource = true)
        (failed : parse label property source = .error f) : False := by
      obtain ⟨found, ok⟩ : ∃ found, parse label property source = .ok found := exists_parse textual
      cases failed.symm.trans ok
    rcases bind_eq_error.mp h with failed | ⟨_, -, h⟩
    · exact (read rfl failed).elim
    · simp only at h
      split at h
      · rcases bind_eq_error.mp h with failed | ⟨_, -, done⟩
        · exact (read textual failed).elim
        · cases done
      · cases h

/-- The triggers of a session that starts are those of the survey, in order. -/
theorem reads_of_getElem? {triggers : List Trigger} {slots : List (Slot × List Diagnostic)}
    (each : (triggers.mapIdx ofTrigger).mapM id = .ok slots) {i : Nat} {c : Slot × List Diagnostic}
    (found : slots[i]? = some c) : ∃ t ∈ triggers, Reads i t c.1 c.2 := by
  obtain ⟨bound, rfl⟩ := List.getElem?_eq_some_iff.mp found
  have pairs := Outcome.forall₂_of_mapM each
  have length := pairs.length_eq
  have ok := pairs.get (i := i) (length ▸ bound) bound
  simp only [List.get_eq_getElem, List.getElem_mapIdx] at ok
  rw [List.length_mapIdx] at length
  exact ⟨_, List.getElem_mem (length ▸ bound), reads_of_ofTrigger ok⟩

theorem reads_of_mem {triggers : List Trigger} {slots : List (Slot × List Diagnostic)}
    (each : (triggers.mapIdx ofTrigger).mapM id = .ok slots) {c : Slot × List Diagnostic} (mem : c ∈ slots) :
    ∃ i, ∃ t ∈ triggers, Reads i t c.1 c.2 := by
  obtain ⟨i, found⟩ := List.getElem?_of_mem mem
  exact ⟨i, reads_of_getElem? each found⟩

end Slot

namespace Survey

/-- Some trigger leads to what cannot be written out. -/
def Unlabelled (s : Survey) : Prop := ∃ t ∈ s.triggers, t.setToName.legible = false ∨ t.gotoName.legible = false

/-- The triggers of a survey whose logic is texts are taken up, unless one of them has no label. -/
theorem exists_slots {s : Survey} (textual : s.Textual) :
    (∃ slots, (s.triggers.mapIdx Slot.ofTrigger).mapM id = .ok slots) ∨ s.Unlabelled := by
  cases each : (s.triggers.mapIdx Slot.ofTrigger).mapM id with
  | ok slots => exact Or.inl ⟨slots, rfl⟩
  | error f =>
    obtain ⟨_, mem, failed⟩ := Outcome.exists_of_mapM_eq_error each
    obtain ⟨i, bound, rfl⟩ := List.mem_mapIdx.mp mem
    have trigger := List.getElem_mem bound
    exact Or.inr ⟨_, trigger, Trigger.label_error (Slot.ofTrigger_error (textual.triggers _ trigger) failed)⟩

end Survey

end Questionnaire
