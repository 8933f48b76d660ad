import Mathlib
import Questionnaire.Proofs.Session.Sources
import Questionnaire.Survey.Example

/-!
# Malformed logic stays where it is

A text that is no expression costs a survey the binding it stands in and nothing else.  The bindings of a survey are
those of the survey without its malformed logic, numbered alike, and beside them there is one diagnostic for each
malformed text.

The argument goes through the rules.  Taking the malformed properties out of a survey takes the rules out that have a
malformed text, and leaves the others as they are; and a rule compiles to a binding exactly if no text of it is
malformed.
-/
namespace Questionnaire

/-- A text that is there and is no expression. -/
def Value.isMalformed : Value → Bool
  | .text s => !s.isEmpty && (Expr.ofText s).toOption.isNone
  | _ => false

@[simp] theorem Value.isMalformed_undefined : Value.undefined.isMalformed = false := rfl

theorem Value.truthy_of_isMalformed {v : Value} (malformed : v.isMalformed = true) : v.truthy = true := by
  cases v with
  | text s => exact (Bool.and_eq_true_iff.mp malformed).1
  | _ => cases malformed

/-! ## The texts that hold logic -/

/-- A text that is read as an expression, with the page or question and the property it belongs to. -/
structure LogicText where
  owner : String
  property : Property
  source : Value

namespace LogicText

/-- The diagnostic of a text that is no expression. -/
def diagnostic? (t : LogicText) : Option Diagnostic :=
  match t.source with
  | .text s =>
    match Expr.ofText s with
    | .ok _ => none
    | .error e => some ⟨.source e, t.owner, t.property.key, t.source⟩
  | _ => none

/-- A text that is one, and is not empty. -/
def Readable (t : LogicText) : Prop := ∃ s, t.source = .text s ∧ s ≠ ""

/-- The properties that are given, of some that hold logic. -/
def given (owner : String) (properties : Properties) (known : List Property) : List LogicText :=
  (known.filter fun p => (properties p).truthy).map fun p => ⟨owner, p, properties p⟩

theorem given_append (owner : String) (properties : Properties) (first second : List Property) :
    given owner properties (first ++ second) = given owner properties first ++ given owner properties second := by
  rw [given, List.filter_append, List.map_append, ← given, ← given]

theorem readable_of_mem_given {owner : String} {properties : Properties} {known : List Property}
    (sources : ∀ p ∈ known, (properties p).isSource = true) {t : LogicText} (mem : t ∈ given owner properties known) :
    t.Readable := by
  obtain ⟨p, held, rfl⟩ := List.mem_map.mp mem
  obtain ⟨known, there⟩ := List.mem_filter.mp held
  obtain ⟨s, text⟩ := Value.exists_text_of_truthy (sources p known) there
  rw [text] at there
  exact ⟨s, text, by simpa [Value.truthy, Value.isEmpty] using there⟩

end LogicText

/-- The properties of a question that hold logic, in the order in which they are compiled.  Only a question that shows
a computed value uses its expression. -/
def Question.logic (q : Question) : List Property :=
  [.visibleIf, .enableIf, .requiredIf, .defaultValueExpression, .resetValueIf] ++
    (if Rule.isComputed q then [.expression] else []) ++ [.setValueExpression, .setValueIf]

/-- The texts of a survey that are compiled, page by page, each page before its questions. -/
def Survey.logicTexts (s : Survey) : List LogicText :=
  s.pages.flatMap fun p => LogicText.given p.name p.properties [.visibleIf, .enableIf, .requiredIf] ++
    p.questions.flatMap fun q => LogicText.given q.name q.properties q.logic

/-! ## Without malformed logic -/

/-- Whether a property goes when malformed logic goes.  A computed value and its condition go together. -/
def Properties.drops (properties : Properties) : Property → Bool
  | .setValueExpression | .setValueIf =>
    (properties .setValueExpression).isMalformed || (properties .setValueIf).isMalformed
  | p => Property.logic.contains p && (properties p).isMalformed

/-- The properties without those that are malformed logic. -/
def Properties.pruned (properties : Properties) : Properties := fun p =>
  if properties.drops p then .undefined else properties p

namespace Question

mutual

/-- A question without malformed logic, and so all that it holds. -/
def pruned : Question → Question
  | ⟨name, kind, isRequired, properties, elements⟩ => ⟨name, kind, isRequired, properties.pruned, prunedAll elements⟩

def prunedAll : List Question → List Question
  | [] => []
  | q :: rest => pruned q :: prunedAll rest

end

@[simp] theorem name_pruned (q : Question) : q.pruned.name = q.name := by
  cases q
  rfl

@[simp] theorem properties_pruned (q : Question) : q.pruned.properties = q.properties.pruned := by
  cases q
  rfl

@[simp] theorem isComputed_pruned (q : Question) : Rule.isComputed q.pruned = Rule.isComputed q := by
  cases q
  rfl

mutual

theorem walk_pruned (q : Question) : walk q.pruned = (walk q).map pruned := by
  obtain ⟨name, kind, isRequired, properties, elements⟩ := q
  rw [pruned, walk, walk, List.map_cons, walkAll_prunedAll, pruned]

theorem walkAll_prunedAll (questions : List Question) :
    walkAll (prunedAll questions) = (walkAll questions).map pruned := by
  cases questions with
  | nil => rfl
  | cons q rest => rw [prunedAll, walkAll, walkAll, List.map_append, walk_pruned, walkAll_prunedAll]

end

end Question

/-- A page without malformed logic. -/
def Page.pruned (p : Page) : Page :=
  { p with properties := p.properties.pruned, elements := Question.prunedAll p.elements }

/-- A survey without its malformed logic. -/
def Survey.pruned (s : Survey) : Survey := { s with pages := s.pages.map Page.pruned }

/-! ## Rules -/

namespace Rule

/-- No text of a rule is malformed. -/
def isSound (r : Rule) : Bool := !r.source.isMalformed && !r.gate.isMalformed

/-- The texts of a rule. -/
def texts (r : Rule) : List LogicText :=
  ⟨r.owner, r.property, r.source⟩ :: if r.gate.truthy then [⟨r.owner, .setValueIf, r.gate⟩] else []

/-- The binding of a rule, if it has one. -/
def binding? (r : Rule) : Option Binding := r.compile.toOption.bind (·.1)

@[simp] theorem isSound_mk (kind : BindingKind) (owner : String) (ownerKind : OwnerKind) (property : Property)
    (source gate literal : Value) : isSound ⟨kind, owner, ownerKind, property, source, gate, literal⟩ =
      (!source.isMalformed && !gate.isMalformed) := rfl

/-- A rule with a single text goes with its property. -/
theorem plain_pruned {owner : String} {ownerKind : OwnerKind} {properties : Properties} {kind : BindingKind}
    {property : Property} (alone : properties.drops property = (properties property).isMalformed) :
    plain owner ownerKind properties.pruned kind property =
      (plain owner ownerKind properties kind property).filter isSound := by
  have kept : properties.pruned property =
      if (properties property).isMalformed then .undefined else properties property := by
    rw [Properties.pruned, alone]
  simp only [plain, kept]
  by_cases malformed : (properties property).isMalformed = true
  · rw [if_pos malformed, if_pos (Value.truthy_of_isMalformed malformed)]
    simp [malformed]
    rfl
  · rw [if_neg malformed]
    split
    · simp [malformed]
    · rfl

/-- The rule that sets a value goes if the value or its condition is malformed. -/
theorem setting_pruned (q : Question) : setting q.pruned = (setting q).filter isSound := by
  generalize value : q.properties .setValueExpression = source
  generalize condition : q.properties .setValueIf = gate
  have literal : q.properties.pruned .setValue = q.properties .setValue := rfl
  have value' : q.properties.pruned .setValueExpression =
      if source.isMalformed || gate.isMalformed then .undefined else source := by
    rw [← value, ← condition]
    rfl
  have condition' : q.properties.pruned .setValueIf =
      if source.isMalformed || gate.isMalformed then .undefined else gate := by
    rw [← value, ← condition]
    rfl
  simp only [setting, Question.name_pruned, Question.properties_pruned, literal, value, value', condition, condition']
  by_cases wrong : (source.isMalformed || gate.isMalformed) = true
  · simp only [if_pos wrong]
    refine (List.filter_eq_nil_iff.mpr fun r mem => ?_).symm
    split at mem
    · obtain rfl := List.mem_singleton.mp mem
      simpa [imp_iff_not_or, or_comm] using wrong
    · rename_i missing
      split at mem
      · obtain rfl := List.mem_singleton.mp mem
        have sound : source.isMalformed = false :=
          Bool.eq_false_iff.mpr fun malformed => missing (Value.truthy_of_isMalformed malformed)
        simpa [sound] using wrong
      · cases mem
  · obtain ⟨soundSource, soundGate⟩ := Bool.or_eq_false_iff.mp (Bool.eq_false_iff.mpr wrong)
    simp only [if_neg wrong]
    split
    · simp [soundSource, soundGate]
    · split
      · simp [soundGate]
      · rfl

theorem ofPage_pruned (p : Page) : ofPage p.pruned = (ofPage p).filter isSound := by
  simp only [ofPage, Page.pruned, List.filter_append]
  rw [plain_pruned rfl, plain_pruned rfl, plain_pruned rfl]

theorem ofQuestion_pruned (q : Question) : ofQuestion q.pruned = (ofQuestion q).filter isSound := by
  simp only [ofQuestion, List.filter_append, setting_pruned, Question.name_pruned, Question.properties_pruned,
    Question.isComputed_pruned]
  rw [plain_pruned rfl, plain_pruned rfl, plain_pruned rfl, plain_pruned rfl, plain_pruned rfl, plain_pruned rfl,
    apply_ite (List.filter isSound), List.filter_nil]

theorem ofSurvey_pruned (s : Survey) : ofSurvey s.pruned = (ofSurvey s).filter isSound := by
  have questions (p : Page) : p.pruned.questions = p.questions.map Question.pruned :=
    Question.walkAll_prunedAll p.elements
  rw [ofSurvey, ofSurvey, Survey.pruned, List.flatMap_map, List.filter_flatMap]
  refine congrArg (List.flatMap · s.pages) (funext fun p => ?_)
  rw [ofPage_pruned, questions, List.flatMap_map, List.filter_append, List.filter_flatMap]
  simp only [ofQuestion_pruned]

theorem flatMap_texts_plain (owner : String) (ownerKind : OwnerKind) (properties : Properties) (kind : BindingKind)
    (property : Property) :
    (plain owner ownerKind properties kind property).flatMap texts = LogicText.given owner properties [property] := by
  simp only [plain, LogicText.given, List.filter_singleton]
  cases (properties property).truthy <;> rfl

theorem flatMap_texts_setting (q : Question) :
    (setting q).flatMap texts = LogicText.given q.name q.properties [.setValueExpression, .setValueIf] := by
  have nothing : Value.undefined.truthy = false := rfl
  simp only [setting, LogicText.given, List.filter_cons, List.filter_nil]
  cases value : (q.properties .setValueExpression).truthy <;> cases gate : (q.properties .setValueIf).truthy <;>
    simp [texts, gate, nothing]

/-- The texts of a survey are those of its rules. -/
theorem logicTexts_eq (s : Survey) : s.logicTexts = (ofSurvey s).flatMap texts := by
  have page (p : Page) : (ofPage p).flatMap texts =
      LogicText.given p.name p.properties [.visibleIf, .enableIf, .requiredIf] := by
    simp only [ofPage, List.flatMap_append, flatMap_texts_plain, ← LogicText.given_append]
    rfl
  have question (q : Question) : (ofQuestion q).flatMap texts = LogicText.given q.name q.properties q.logic := by
    simp only [ofQuestion, List.flatMap_append, flatMap_texts_setting]
    rw [Question.logic]
    cases isComputed q <;>
      simp only [Bool.false_eq_true, if_true, if_false, flatMap_texts_plain, List.flatMap_nil, List.append_nil,
        ← LogicText.given_append, List.cons_append, List.nil_append]
  simp only [Survey.logicTexts, ofSurvey, List.flatMap_assoc, List.flatMap_append, page, question]

theorem parse_text (owner : String) (property : Property) (s : String) :
    parse owner property (.text s) =
      .ok ((Expr.ofText s).toOption, (LogicText.diagnostic? ⟨owner, property, .text s⟩).toList) := by
  simp only [parse, LogicText.diagnostic?]
  cases Expr.ofText s <;> rfl

theorem isMalformed_text {s : String} (given : s ≠ "") :
    (Value.text s).isMalformed = (Expr.ofText s).toOption.isNone := by
  have there : s.isEmpty = false := by simpa using given
  rw [Value.isMalformed, there, Bool.not_false, Bool.true_and]

theorem filterMap_texts (r : Rule) : r.texts.filterMap LogicText.diagnostic? =
    (LogicText.diagnostic? ⟨r.owner, r.property, r.source⟩).toList ++
      if r.gate.truthy then (LogicText.diagnostic? ⟨r.owner, .setValueIf, r.gate⟩).toList else [] := by
  rw [texts, List.filterMap_eq_flatMap_toList, List.flatMap_cons]
  split
  · rw [List.flatMap_singleton]
  · rfl

/-- A rule has a binding exactly if none of its texts is malformed, and a diagnostic for each one that is. -/
theorem compile_eq {r : Rule} (readable : ∀ t ∈ r.texts, t.Readable) :
    r.compile = .ok (r.binding?, r.texts.filterMap LogicText.diagnostic?) ∧ r.binding?.isSome = r.isSound := by
  obtain ⟨s, source, there⟩ := readable _ List.mem_cons_self
  simp only at source
  obtain ⟨binding, found, sound⟩ : ∃ binding,
      r.compile = .ok (binding, r.texts.filterMap LogicText.diagnostic?) ∧ binding.isSome = r.isSound := by
    rw [filterMap_texts, compile, isSound, source, parse_text, isMalformed_text there]
    cases gated : r.gate.truthy with
    | true =>
      obtain ⟨g, gate, there⟩ := readable ⟨r.owner, .setValueIf, r.gate⟩ (by simp [texts, gated])
      simp only at gate
      rw [gate, parse_text, isMalformed_text there]
      refine ⟨_, rfl, ?_⟩
      cases Expr.ofText s <;> cases Expr.ofText g <;> rfl
    | false =>
      have sound : r.gate.isMalformed = false := by
        refine Bool.eq_false_iff.mpr fun malformed => ?_
        rw [Value.truthy_of_isMalformed malformed] at gated
        cases gated
      rw [sound]
      refine ⟨_, rfl, ?_⟩
      cases Expr.ofText s <;> rfl
  rw [binding?, found]
  exact ⟨rfl, sound⟩

theorem binding?_eq_none {r : Rule} (readable : ∀ t ∈ r.texts, t.Readable) (unsound : ¬ r.isSound = true) :
    r.binding? = none := by
  rw [← (compile_eq readable).2] at unsound
  exact Option.not_isSome_iff_eq_none.mp unsound

theorem diagnostic?_eq_none {t : LogicText} (readable : t.Readable) (sound : t.source.isMalformed = false) :
    t.diagnostic? = none := by
  obtain ⟨s, source, there⟩ := readable
  rw [source, isMalformed_text there] at sound
  rw [LogicText.diagnostic?, source]
  cases read : Expr.ofText s with
  | ok e => simp only [read]
  | error e =>
    rw [read] at sound
    cases sound

/-- A rule without a malformed text has no diagnostic. -/
theorem filterMap_texts_of_isSound {r : Rule} (readable : ∀ t ∈ r.texts, t.Readable) (sound : r.isSound = true) :
    r.texts.filterMap LogicText.diagnostic? = [] := by
  obtain ⟨source, gate⟩ : r.source.isMalformed = false ∧ r.gate.isMalformed = false := by
    simpa [isSound] using sound
  refine List.filterMap_eq_nil_iff.mpr fun t mem => diagnostic?_eq_none (readable t mem) ?_
  rcases List.mem_cons.mp mem with rfl | gated
  · exact source
  · split at gated
    · exact List.mem_singleton.mp gated ▸ gate
    · cases gated

/-- A binding stands where its rule stands. -/
theorem place_of_binding? {r : Rule} {b : Binding} (found : r.binding? = some b) :
    (b.owner, b.property) = (r.owner, r.property) := by
  obtain ⟨⟨binding, problems⟩, compiled, found⟩ := Option.bind_eq_some_iff.mp found
  obtain rfl : binding = some b := found
  cases outcome : r.compile with
  | error f =>
    rw [outcome] at compiled
    cases compiled
  | ok found =>
    rw [outcome] at compiled
    cases compiled
    exact (like_of_compile outcome).2.1

/-- Bindings stand in the order of the texts. -/
theorem filterMap_binding?_sublist (rules : List Rule) :
    ((rules.filterMap binding?).map fun b => (b.owner, b.property)).Sublist
      ((rules.flatMap texts).map fun t => (t.owner, t.property)) := by
  induction rules with
  | nil => exact List.Sublist.refl _
  | cons r rest ih =>
    rw [List.flatMap_cons, List.map_append]
    cases found : r.binding? with
    | none =>
      rw [List.filterMap_cons_none found]
      exact ih.trans (List.sublist_append_right _ _)
    | some b =>
      rw [List.filterMap_cons_some found, List.map_cons, place_of_binding? found]
      refine (ih.trans (List.sublist_append_right _ _)).cons_cons _

section

variable {rules : List Rule} (readable : ∀ r ∈ rules, ∀ t ∈ r.texts, t.Readable)
include readable

theorem mapM_compile :
    rules.mapM compile = .ok (rules.map fun r => (r.binding?, r.texts.filterMap LogicText.diagnostic?)) := by
  induction rules with
  | nil => rfl
  | cons r rest ih =>
    obtain ⟨first, later⟩ := List.forall_mem_cons.mp readable
    rw [List.mapM_cons, (compile_eq first).1, ih later]
    rfl

/-- The rules that have bindings are those without a malformed text. -/
theorem filterMap_binding?_filter : (rules.filter isSound).filterMap binding? = rules.filterMap binding? := by
  rw [List.filterMap_filter]
  refine List.filterMap_congr fun r mem => ?_
  split
  · rfl
  · rename_i unsound
    exact (binding?_eq_none (readable r mem) unsound).symm

end

end Rule

namespace Survey

/-- The bindings of a survey whose rules can be read. -/
theorem bindings_eq {s : Survey} (readable : ∀ r ∈ Rule.ofSurvey s, ∀ t ∈ r.texts, t.Readable) :
    s.bindings = .ok (Rule.number ((Rule.ofSurvey s).filterMap Rule.binding?),
      (Rule.ofSurvey s).flatMap fun r => r.texts.filterMap LogicText.diagnostic?) := by
  rw [bindings, Rule.mapM_compile readable]
  simp only [bind, Except.bind, pure, Except.pure, List.filterMap_map, List.flatMap_map]
  rfl

/-- Texts can be read if whatever holds logic is left out or is a text. -/
theorem readable_of_mem_logicTexts {s : Survey}
    (pages : ∀ p ∈ s.pages, ∀ property ∈ Property.logic, (p.properties property).isSource = true)
    (questions : ∀ q ∈ s.questions, ∀ property ∈ Property.logic, (q.properties property).isSource = true) :
    ∀ t ∈ s.logicTexts, t.Readable := by
  intro t mem
  obtain ⟨p, hp, mem⟩ := List.mem_flatMap.mp mem
  rcases List.mem_append.mp mem with page | question
  · refine LogicText.readable_of_mem_given (fun property known => pages p hp property ?_) page
    revert property
    decide
  · obtain ⟨q, hq, mem⟩ := List.mem_flatMap.mp question
    refine LogicText.readable_of_mem_given (fun property known => ?_) mem
    refine questions q (List.mem_flatMap.mpr ⟨p, hp, hq⟩) property ?_
    cases property <;> first | decide | exact absurd known (by unfold Question.logic; split <;> decide)

/-- Where malformed logic stands.  A survey whose logic is texts has bindings, and one diagnostic, in order, for each of
its texts that is no expression, naming the owner and the property.  The bindings are those of the survey without
its malformed logic, which has no diagnostic; they are numbered from zero, and stand in the order of the texts. -/
theorem malformed_logic_isolated {s : Survey}
    (pages : ∀ p ∈ s.pages, ∀ property ∈ Property.logic, (p.properties property).isSource = true)
    (questions : ∀ q ∈ s.questions, ∀ property ∈ Property.logic, (q.properties property).isSource = true) :
    ∃ bindings, s.bindings = .ok (bindings, s.logicTexts.filterMap LogicText.diagnostic?) ∧
      s.pruned.bindings = .ok (bindings, []) ∧
      bindings.map (·.order) = List.range bindings.length ∧
      (bindings.map fun b => (b.owner, b.property)).Sublist (s.logicTexts.map fun t => (t.owner, t.property)) := by
  have texts := readable_of_mem_logicTexts pages questions
  have readable : ∀ r ∈ Rule.ofSurvey s, ∀ t ∈ r.texts, t.Readable := fun r mem t text =>
    texts t (Rule.logicTexts_eq s ▸ List.mem_flatMap.mpr ⟨r, mem, text⟩)
  have pruned : ∀ r ∈ Rule.ofSurvey s.pruned, r ∈ Rule.ofSurvey s ∧ r.isSound = true := by
    intro r mem
    rw [Rule.ofSurvey_pruned] at mem
    exact List.mem_filter.mp mem
  have silent : ((Rule.ofSurvey s.pruned).flatMap fun r => r.texts.filterMap LogicText.diagnostic?) = [] :=
    List.flatMap_eq_nil_iff.mpr fun r mem =>
      Rule.filterMap_texts_of_isSound (readable r (pruned r mem).1) (pruned r mem).2
  refine ⟨Rule.number ((Rule.ofSurvey s).filterMap Rule.binding?), ?found, ?kept, ?numbered, ?ordered⟩
  case found => rw [bindings_eq readable, Rule.logicTexts_eq, List.filterMap_flatMap]
  case kept =>
    rw [bindings_eq fun r mem => readable r (pruned r mem).1, silent, Rule.ofSurvey_pruned,
      Rule.filterMap_binding?_filter readable]
  case numbered => exact Rule.map_order_number _
  case ordered =>
    rw [Rule.map_number fun _ _ => rfl, Rule.logicTexts_eq]
    exact Rule.filterMap_binding?_sublist _

end Survey

namespace Example

/-- A survey with four texts that break off: alone, beside a sound one, as a condition, and beside an expression of the
same question. -/
def garbled : Survey where
  title := .undefined
  description := .undefined
  completedHtml := .undefined
  metadata := []
  pages := [{ name := "page", properties := given [], elements := [
    ask "a" "A" [(.visibleIf, "{b} >=")],
    ask "b" "B" [(.visibleIf, "{a} = 'open"), (.enableIf, "{a} = 1")],
    ask "t" "T" [(.setValueExpression, "{a} + 1"), (.setValueIf, "{b} >")],
    { ask "u" "U" [(.expression, "{a} * 2"), (.setValueExpression, "{a} +"), (.setValueIf, "{b} = 1")] with
      kind := .text "expression" }] }]
  triggers := []

end Example

namespace Survey

open Example in
/-- Two properties are left: the one beside a malformed one, and the expression of a computed question. -/
theorem garbled_isolated : ∃ bindings, garbled.bindings =
      .ok (bindings, garbled.logicTexts.filterMap LogicText.diagnostic?) ∧
    garbled.pruned.bindings = .ok (bindings, []) ∧
    bindings.map (fun b => (b.order, b.label)) = [(0, "b.enableIf"), (1, "u.expression")] ∧
    (garbled.logicTexts.filterMap LogicText.diagnostic?).map (fun d => (d.owner, d.property)) =
      [("a", "visibleIf"), ("b", "visibleIf"), ("t", "setValueIf"), ("u", "setValueExpression")] := by
  obtain ⟨bindings, found, kept, -, -⟩ :=
    malformed_logic_isolated (s := garbled) (by decide +kernel) (by decide +kernel)
  have left : garbled.bindings.toOption.map (fun found => found.1.map fun b => (b.order, b.label)) =
      some [(0, "b.enableIf"), (1, "u.expression")] := by cbv
  rw [found] at left
  exact ⟨bindings, found, kept, Option.some.inj left, by cbv⟩

end Survey

end Questionnaire
