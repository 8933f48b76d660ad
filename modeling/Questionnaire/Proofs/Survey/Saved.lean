import Questionnaire.Answers
import Questionnaire.Proofs.Json.RoundTrip
import Questionnaire.Proofs.Survey.Keeping
import Questionnaire.Survey.Format

/-!
# Answers and definitions that are kept as text

Answers are kept as the JSON text of an object.  A definition is kept as the text of its document, so it goes through
the loader again on its way back.  The document of a survey comes back with its fields in order, and the loader looks
fields up by their names.  So what is loaded differs from the survey in the order of fields at most.
-/
namespace Questionnaire

/-! ## The survey that comes back -/

namespace Question

mutual

/-- A question with the fields of all that it keeps in order. -/
def tidy : Question → Question
  | ⟨name, kind, isRequired, properties, elements⟩ =>
    ⟨name, kind.tidy, isRequired, fun property => (properties property).tidy, tidyAll elements⟩

def tidyAll : List Question → List Question
  | [] => []
  | q :: rest => tidy q :: tidyAll rest

end

theorem tidyAll_eq_map (questions : List Question) : tidyAll questions = questions.map tidy := by
  induction questions with
  | nil => rw [tidyAll, List.map_nil]
  | cons q rest ih => rw [tidyAll, List.map_cons, ih]

theorem tidy_eq (q : Question) : q.tidy =
    ⟨q.name, q.kind.tidy, q.isRequired, fun property => (q.properties property).tidy, q.elements.map tidy⟩ := by
  obtain ⟨name, kind, isRequired, properties, elements⟩ := q
  rw [tidy, tidyAll_eq_map]

mutual

theorem names_walk_tidy : ∀ q : Question, (walk q.tidy).map (·.name) = (walk q).map (·.name)
  | ⟨name, kind, isRequired, properties, elements⟩ => by
    rw [tidy, walk, walk, List.map_cons, List.map_cons, names_walkAll_tidy elements]

theorem names_walkAll_tidy : ∀ questions : List Question,
    (walkAll (tidyAll questions)).map (·.name) = (walkAll questions).map (·.name)
  | [] => rfl
  | q :: rest => by
    rw [tidyAll, walkAll, walkAll, List.map_append, List.map_append, names_walk_tidy q, names_walkAll_tidy rest]

end

end Question

def Page.tidy (p : Page) : Page :=
  ⟨p.name, fun property => (p.properties property).tidy, p.elements.map Question.tidy⟩

def Trigger.tidy (t : Trigger) : Trigger :=
  ⟨t.kind, t.condition, t.setToName.tidy, t.setValue.tidy, t.fromName.tidy, t.gotoName.tidy, t.runExpression.tidy⟩

/-- A survey with the fields of all that it keeps in order. -/
def Survey.tidy (s : Survey) : Survey :=
  ⟨s.title.tidy, s.description.tidy, s.completedHtml.tidy, s.metadata.tidy, s.pages.map Page.tidy,
    s.triggers.map Trigger.tidy⟩

theorem Survey.questionNames_tidy (s : Survey) : s.tidy.questionNames = s.questionNames := by
  simp [questionNames, questions, tidy, List.map_flatMap, List.flatMap_map, Page.questions, Page.tidy,
    ← Question.tidyAll_eq_map, Question.names_walkAll_tidy]

/-- A value with its fields in order is as empty as it was. -/
theorem Value.truthy_tidy (v : Value) : v.tidy.truthy = v.truthy := by
  cases v with
  | sequence items =>
    rw [tidy_sequence]
    simp [truthy, isEmpty]
  | structured fields =>
    have same := (Table.inOrder_perm fields).isEmpty_eq
    rw [tidy_structured, Fields.tidy]
    simp [truthy, isEmpty, same]
  | _ => rw [tidy]

namespace Document

/-- The documents of the elements of a question, each with its fields in order. -/
theorem get_elements_tidy {q : Question} (distinct : Table.Distinct (questionFields q)) :
    Fields.get (questionFields q).tidy "elements" =
      if (q.elements.map fun r => (ofQuestion r).tidy).isEmpty then .undefined
      else .sequence (q.elements.map fun r => (ofQuestion r).tidy) := by
  rw [Fields.get_tidy distinct, get_elements_questionFields, List.isEmpty_map]
  split
  · rw [Value.tidy]
  · rw [ofQuestions_eq_map, Value.tidy_sequence, List.map_map]
    rfl

/-- The document of a question with its fields in order is read as the question with its fields in order. -/
theorem questionWithin_tidy {n : Nat} {q : Question} (definite : q.Definite) (storable : q.Storable)
    (deep : levels (ofQuestion q).tidy ≤ n) : questionWithin n (ofQuestion q).tidy = .ok q.tidy := by
  induction n generalizing q with
  | zero =>
    rw [ofQuestion_eq, Value.tidy_structured, levels] at deep
    omega
  | succ n ih =>
    obtain ⟨named, inner⟩ := Question.definite_iff.mp definite
    have kept := (Question.storable_iff.mp storable).2
    have document := storable_ofQuestion storable
    rw [ofQuestion_eq] at document deep ⊢
    rw [Value.tidy_structured] at deep ⊢
    have distinct := document.distinct
    have elements : (q.elements.map fun r => (ofQuestion r).tidy).mapM (questionWithin n) =
        .ok (q.elements.map Question.tidy) := by
      refine Outcome.mapM_map_eq_map fun r held => ih (inner r held) (kept r held) ?_
      have given := get_elements_tidy distinct
      rw [if_neg (by simpa using List.ne_nil_of_mem held)] at given
      exact Nat.le_of_lt_succ ((levels_lt_of_get given (List.mem_map_of_mem held)).trans_le deep)
    have items : Fields.get (questionFields q).tidy "items" = .undefined := by
      rw [Fields.get_tidy distinct, get_items_questionFields, Value.tidy]
    have held := childrenOf_of_fields items (get_elements_tidy distinct)
    rw [Question.tidy_eq]
    refine questionWithin_of_fields named ?_ ?_ ?_ ?_ held elements
    · rw [Fields.get_tidy distinct, get_name_questionFields, Value.tidy]
    · rw [Fields.find?_tidy distinct, find?_kind_questionFields, Option.map_some]
    · rw [Fields.get_tidy distinct, Value.truthy_tidy, truthy_isRequired_questionFields]
    · intro property
      rw [Fields.get_tidy distinct, get_property_questionFields]

theorem question_tidy {q : Question} (definite : q.Definite) (storable : q.Storable) :
    question (ofQuestion q).tidy = .ok q.tidy := questionWithin_tidy definite storable (Nat.le_succ _)

theorem page_tidy {p : Page} (definite : p.Definite) (storable : p.Storable) : page (ofPage p).tidy = .ok p.tidy := by
  have distinct : Table.Distinct (pageFields p) := (storable_ofPage storable).distinct
  have elements : (p.elements.map fun q => (ofQuestion q).tidy).mapM question = .ok (p.elements.map Question.tidy) :=
    Outcome.mapM_map_eq_map fun q held => question_tidy (definite.elements q held) (storable.elements q held)
  have listed : Fields.get (pageFields p).tidy "elements" =
      .sequence (p.elements.map fun q => (ofQuestion q).tidy) := by
    rw [Fields.get_tidy distinct, get_elements_pageFields, Value.tidy_sequence, List.map_map]
    rfl
  have shape : (ofPage p).tidy = .structured (pageFields p).tidy := Value.tidy_structured _
  rw [shape]
  refine page_of_fields definite.named ?_ ?_ ?_ (itemsOf_of_sequence listed) elements
  · intro property unknown
    have none : (p.properties property).tidy = .undefined := by
      rw [definite.properties property unknown, Value.tidy]
    exact none
  · rw [Fields.get_tidy distinct, get_name_pageFields, Value.tidy]
    rfl
  · intro property known
    rw [Fields.get_tidy distinct, get_property_pageFields p known]
    rfl

theorem trigger_tidy {t : Trigger} (conditional : t.condition ≠ "") (storable : t.Storable) :
    trigger (ofTrigger t).tidy = .ok t.tidy := by
  have distinct : Table.Distinct (triggerFields t) := (storable_ofTrigger storable).distinct
  obtain ⟨kind, condition, setToName, setValue, fromName, gotoName, runExpression⟩ := get_triggerFields t
  have get (name : String) : Fields.get (triggerFields t).tidy name = (Fields.get (triggerFields t) name).tidy :=
    Fields.get_tidy distinct name
  have shape : (ofTrigger t).tidy = .structured (triggerFields t).tidy := Value.tidy_structured _
  rw [shape]
  refine trigger_of_fields conditional (fun key other => ?_) ?_ ?_ ?_
  · rw [get, get_triggerFields_of_other t key other, Value.tidy]
  · rw [get, kind, Value.tidy]
    rfl
  · rw [get, condition, Value.tidy]
    rfl
  · rw [get, get, get, get, get, setToName, setValue, fromName, gotoName, runExpression]
    exact ⟨rfl, rfl, rfl, rfl, rfl⟩

end Document

namespace Survey

variable {s : Survey}

/-- The document of a survey with its fields in order is read as the survey with its fields in order. -/
theorem ofDocument_tidy (definite : s.Definite) (storable : s.Storable) :
    ofDocument s.toDocument.tidy = .ok s.tidy := by
  have distinct : Table.Distinct s.writtenFields := storable.toDocument.distinct
  obtain ⟨title, description, completedHtml, listed, rules, single, metadata⟩ := get_writtenFields s
  have get (name : String) : Fields.get s.writtenFields.tidy name = (Fields.get s.writtenFields name).tidy :=
    Fields.get_tidy distinct name
  have pages : (s.pages.map fun p => (Document.ofPage p).tidy).mapM Document.page = .ok s.tidy.pages :=
    Outcome.mapM_map_eq_map fun p known => Document.page_tidy (definite.pages p known) (storable.pages p known)
  have triggers : (s.triggers.map fun t => (Document.ofTrigger t).tidy).mapM Document.trigger = .ok s.tidy.triggers :=
    Outcome.mapM_map_eq_map fun t known =>
      Document.trigger_tidy (definite.triggers t known) (storable.triggers t known)
  have shape : s.toDocument.tidy = .structured s.writtenFields.tidy := Value.tidy_structured _
  rw [shape]
  refine ofDocument_of_fields ⟨?_, ?_, ?_⟩ ?metadata ?listed ?_ ?rules pages triggers
    (s.questionNames_tidy ▸ definite.distinct)
  case metadata =>
    have same : s.metadata.tidy.isEmpty = s.metadata.isEmpty := by
      rw [Fields.tidy, List.isEmpty_map, (Table.inOrder_perm s.metadata).isEmpty_eq]
    have here : s.tidy.metadata = s.metadata.tidy := rfl
    rw [get, metadata, here, same]
    split
    · rw [Value.tidy]
    · rw [Value.tidy_structured]
  case listed =>
    rw [get, listed, Value.tidy_sequence, List.map_map]
    rfl
  case rules =>
    rw [get, rules, Value.tidy_sequence, List.map_map]
    rfl
  · rw [get, title]
    rfl
  · rw [get, description]
    rfl
  · rw [get, completedHtml]
    rfl
  · rw [get, single, Value.tidy]

end Survey

/-! ## The same but for the order of fields -/

/-- Two questions say the same, and so do the questions that they hold, one by one. -/
inductive Question.Same : Question → Question → Prop
  | intro {q r : Question} : q.name = r.name → q.kind.same r.kind = true → q.isRequired = r.isRequired →
      (∀ property, (q.properties property).same (r.properties property) = true) →
      List.Forall₂ Question.Same q.elements r.elements → Same q r

structure Page.Same (p p' : Page) : Prop where
  name : p.name = p'.name
  properties : ∀ property, (p.properties property).same (p'.properties property) = true
  elements : List.Forall₂ Question.Same p.elements p'.elements

structure Trigger.Same (t t' : Trigger) : Prop where
  kind : t.kind = t'.kind
  condition : t.condition = t'.condition
  setToName : t.setToName.same t'.setToName = true
  setValue : t.setValue.same t'.setValue = true
  fromName : t.fromName.same t'.fromName = true
  gotoName : t.gotoName.same t'.gotoName = true
  runExpression : t.runExpression.same t'.runExpression = true

/-- Two surveys say the same.  The fields of what they keep may come in another order. -/
structure Survey.Same (s s' : Survey) : Prop where
  title : s.title.same s'.title = true
  description : s.description.same s'.description = true
  completedHtml : s.completedHtml.same s'.completedHtml = true
  metadata : (Value.structured s.metadata).same (.structured s'.metadata) = true
  pages : List.Forall₂ Page.Same s.pages s'.pages
  triggers : List.Forall₂ Trigger.Same s.triggers s'.triggers

theorem forall₂_map {α : Type} {R : α → α → Prop} {f : α → α} {xs : List α} (each : ∀ x ∈ xs, R x (f x)) :
    List.Forall₂ R xs (xs.map f) := by
  induction xs with
  | nil => exact .nil
  | cons x rest ih =>
    obtain ⟨first, later⟩ := List.forall_mem_cons.mp each
    exact .cons first (ih later)

mutual

theorem Question.same_tidy : ∀ {q : Question}, q.Storable → q.Same q.tidy
  | ⟨name, kind, isRequired, properties, elements⟩, storable => by
    obtain ⟨⟨kept, given⟩, inner⟩ := storable_iff.mp storable
    rw [tidy]
    exact .intro rfl (Value.same_tidy kept) rfl (fun property => Value.same_tidy (given property)) (sameAll_tidy inner)

theorem Question.sameAll_tidy : ∀ {questions : List Question}, (∀ q ∈ questions, q.Storable) →
    List.Forall₂ Question.Same questions (tidyAll questions)
  | [], _ => .nil
  | q :: rest, storable => by
    obtain ⟨first, later⟩ := List.forall_mem_cons.mp storable
    rw [tidyAll]
    exact .cons (same_tidy first) (sameAll_tidy later)

end

theorem Page.same_tidy {p : Page} (storable : p.Storable) : p.Same p.tidy :=
  ⟨rfl, fun property => Value.same_tidy (storable.properties property),
    forall₂_map fun q held => Question.same_tidy (storable.elements q held)⟩

theorem Trigger.same_tidy {t : Trigger} (storable : t.Storable) : t.Same t.tidy :=
  ⟨rfl, rfl, Value.same_tidy storable.setToName, Value.same_tidy storable.setValue, Value.same_tidy storable.fromName,
    Value.same_tidy storable.gotoName, Value.same_tidy storable.runExpression⟩

theorem Survey.same_tidy {s : Survey} (storable : s.Storable) : s.Same s.tidy :=
  ⟨Value.same_tidy storable.title, Value.same_tidy storable.description, Value.same_tidy storable.completedHtml,
    Value.tidy_structured s.metadata ▸ Value.same_tidy storable.metadata,
    forall₂_map fun p known => Page.same_tidy (storable.pages p known),
    forall₂_map fun t known => Trigger.same_tidy (storable.triggers t known)⟩

/-! ## What comes back -/

theorem Answers.ofJson_toJson {answers : Fields} (storable : (Value.structured answers).Storable) :
    ∃ text, toJson answers = .ok text ∧ ofJson text = .ok answers.tidy := by
  obtain ⟨text, printed, read⟩ := Json.read_print storable
  refine ⟨text, printed, ?_⟩
  have written : text ≠ "" := by
    rintro rfl
    have none : Json.read "" = .error .malformed := rfl
    cases none.symm.trans read
  rw [ofJson, if_neg (by simpa using written), read, Value.tidy_structured]

theorem Survey.ofJson_toJson {s : Survey} (definite : s.Definite) (storable : s.Storable) :
    ∃ text, s.toJson = .ok text ∧ ofJson text = .ok s.tidy := by
  obtain ⟨text, printed, read⟩ := Json.read_print storable.toDocument
  refine ⟨text, printed, ?_⟩
  rw [ofJson, read]
  exact ofDocument_tidy definite storable

/-- What is kept as JSON text comes back.  Answers that JSON has words for have a text, and the same answers are read
from it.  A survey that was loaded from a document that JSON has words for, with an object for metadata if there are
any, has a text, and the same survey is loaded from it. -/
theorem json_gives_back :
    (∀ answers : Fields, (Value.structured answers).Storable → ∃ text again, Answers.toJson answers = .ok text ∧
      Answers.ofJson text = .ok again ∧ (Value.structured answers).same (.structured again) = true) ∧
    ∀ (fields : Fields) (s : Survey), (Value.structured fields).Storable →
      ((Fields.get fields "metadata").isDefined = true →
        ∃ metadata, Fields.get fields "metadata" = .structured metadata) →
      Survey.ofDocument (.structured fields) = .ok s → ∃ text again, s.toJson = .ok text ∧
        Survey.ofJson text = .ok again ∧ s.Same again := by
  refine ⟨fun answers storable => ?_, fun fields s storable object loaded => ?_⟩
  · obtain ⟨text, printed, read⟩ := Answers.ofJson_toJson storable
    exact ⟨text, answers.tidy, printed, read, Value.tidy_structured answers ▸ Value.same_tidy storable⟩
  · have kept := Survey.storable_of_ofDocument storable object loaded
    obtain ⟨text, printed, read⟩ := Survey.ofJson_toJson (Survey.definite_of_ofDocument loaded) kept
    exact ⟨text, s.tidy, printed, read, Survey.same_tidy kept⟩

/-! ## Some answers and a definition -/

namespace Kept

open Document

def marks : Fields := field "z" (.boolean true) ++ field "a" .undefined

theorem marks_storable : (Value.structured marks).Storable :=
  ((Written.field "z" (.boolean true)).append (.field "a" .undefined)).storable (by decide)

/-- A quote, a line break, and a character of two units. -/
def noted : String := "\"\n😀"

def answers : Fields :=
  field "note" (.text noted) ++ field "age" (.sequence [.int (-30)]) ++ field "marks" (.structured marks)

theorem answers_storable : (Value.structured answers).Storable := by
  have ages : (Value.sequence [.int (-30)]).Storable := .sequence fun v mem => by
    rw [List.mem_singleton.mp mem]
    exact .integer (by decide +kernel)
  exact (((Written.field "note" (.text noted)).append (.field "age" ages)).append
    (.field "marks" marks_storable)).storable (by decide)

def question : Fields := field "name" (.text "q") ++ field "defaultValue" (.structured answers)

/-- A definition without pages, of one question. -/
def document : Fields := field "metadata" (.structured marks) ++ field "elements" (.sequence [.structured question])

theorem document_storable : (Value.structured document).Storable := by
  have asked : (Value.structured question).Storable :=
    ((Written.field "name" (.text "q")).append (.field "defaultValue" answers_storable)).storable (by decide)
  have elements : (Value.sequence [.structured question]).Storable := .sequence fun v mem => by
    rw [List.mem_singleton.mp mem]
    exact asked
  exact ((Written.field "metadata" marks_storable).append (.field "elements" elements)).storable (by decide)

end Kept

theorem kept_given_back :
    (∃ text again, Answers.toJson Kept.answers = .ok text ∧ Answers.ofJson text = .ok again ∧
      (Value.structured Kept.answers).same (.structured again) = true) ∧
    ∃ s, Survey.ofDocument (.structured Kept.document) = .ok s ∧ s.questionNames = ["q"] ∧ ∃ text again,
      s.toJson = .ok text ∧ Survey.ofJson text = .ok again ∧ s.Same again := by
  refine ⟨json_gives_back.1 Kept.answers Kept.answers_storable, ?_⟩
  have names : (Survey.ofDocument (.structured Kept.document)).toOption.map Survey.questionNames = some ["q"] := by
    decide +kernel
  cases loaded : Survey.ofDocument (.structured Kept.document) with
  | error e =>
    rw [loaded] at names
    cases names
  | ok s =>
    rw [loaded] at names
    exact ⟨s, rfl, Option.some.inj names,
      json_gives_back.2 Kept.document s Kept.document_storable (fun _ => ⟨Kept.marks, rfl⟩) loaded⟩

end Questionnaire
