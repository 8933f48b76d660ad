import Questionnaire.Proofs.Json.Tidy
import Questionnaire.Proofs.Survey.RoundTrip

/-!
# What a survey keeps of its document

What a survey keeps of a document are parts of it, so JSON has words for these if it has for the document.  They stand
in the document of the survey again, each under a name of its own, and so JSON has words for that one too.

Loading goes along the nesting of the document and writing along the questions.
-/
namespace Questionnaire

/-! ## What is kept of a document -/

/-- A question keeps what JSON has words for, and so does all that it holds. -/
def Question.Storable (q : Question) : Prop :=
  ∀ r ∈ Question.walk q, r.kind.Storable ∧ ∀ property, (r.properties property).Storable

theorem Question.storable_iff {q : Question} : q.Storable ↔
    (q.kind.Storable ∧ ∀ property, (q.properties property).Storable) ∧ ∀ r ∈ q.elements, r.Storable := forall_mem_walk

structure Page.Storable (p : Page) : Prop where
  properties : ∀ property, (p.properties property).Storable
  elements : ∀ q ∈ p.elements, q.Storable

structure Trigger.Storable (t : Trigger) : Prop where
  setToName : t.setToName.Storable
  setValue : t.setValue.Storable
  fromName : t.fromName.Storable
  gotoName : t.gotoName.Storable
  runExpression : t.runExpression.Storable

/-- A survey keeps what JSON has words for. -/
structure Survey.Storable (s : Survey) : Prop where
  title : s.title.Storable
  description : s.description.Storable
  completedHtml : s.completedHtml.Storable
  metadata : (Value.structured s.metadata).Storable
  pages : ∀ p ∈ s.pages, p.Storable
  triggers : ∀ t ∈ s.triggers, t.Storable

theorem Value.isDefined_of_truthy {v : Value} (h : v.truthy = true) : v.isDefined = true := by
  cases v with
  | undefined => cases h
  | _ => rfl

namespace Value.Storable

theorem of_mem {items : List Value} (h : (Value.sequence items).Storable) : ∀ v ∈ items, v.Storable := by
  cases h with
  | sequence each => exact each

theorem sequence_map {α : Type} {f : α → Value} {xs : List α} (each : ∀ x ∈ xs, (f x).Storable) :
    (Value.sequence (xs.map f)).Storable := by
  refine .sequence fun v mem => ?_
  obtain ⟨x, known, rfl⟩ := List.mem_map.mp mem
  exact each x known

theorem distinct {fields : Fields} (h : (Value.structured fields).Storable) : Table.Distinct fields := by
  cases h with
  | structured _ distinct _ => exact distinct

theorem fields {fields : Fields} (h : (Value.structured fields).Storable) : ∀ c ∈ fields, c.2.Storable := by
  cases h with
  | structured _ _ each => exact each

end Value.Storable

namespace Document

/-- The fields of a mapping hold what JSON has words for.  Its keys may be anything, since a mapping can also be given
in pairs. -/
def Held (fields : Fields) : Prop := ∀ c ∈ fields, c.2.Storable

theorem eq_structured_of_require {part : String} {v : Value} {fields : Fields} (h : require part v = .ok fields) :
    v = .structured fields := by
  cases v with
  | structured given =>
    cases h
    rfl
  | _ => cases h

variable {fields : Fields}

theorem Held.find? (held : Held fields) {key : Key} {v : Value} (found : Table.find? fields key = some v) :
    v.Storable := by
  obtain ⟨other, mem⟩ := Table.exists_mem_of_find?_eq_some found
  exact held _ mem

theorem Held.get (held : Held fields) (name : String) : (Fields.get fields name).Storable := by
  rw [Fields.get, Fields.lookUp]
  cases found : Table.find? fields (.text name) with
  | none => exact .undefined
  | some v => exact held.find? found

theorem Held.set (held : Held fields) {key : Key} {v : Value} (storable : v.Storable) :
    Held (Table.set key v fields) := by
  intro c mem
  rcases Table.mem_of_mem_set mem with same | old
  · rw [same]
    exact storable
  · exact held c old

theorem Held.firstOf (held : Held fields) (key other : String) : (firstOf fields key other).Storable := by
  rw [Document.firstOf]
  split
  · exact held.get key
  · exact held.get other

theorem Held.propertiesOf (held : Held fields) (known : List Property) (property : Property) :
    (propertiesOf known fields property).Storable := by
  rw [Document.propertiesOf]
  split
  · exact held.get _
  · exact .undefined

theorem storable_of_items {v : Value} (storable : v.Storable) {vs : List Value} (h : items v = .ok vs) :
    ∀ w ∈ vs, w.Storable := by
  unfold items at h
  split at h
  · cases h
    exact storable.of_mem
  · cases h
    rintro w mem
    obtain ⟨c, -, rfl⟩ := List.mem_map.mp mem
    exact .text _
  · cases h
    intro w mem
    obtain ⟨c, known, rfl⟩ := List.mem_map.mp mem
    cases storable with
    | structured texts _ _ =>
      obtain ⟨name, same⟩ := texts c known
      rw [same]
      exact .text name
  · cases h

theorem Held.itemsOf (held : Held fields) {key : String} {vs : List Value} (h : itemsOf fields key = .ok vs) :
    ∀ w ∈ vs, w.Storable := by
  unfold Document.itemsOf at h
  simp only at h
  split at h
  · exact storable_of_items (held.get key) h
  · cases h
    exact List.forall_mem_nil _

theorem storable_of_pair {v : Value} (storable : v.Storable) {c : Key × Value} (h : pair v = .ok c) : c.2.Storable := by
  obtain ⟨vs, read, h⟩ := Outcome.bind_eq_ok.mp h
  have each := storable_of_items storable read
  split at h
  · rename_i key value
    split at h
    · cases h
      exact each value (by simp)
    · cases h
  · cases h

theorem Held.addPairs {vs : List Value} (each : ∀ v ∈ vs, v.Storable) (held : Held fields) {all : Fields}
    (h : addPairs fields vs = .ok all) : Held all := by
  induction vs generalizing fields with
  | nil =>
    cases h
    exact held
  | cons v rest ih =>
    obtain ⟨first, later⟩ := List.forall_mem_cons.mp each
    rw [Document.addPairs] at h
    obtain ⟨c, read, h⟩ := Outcome.bind_eq_ok.mp h
    exact ih later (held.set (storable_of_pair first read)) h

theorem held_of_mapping {v : Value} (storable : v.Storable) (h : mapping v = .ok fields) : Held fields := by
  unfold mapping at h
  split at h
  · cases h
    exact storable.fields
  · obtain ⟨vs, read, h⟩ := Outcome.bind_eq_ok.mp h
    exact Held.addPairs (storable_of_items storable read) (List.forall_mem_nil _) h

/-- The documents of the questions that a question holds are mappings of what JSON has words for. -/
theorem Held.childrenOf (held : Held fields) {vs : List Value} (h : childrenOf fields = .ok vs) :
    ∀ v ∈ vs, ∀ inner, v = .structured inner → Held inner := by
  have plain (h : Document.itemsOf fields "elements" = .ok vs) :
      ∀ v ∈ vs, ∀ inner, v = .structured inner → Held inner := by
    rintro v mem inner rfl
    exact (held.itemsOf h _ mem).fields
  unfold Document.childrenOf at h
  extract_lets several at h
  split at h
  · obtain ⟨texts, read, h⟩ := Outcome.bind_eq_ok.mp h
    intro v mem inner same
    obtain ⟨item, known, made⟩ := Outcome.exists_of_mem (Outcome.forall₂_of_mapM h) mem
    obtain ⟨given, mapped, made⟩ := Outcome.bind_eq_ok.mp made
    cases made
    cases same
    exact (held_of_mapping (held.itemsOf read item known) mapped).set (.text "text")
  · exact plain h

/-- A question that is read keeps what its document holds. -/
theorem storable_of_questionWithin {levels : Nat} {v : Value} (held : ∀ fields, v = .structured fields → Held fields)
    {q : Question} (h : questionWithin levels v = .ok q) : q.Storable := by
  induction levels generalizing v q with
  | zero => cases h
  | succ levels ih =>
    rw [questionWithin] at h
    obtain ⟨fields, found, h⟩ := Outcome.bind_eq_ok.mp h
    obtain ⟨name, -, h⟩ := Outcome.bind_eq_ok.mp h
    obtain ⟨children, inner, h⟩ := Outcome.bind_eq_ok.mp h
    obtain ⟨elements, each, h⟩ := Outcome.bind_eq_ok.mp h
    cases h
    have here := held fields (eq_structured_of_require found)
    refine Question.storable_iff.mpr ⟨⟨?_, here.propertiesOf _⟩, fun r mem => ?_⟩
    · cases kind : Table.find? fields (.text "type") with
      | none => exact .text "text"
      | some v => exact here.find? kind
    · obtain ⟨child, known, read⟩ := Outcome.exists_of_mem (Outcome.forall₂_of_mapM each) mem
      exact ih (here.childrenOf (orFault_eq_ok.mp inner) child known) read

theorem storable_of_mapM_question {vs : List Value} (each : ∀ v ∈ vs, v.Storable) {questions : List Question}
    (h : vs.mapM question = .ok questions) : ∀ q ∈ questions, q.Storable := by
  intro q mem
  obtain ⟨v, known, read⟩ := Outcome.exists_of_mem (Outcome.forall₂_of_mapM h) mem
  refine storable_of_questionWithin ?_ read
  rintro fields rfl
  exact (each _ known).fields

theorem storable_of_page {v : Value} (storable : v.Storable) {p : Page} (h : page v = .ok p) : p.Storable := by
  rw [page] at h
  obtain ⟨fields, found, h⟩ := Outcome.bind_eq_ok.mp h
  obtain ⟨name, -, h⟩ := Outcome.bind_eq_ok.mp h
  obtain ⟨children, inner, h⟩ := Outcome.bind_eq_ok.mp h
  obtain ⟨elements, each, h⟩ := Outcome.bind_eq_ok.mp h
  cases h
  have held : Held fields := (eq_structured_of_require found ▸ storable).fields
  exact ⟨held.propertiesOf _, storable_of_mapM_question (held.itemsOf (orFault_eq_ok.mp inner)) each⟩

theorem Held.pages (held : Held fields) {read : List Page} (h : pages fields = .ok read) : ∀ p ∈ read, p.Storable := by
  intro p mem
  rw [Document.pages] at h
  split at h
  · obtain ⟨vs, listed, h⟩ := Outcome.bind_eq_ok.mp h
    obtain ⟨v, known, given⟩ := Outcome.exists_of_mem (Outcome.forall₂_of_mapM h) mem
    exact storable_of_page (held.itemsOf (orFault_eq_ok.mp listed) v known) given
  · split at h
    · obtain ⟨vs, listed, h⟩ := Outcome.bind_eq_ok.mp h
      obtain ⟨elements, each, h⟩ := Outcome.bind_eq_ok.mp h
      cases h
      rw [List.mem_singleton.mp mem]
      exact ⟨fun _ => .undefined, storable_of_mapM_question (held.itemsOf (orFault_eq_ok.mp listed)) each⟩
    · cases h
      cases mem

theorem storable_of_trigger {v : Value} (storable : v.Storable) {t : Trigger} (h : trigger v = .ok t) : t.Storable := by
  rw [trigger] at h
  obtain ⟨fields, found, h⟩ := Outcome.bind_eq_ok.mp h
  have held : Held fields := (eq_structured_of_require found ▸ storable).fields
  obtain ⟨kindName, -, h⟩ := Outcome.bind_eq_ok.mp h
  split at h
  · obtain ⟨shown, -, h⟩ := Outcome.bind_eq_ok.mp h
    cases h
  · extract_lets condition rest at h
    split at h
    · obtain ⟨shown, -, h⟩ := Outcome.bind_eq_ok.mp h
      cases h
    · obtain ⟨text, -, h⟩ := Outcome.bind_eq_ok.mp h
      cases h
      exact ⟨held.firstOf _ _, held.firstOf _ _, held.firstOf _ _, held.firstOf _ _, held.get _⟩

end Document

/-- A survey keeps what its document holds, and its metadata if they are an object. -/
theorem Survey.storable_of_ofDocument {fields : Fields} {s : Survey} (storable : (Value.structured fields).Storable)
    (object : (Fields.get fields "metadata").isDefined = true →
      ∃ metadata, Fields.get fields "metadata" = .structured metadata)
    (loaded : ofDocument (.structured fields) = .ok s) : s.Storable := by
  have held : Document.Held fields := storable.fields
  have reads := ofDocument_eq_ok_iff.mp loaded
  refine ⟨reads.title ▸ held.get _, reads.description ▸ held.get _, reads.completedHtml ▸ held.get _, ?metadata,
    held.pages reads.pages, ?triggers⟩
  case metadata =>
    have given := reads.metadata
    split at given
    · rename_i holds
      obtain ⟨metadata, same⟩ := object (Value.isDefined_of_truthy holds)
      rw [same] at given
      rw [← Except.ok.inj given, ← same]
      exact held.get _
    · rw [← Except.ok.inj given]
      exact .structured nofun .nil nofun
  case triggers =>
    obtain ⟨vs, listed, each⟩ := reads.triggers
    intro t mem
    obtain ⟨v, known, read⟩ := Outcome.exists_of_mem (Outcome.forall₂_of_mapM each) mem
    exact Document.storable_of_trigger (held.itemsOf (Document.orFault_eq_ok.mp listed) v known) read

/-! ## Documents of what is kept -/

namespace Document

/-- Fields that are written in the order of some names, each under one of them, and hold what JSON has words for. -/
structure Written (fields : Fields) (names : List String) : Prop where
  keys : (Table.keys fields).Sublist (names.map Key.text)
  held : Held fields

namespace Written

variable {fields others : Fields} {names later : List String} {v : Value}

theorem field (name : String) (storable : v.Storable) : Written (field name v) [name] :=
  ⟨.refl _, fun c mem => by rw [List.mem_singleton.mp mem]; exact storable⟩

theorem none : Written [] names := ⟨List.nil_sublist _, List.forall_mem_nil _⟩

theorem optional (name : String) (storable : v.Storable) : Written (optional name v) [name] := by
  rw [Document.optional]
  split
  · exact .field name storable
  · exact .none

theorem append (first : Written fields names) (second : Written others later) :
    Written (fields ++ others) (names ++ later) := by
  refine ⟨?_, List.forall_mem_append.mpr ⟨first.held, second.held⟩⟩
  rw [Table.keys, List.map_append, List.map_append]
  exact first.keys.append second.keys

theorem propertyFields {properties : Properties} (storable : ∀ property, (properties property).Storable)
    (known : List Property) : Written (propertyFields known properties) (known.map Property.key) := by
  induction known with
  | nil => exact .none
  | cons property rest ih => exact (Written.optional property.key (storable property)).append ih

/-- Under different names they make an object that JSON has words for. -/
theorem storable (written : Written fields names) (different : names.Nodup) : (Value.structured fields).Storable := by
  have apart : (names.map Key.text).Pairwise fun a b => (a == b) = false :=
    List.pairwise_map.mpr (different.imp fun differs => by simpa using differs)
  refine .structured (fun c mem => ?_) (List.pairwise_map.mp (apart.sublist written.keys)) written.held
  obtain ⟨name, -, same⟩ := List.mem_map.mp (written.keys.subset (List.mem_map_of_mem mem))
  exact ⟨name, same.symm⟩

end Written

theorem storable_questionFields {q : Question} (storable : q.Storable)
    (inner : ∀ r ∈ q.elements, (ofQuestion r).Storable) : (Value.structured (questionFields q)).Storable := by
  obtain ⟨⟨kind, properties⟩, -⟩ := Question.storable_iff.mp storable
  have required : Written (if q.isRequired then field "isRequired" (.boolean true) else []) ["isRequired"] := by
    split
    · exact .field _ (.boolean true)
    · exact .none
  have elements : Written (if q.elements.isEmpty then [] else
      field "elements" (.sequence (ofQuestions q.elements))) ["elements"] := by
    split
    · exact .none
    · rw [ofQuestions_eq_map]
      exact .field _ (.sequence_map inner)
  have all := ((((Written.field "name" (.text q.name)).append (.field "type" kind)).append required).append
    (.propertyFields properties Property.ofQuestions)).append elements
  exact all.storable (by decide)

mutual

theorem storable_ofQuestion : ∀ {q : Question}, q.Storable → (ofQuestion q).Storable
  | ⟨name, kind, isRequired, properties, elements⟩, storable => by
    rw [ofQuestion_eq]
    exact storable_questionFields storable fun r held =>
      storable_ofQuestions (fun r held => (Question.storable_iff.mp storable).2 r held) r held

theorem storable_ofQuestions : ∀ {questions : List Question}, (∀ q ∈ questions, q.Storable) →
    ∀ q ∈ questions, (ofQuestion q).Storable
  | [], _, _, mem => nomatch mem
  | q :: rest, storable, r, mem => by
    rcases List.mem_cons.mp mem with same | later
    · rw [same]
      exact storable_ofQuestion (storable q List.mem_cons_self)
    · exact storable_ofQuestions (fun r mem => storable r (List.mem_cons_of_mem _ mem)) r later

end

theorem storable_ofPage {p : Page} (storable : p.Storable) : (ofPage p).Storable := by
  have elements : (Value.sequence (ofQuestions p.elements)).Storable := by
    rw [ofQuestions_eq_map]
    exact .sequence_map fun q held => storable_ofQuestion (storable.elements q held)
  have all := ((Written.field "name" (.text p.name)).append
    (.propertyFields storable.properties Property.ofPages)).append (.field "elements" elements)
  exact all.storable (by decide)

theorem storable_ofTrigger {t : Trigger} (storable : t.Storable) : (ofTrigger t).Storable := by
  have all := ((((((Written.field "type" (.text t.kind.name)).append (.field "expression" (.text t.condition))).append
    (.optional "setToName" storable.setToName)).append (.optional "setValue" storable.setValue)).append
    (.optional "fromName" storable.fromName)).append (.optional "gotoName" storable.gotoName)).append
    (.optional "runExpression" storable.runExpression)
  exact all.storable (by decide)

end Document

/-- The document of a survey that keeps what JSON has words for. -/
theorem Survey.Storable.toDocument {s : Survey} (storable : s.Storable) : s.toDocument.Storable := by
  have pages : (Value.sequence (s.pages.map Document.ofPage)).Storable :=
    .sequence_map fun p known => Document.storable_ofPage (storable.pages p known)
  have triggers : (Value.sequence (s.triggers.map Document.ofTrigger)).Storable :=
    .sequence_map fun t known => Document.storable_ofTrigger (storable.triggers t known)
  have metadata : Document.Written (if s.metadata.isEmpty then [] else
      Document.field "metadata" (.structured s.metadata)) ["metadata"] := by
    split
    · exact .none
    · exact .field _ storable.metadata
  have all := (((((Document.Written.field "pages" pages).append (.field "triggers" triggers)).append
    (.optional "title" storable.title)).append (.optional "description" storable.description)).append
    (.optional "completedHtml" storable.completedHtml)).append metadata
  exact all.storable (by decide)

end Questionnaire
