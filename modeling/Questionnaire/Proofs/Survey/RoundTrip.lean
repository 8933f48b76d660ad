import Questionnaire.Proofs.Lookup
import Questionnaire.Proofs.Survey.Containment

/-!
# Writing a survey and reading it again

Reading settles everything that a document may leave open: names are texts, the items of a question for several texts
are questions, and a trigger has each of its fields under one name.  What it settles is called definite here.  The
document of a definite survey is read as that survey, so that a survey that was read once is read from its document
without loss.

Questions are nested, so both halves go along the nesting: reading along the levels it counts down, and reading what
was written along the question.
-/
namespace Questionnaire

/-! ## Texts of values are not empty -/

theorem Double.text_ne_empty (d : Double) : d.text ≠ "" := by
  have laid (digits : List Char) (e : Int) : layout digits e ≠ "" := by
    unfold layout exponentText
    split <;> split <;> simp [String.ext_iff]
  cases d with
  | nan => decide
  | infinity negative => cases negative <;> decide
  | finite negative units =>
    simp only [text]
    split <;> split <;> simp [laid]

theorem exactText_ne_empty {n : Int} {s : String} (h : exactText n = .ok s) : s ≠ "" := by
  have digits (n : Nat) : decimalDigits n ≠ "" := by
    rw [decimalDigits, Nat.repr_eq_ofList_toDigits]
    simp [String.ext_iff]
  unfold exactText integerText? at h
  split at h
  · cases h
    rename_i within
    split at within
    · cases within
      split <;> simp [digits]
    · cases within
  · cases h

theorem Key.shown_ne_empty {key : Key} {s : String} (h : key.shown = .ok s) : s ≠ "" := by
  cases key with
  | undefined =>
    cases h
    decide
  | boolean b =>
    cases h
    cases b <;> decide
  | number n =>
    cases n with
    | int n =>
      rw [shown] at h
      exact exactText_ne_empty h
    | float d =>
      cases h
      exact d.text_ne_empty
  | text s =>
    cases h
    simp [Text.shown, String.ext_iff]

theorem Value.shown_ne_empty {v : Value} {s : String} (h : v.shown = .ok s) : s ≠ "" := by
  cases v with
  | undefined | boolean | number | text =>
    rw [shown] at h
    exact Key.shown_ne_empty h
  | sequence | structured =>
    rw [shown] at h
    obtain ⟨parts, -, h⟩ := Outcome.bind_eq_ok.mp h
    cases h
    simp [String.ext_iff]

/-- What can be a name has a text. -/
theorem Value.nameText_ne_empty {v : Value} {s : String} (holds : v.truthy = true) (h : v.nameText = .ok s) :
    s ≠ "" := by
  cases v with
  | text s =>
    cases h
    simpa [truthy, isEmpty] using holds
  | _ => exact shown_ne_empty h

/-! ## Looking up what was written -/

theorem Table.find?_append {κ α : Type} [BEq κ] (first second : Table κ α) (key : κ) :
    find? (first ++ second) key = (find? first key).or (find? second key) := by
  induction first with
  | nil => rfl
  | cons c rest ih =>
    rw [List.cons_append, find?_cons, find?_cons, ih]
    split <;> rfl

theorem Property.key_injective {p q : Property} (h : p.key = q.key) : p = q := by
  cases p <;> cases q <;> first | rfl | exact absurd h (by decide)

namespace Document

variable {name key : String} {v : Value}

theorem find?_field : Table.find? (field name v) (.text key) = if name = key then some v else none := by
  simp [field, Table.find?_cons]

theorem find?_optional :
    Table.find? (optional name v) (.text key) = if name = key ∧ v.isDefined = true then some v else none := by
  rw [optional]
  cases v.isDefined <;> simp [find?_field]

/-- A value that is left out when it is undefined is found again. -/
theorem getD_of_isDefined (v : Value) : (if v.isDefined = true then some v else none).getD .undefined = v := by
  cases v <;> rfl

theorem find?_propertyFields_of_not_mem {known : List Property} {properties : Properties}
    (other : ∀ p ∈ known, p.key ≠ key) : Table.find? (propertyFields known properties) (.text key) = none := by
  induction known with
  | nil => rfl
  | cons p rest ih =>
    obtain ⟨differs, others⟩ := List.forall_mem_cons.mp other
    rw [propertyFields, List.flatMap_cons, Table.find?_append, find?_optional, if_neg fun h => differs h.1,
      Option.none_or]
    exact ih others

/-- Every property that is known is found as it was given. -/
theorem find?_propertyFields {known : List Property} (properties : Properties) (distinct : known.Nodup) {p : Property}
    (mem : p ∈ known) :
    (Table.find? (propertyFields known properties) (.text p.key)).getD .undefined = properties p := by
  induction known with
  | nil => cases mem
  | cons q rest ih =>
    obtain ⟨fresh, distinct⟩ := List.nodup_cons.mp distinct
    rw [propertyFields, List.flatMap_cons, Table.find?_append, find?_optional]
    rcases List.mem_cons.mp mem with rfl | later
    · have none : Table.find? (propertyFields rest properties) (.text p.key) = none :=
        find?_propertyFields_of_not_mem fun q hq same => fresh (Property.key_injective same ▸ hq)
      rw [propertyFields] at none
      rw [none, Option.or_none]
      simpa using getD_of_isDefined (properties p)
    · rw [if_neg, Option.none_or]
      · exact ih distinct later
      · intro h
        exact fresh (Property.key_injective h.1 ▸ later)

theorem propertiesOf_eq {known : List Property} {properties : Properties} {fields : Fields}
    (each : ∀ p ∈ known, Fields.get fields p.key = properties p) (others : ∀ p ∉ known, properties p = .undefined) :
    propertiesOf known fields = properties := by
  funext p
  rw [propertiesOf]
  by_cases mem : p ∈ known
  · rw [if_pos (List.contains_iff_mem.mpr mem), each p mem]
  · rw [if_neg fun h => mem (List.contains_iff_mem.mp h), others p mem]

theorem nameOf_eq {part : String} {fields : Fields} (given : Fields.get fields "name" = .text name)
    (named : name ≠ "") : nameOf part fields = .ok name := by
  have holds : (Value.text name).truthy = true := by simpa [Value.truthy, Value.isEmpty] using named
  simp only [nameOf, given, holds, if_true]
  rfl

end Document

/-! ## Questions -/

namespace Question

/-- A question and all that it holds have names. -/
def Definite (q : Question) : Prop := ∀ r ∈ walk q, r.name ≠ ""

theorem mem_walkAll {questions : List Question} {r : Question} :
    r ∈ walkAll questions ↔ ∃ q ∈ questions, r ∈ walk q := by
  induction questions with
  | nil => simp [walkAll]
  | cons q rest ih => rw [walkAll, List.mem_append, ih, List.exists_mem_cons_iff]

/-- What holds of all that is in a question holds of it and of all that is in its elements. -/
theorem forall_mem_walk {P : Question → Prop} {q : Question} :
    (∀ r ∈ walk q, P r) ↔ P q ∧ ∀ r ∈ q.elements, ∀ s ∈ walk r, P s := by
  obtain ⟨name, kind, isRequired, properties, elements⟩ := q
  rw [walk, List.forall_mem_cons]
  refine and_congr_right fun _ => ⟨fun h r hr s hs => h s (mem_walkAll.mpr ⟨r, hr, hs⟩), fun h s hs => ?_⟩
  obtain ⟨r, hr, hs⟩ := mem_walkAll.mp hs
  exact h r hr s hs

theorem definite_iff {q : Question} : q.Definite ↔ q.name ≠ "" ∧ ∀ r ∈ q.elements, r.Definite := forall_mem_walk

end Question

namespace Document

theorem orFault_eq_ok {α : Type} {x : Except Fault α} {a : α} : orFault x = .ok a ↔ x = .ok a := by
  cases x <;> simp [orFault]

theorem ne_empty_of_nameText {v : Value} {s : String} (holds : v.truthy = true) (h : orFault v.nameText = .ok s) :
    s ≠ "" := Value.nameText_ne_empty holds (orFault_eq_ok.mp h)

theorem ne_empty_of_nameOf {part name : String} {fields : Fields} (h : nameOf part fields = .ok name) : name ≠ "" := by
  rw [nameOf] at h
  split at h
  · rename_i holds
    exact ne_empty_of_nameText holds h
  · obtain ⟨shown, -, h⟩ := Outcome.bind_eq_ok.mp h
    cases h

/-- A question that was read is definite. -/
theorem definite_of_questionWithin {levels : Nat} {v : Value} {q : Question} (h : questionWithin levels v = .ok q) :
    q.Definite := by
  induction levels generalizing v q with
  | zero => cases h
  | succ levels ih =>
    rw [questionWithin] at h
    obtain ⟨fields, -, h⟩ := Outcome.bind_eq_ok.mp h
    obtain ⟨name, named, h⟩ := Outcome.bind_eq_ok.mp h
    obtain ⟨children, -, h⟩ := Outcome.bind_eq_ok.mp h
    obtain ⟨elements, each, h⟩ := Outcome.bind_eq_ok.mp h
    cases h
    refine Question.definite_iff.mpr ⟨ne_empty_of_nameOf named, fun r hr => ?_⟩
    obtain ⟨child, -, read⟩ := Outcome.exists_of_mem (Outcome.forall₂_of_mapM each) hr
    exact ih read

/-- The fields that are written of a question. -/
def questionFields (q : Question) : Fields :=
  field "name" (.text q.name) ++ field "type" q.kind ++
    (if q.isRequired then field "isRequired" (.boolean true) else []) ++
    propertyFields Property.ofQuestions q.properties ++
    (if q.elements.isEmpty then [] else field "elements" (.sequence (ofQuestions q.elements)))

theorem ofQuestion_eq (q : Question) : ofQuestion q = .structured (questionFields q) := by
  obtain ⟨name, kind, isRequired, properties, elements⟩ := q
  rw [ofQuestion, questionFields]

variable (q : Question)

/-- No property has a name under which something else is written. -/
theorem find?_propertyFields_of_reserved {known : List Property} {properties : Properties} {key : String}
    (reserved : key ∈ ["name", "type", "isRequired", "items", "elements"]) :
    Table.find? (propertyFields known properties) (.text key) = none := by
  refine find?_propertyFields_of_not_mem fun p _ same => ?_
  rw [← same] at reserved
  cases p <;> revert reserved <;> decide

/-- What stands under a name in the fields of a question. -/
theorem find?_questionFields : Table.find? (questionFields q) (.text key) =
    if "name" = key then some (.text q.name)
    else if "type" = key then some q.kind
    else if "isRequired" = key ∧ q.isRequired = true then some (.boolean true)
    else (Table.find? (propertyFields Property.ofQuestions q.properties) (.text key)).or
      (if "elements" = key ∧ q.elements.isEmpty = false then some (.sequence (ofQuestions q.elements)) else none) := by
  have required : Table.find? (if q.isRequired then field "isRequired" (.boolean true) else []) (.text key) =
      if "isRequired" = key ∧ q.isRequired = true then some (.boolean true) else none := by
    cases q.isRequired <;> simp [find?_field]
  have elements : Table.find? (if q.elements.isEmpty then [] else
      field "elements" (.sequence (ofQuestions q.elements))) (.text key) =
      if "elements" = key ∧ q.elements.isEmpty = false then some (.sequence (ofQuestions q.elements)) else none := by
    cases q.elements.isEmpty <;> simp [find?_field]
  rw [questionFields]
  simp only [Table.find?_append, find?_field, required, elements]
  split
  · rfl
  · split
    · rfl
    · split <;> rfl

theorem get_name_questionFields : Fields.get (questionFields q) "name" = .text q.name := by
  simp [Fields.get, Fields.lookUp, find?_questionFields]

theorem find?_kind_questionFields : Table.find? (questionFields q) (.text "type") = some q.kind := by
  simp [find?_questionFields]

theorem truthy_isRequired_questionFields :
    (Fields.get (questionFields q) "isRequired").truthy = q.isRequired := by
  rw [Fields.get, Fields.lookUp, find?_questionFields, find?_propertyFields_of_reserved (by decide)]
  cases q.isRequired <;> rfl

theorem get_items_questionFields : Fields.get (questionFields q) "items" = .undefined := by
  rw [Fields.get, Fields.lookUp, find?_questionFields, find?_propertyFields_of_reserved (by decide)]
  rfl

theorem get_elements_questionFields : Fields.get (questionFields q) "elements" =
    if q.elements.isEmpty then .undefined else .sequence (ofQuestions q.elements) := by
  rw [Fields.get, Fields.lookUp, find?_questionFields, find?_propertyFields_of_reserved (by decide)]
  cases q.elements.isEmpty <;> rfl

theorem get_property_questionFields (p : Property) : Fields.get (questionFields q) p.key = q.properties p := by
  have written := find?_propertyFields q.properties (by decide : Property.ofQuestions.Nodup)
    (by cases p <;> decide : p ∈ Property.ofQuestions)
  have other : "name" ≠ p.key ∧ "type" ≠ p.key ∧ "isRequired" ≠ p.key ∧ "elements" ≠ p.key := by
    cases p <;> decide
  simp [Fields.get, Fields.lookUp, find?_questionFields, other, written]

/-- Items of a sequence, or of nothing where the sequence would be empty. -/
theorem itemsOf_of_sequence {fields : Fields} {vs : List Value} (given : Fields.get fields key = .sequence vs) :
    itemsOf fields key = .ok vs := by
  rw [itemsOf]
  cases vs with
  | nil => simp [given, Value.truthy, Value.isEmpty]
  | cons v rest => simp [given, Value.truthy, Value.isEmpty, items]

theorem itemsOf_of_undefined {fields : Fields} (missing : Fields.get fields key = .undefined) :
    itemsOf fields key = .ok [] := by
  simp [itemsOf, missing, Value.truthy, Value.isEmpty]

theorem ofQuestions_eq_map (questions : List Question) : ofQuestions questions = questions.map ofQuestion := by
  induction questions with
  | nil => rw [ofQuestions, List.map_nil]
  | cons q rest ih => rw [ofQuestions, List.map_cons, ih]

/-- The questions that a question holds are its elements, if it has no items. -/
theorem childrenOf_of_fields {fields : Fields} {children : List Value} (none : Fields.get fields "items" = .undefined)
    (held : Fields.get fields "elements" = if children.isEmpty then .undefined else .sequence children) :
    childrenOf fields = .ok children := by
  have elements : itemsOf fields "elements" = .ok children := by
    split at held
    · rename_i empty
      rw [itemsOf_of_undefined held, List.isEmpty_iff.mp empty]
    · rw [itemsOf_of_sequence held]
  rw [childrenOf]
  simp only [none, elements]
  rw [if_neg]
  split
  · exact fun h => absurd (Bool.and_eq_true_iff.mp h).2 (by decide)
  · exact Bool.false_ne_true

theorem childrenOf_questionFields : childrenOf (questionFields q) = .ok (q.elements.map ofQuestion) := by
  refine childrenOf_of_fields (get_items_questionFields q) ?_
  rw [get_elements_questionFields, ofQuestions_eq_map, List.isEmpty_map]

theorem levels_le_levelsOf {vs : List Value} {v : Value} (mem : v ∈ vs) : levels v ≤ levelsOf vs := by
  induction vs with
  | nil => cases mem
  | cons first rest ih =>
    rw [levelsOf]
    rcases List.mem_cons.mp mem with rfl | later
    · exact le_max_left _ _
    · exact (ih later).trans (le_max_right _ _)

theorem levels_le_levelsOfFields {fields : Fields} {c : Key × Value} (mem : c ∈ fields) :
    levels c.2 ≤ levelsOfFields fields := by
  induction fields with
  | nil => cases mem
  | cons first rest ih =>
    obtain ⟨key, v⟩ := first
    rw [levelsOfFields]
    rcases List.mem_cons.mp mem with rfl | later
    · exact le_max_left _ _
    · exact (ih later).trans (le_max_right _ _)

/-- What stands in a sequence under a key stands further in. -/
theorem levels_lt_of_get {fields : Fields} {name : String} {vs : List Value}
    (given : Fields.get fields name = .sequence vs) {v : Value} (mem : v ∈ vs) :
    levels v < levels (.structured fields) := by
  have found : Table.find? fields (.text name) = some (.sequence vs) := by
    rw [Fields.get, Fields.lookUp] at given
    cases found : Table.find? fields (.text name) with
    | none =>
      rw [found] at given
      cases given
    | some w =>
      rw [found] at given
      exact congrArg some given
  obtain ⟨key, entry⟩ := Table.exists_mem_of_find?_eq_some found
  have within : levels (.sequence vs) ≤ levelsOfFields fields := levels_le_levelsOfFields entry
  have here := levels_le_levelsOf mem
  rw [levels] at within
  rw [levels]
  omega

/-- A question that another one holds is written further in. -/
theorem levels_lt_of_mem_elements {q r : Question} (held : r ∈ q.elements) :
    levels (ofQuestion r) < levels (ofQuestion q) := by
  have given := get_elements_questionFields q
  rw [if_neg (by simpa using List.ne_nil_of_mem held), ofQuestions_eq_map] at given
  rw [ofQuestion_eq q]
  exact levels_lt_of_get given (List.mem_map_of_mem held)

/-- A question is read from any fields that say of it what it says itself. -/
theorem questionWithin_of_fields {n : Nat} {q : Question} {fields : Fields} {children : List Value}
    (named : q.name ≠ "") (name : Fields.get fields "name" = .text q.name)
    (kind : Table.find? fields (.text "type") = some q.kind)
    (required : (Fields.get fields "isRequired").truthy = q.isRequired)
    (given : ∀ p : Property, Fields.get fields p.key = q.properties p) (held : childrenOf fields = .ok children)
    (elements : children.mapM (questionWithin n) = .ok q.elements) :
    questionWithin (n + 1) (.structured fields) = .ok q := by
  have properties : propertiesOf Property.ofQuestions fields = q.properties :=
    propertiesOf_eq (fun p _ => given p) fun p unknown => absurd (by cases p <;> decide) unknown
  rw [questionWithin]
  refine Outcome.bind_eq_ok.mpr ⟨_, rfl, Outcome.bind_eq_ok.mpr ⟨_, nameOf_eq name named, ?_⟩⟩
  refine Outcome.bind_eq_ok.mpr ⟨_, by rw [held, orFault], Outcome.bind_eq_ok.mpr ⟨_, elements, ?_⟩⟩
  rw [kind, required, properties]
  cases q
  rfl

/-- The document of a definite question is read as the question, if reading goes as deep as the document. -/
theorem questionWithin_ofQuestion {n : Nat} {q : Question} (definite : q.Definite)
    (deep : levels (ofQuestion q) ≤ n) : questionWithin n (ofQuestion q) = .ok q := by
  induction n generalizing q with
  | zero =>
    rw [ofQuestion_eq, levels] at deep
    omega
  | succ n ih =>
    obtain ⟨named, inner⟩ := Question.definite_iff.mp definite
    have elements : (q.elements.map ofQuestion).mapM (questionWithin n) = .ok q.elements := by
      refine Outcome.mapM_map_eq_ok fun r hr => ih (inner r hr) ?_
      exact Nat.le_of_lt_succ ((levels_lt_of_mem_elements hr).trans_le deep)
    rw [ofQuestion_eq]
    exact questionWithin_of_fields named (get_name_questionFields q) (find?_kind_questionFields q)
      (truthy_isRequired_questionFields q) (get_property_questionFields q) (childrenOf_questionFields q) elements

/-- The document of a definite question is read as the question. -/
theorem question_ofQuestion {q : Question} (definite : q.Definite) : question (ofQuestion q) = .ok q :=
  questionWithin_ofQuestion definite (Nat.le_succ _)

end Document

/-! ## Pages, triggers, and the survey -/

/-- A page with a name, with properties of pages only, and with questions that have names. -/
structure Page.Definite (p : Page) : Prop where
  named : p.name ≠ ""
  properties : ∀ property ∉ Property.ofPages, p.properties property = .undefined
  elements : ∀ q ∈ p.elements, q.Definite

namespace Document

theorem definite_of_mapM_question {vs : List Value} {questions : List Question}
    (h : vs.mapM question = .ok questions) : ∀ q ∈ questions, q.Definite := by
  intro q mem
  obtain ⟨v, -, read⟩ := Outcome.exists_of_mem (Outcome.forall₂_of_mapM h) mem
  exact definite_of_questionWithin read

theorem definite_of_page {v : Value} {p : Page} (h : page v = .ok p) : p.Definite := by
  rw [page] at h
  obtain ⟨fields, -, h⟩ := Outcome.bind_eq_ok.mp h
  obtain ⟨name, named, h⟩ := Outcome.bind_eq_ok.mp h
  obtain ⟨children, -, h⟩ := Outcome.bind_eq_ok.mp h
  obtain ⟨elements, each, h⟩ := Outcome.bind_eq_ok.mp h
  cases h
  refine ⟨ne_empty_of_nameOf named, fun p unknown => ?_, definite_of_mapM_question each⟩
  exact if_neg fun h => unknown (List.contains_iff_mem.mp h)

/-- A page is read from any fields that say of it what it says itself. -/
theorem page_of_fields {p : Page} {fields : Fields} {children : List Value} (named : p.name ≠ "")
    (others : ∀ property ∉ Property.ofPages, p.properties property = .undefined)
    (name : Fields.get fields "name" = .text p.name)
    (given : ∀ property ∈ Property.ofPages, Fields.get fields property.key = p.properties property)
    (held : itemsOf fields "elements" = .ok children) (elements : children.mapM question = .ok p.elements) :
    page (.structured fields) = .ok p := by
  rw [page]
  refine Outcome.bind_eq_ok.mpr ⟨_, rfl, Outcome.bind_eq_ok.mpr ⟨_, nameOf_eq name named, ?_⟩⟩
  refine Outcome.bind_eq_ok.mpr ⟨_, by rw [held, orFault], Outcome.bind_eq_ok.mpr ⟨_, elements, ?_⟩⟩
  rw [propertiesOf_eq given others]
  rfl

/-- The fields that are written of a page. -/
def pageFields (p : Page) : Fields :=
  field "name" (.text p.name) ++ propertyFields Property.ofPages p.properties ++
    field "elements" (.sequence (ofQuestions p.elements))

theorem get_name_pageFields (p : Page) : Fields.get (pageFields p) "name" = .text p.name := by
  simp [pageFields, Fields.get, Fields.lookUp, Table.find?_append, find?_field]

theorem get_property_pageFields (p : Page) {property : Property} (known : property ∈ Property.ofPages) :
    Fields.get (pageFields p) property.key = p.properties property := by
  have given := find?_propertyFields p.properties (by decide) known
  have other : "name" ≠ property.key ∧ "elements" ≠ property.key := by
    cases property <;> decide
  simp [pageFields, Fields.get, Fields.lookUp, Table.find?_append, find?_field, other, given]

theorem get_elements_pageFields (p : Page) :
    Fields.get (pageFields p) "elements" = .sequence (p.elements.map ofQuestion) := by
  have reserved : Table.find? (propertyFields Property.ofPages p.properties) (.text "elements") = none :=
    find?_propertyFields_of_reserved (by decide)
  simp [pageFields, Fields.get, Fields.lookUp, Table.find?_append, find?_field, reserved, ofQuestions_eq_map]

/-- The document of a definite page is read as the page. -/
theorem page_ofPage {p : Page} (definite : p.Definite) : page (ofPage p) = .ok p :=
  page_of_fields definite.named definite.properties (get_name_pageFields p) (fun _ => get_property_pageFields p)
    (itemsOf_of_sequence (get_elements_pageFields p))
    (Outcome.mapM_map_eq_ok fun q hq => question_ofQuestion (definite.elements q hq))

/-- A field that has only its first name. -/
theorem firstOf_of_missing {fields : Fields} {other : String} (missing : Fields.get fields other = .undefined) :
    firstOf fields key other = Fields.get fields key := by
  rw [firstOf, missing]
  cases Fields.get fields key <;> rfl

theorem condition_ne_empty_of_trigger {v : Value} {t : Trigger} (h : trigger v = .ok t) : t.condition ≠ "" := by
  rw [trigger] at h
  obtain ⟨fields, -, h⟩ := Outcome.bind_eq_ok.mp h
  obtain ⟨kindName, -, h⟩ := Outcome.bind_eq_ok.mp h
  split at h
  · obtain ⟨shown, -, h⟩ := Outcome.bind_eq_ok.mp h
    cases h
  · extract_lets condition rest at h
    split at h
    · obtain ⟨shown, -, h⟩ := Outcome.bind_eq_ok.mp h
      cases h
    · rename_i holds
      obtain ⟨text, written, h⟩ := Outcome.bind_eq_ok.mp h
      cases h
      exact ne_empty_of_nameText (by simpa using holds) written

/-- The names of fields of triggers that other names stand for. -/
def otherNames : List String := ["operator", "condition", "to", "value", "from", "goto"]

/-- A trigger is read from any fields that say of it what it says itself, each under the first of its names. -/
theorem trigger_of_fields {t : Trigger} {fields : Fields} (conditional : t.condition ≠ "")
    (missing : ∀ key ∈ otherNames, Fields.get fields key = .undefined)
    (kind : Fields.get fields "type" = .text t.kind.name)
    (condition : Fields.get fields "expression" = .text t.condition)
    (given : Fields.get fields "setToName" = t.setToName ∧ Fields.get fields "setValue" = t.setValue ∧
      Fields.get fields "fromName" = t.fromName ∧ Fields.get fields "gotoName" = t.gotoName ∧
      Fields.get fields "runExpression" = t.runExpression) :
    trigger (.structured fields) = .ok t := by
  have first (key : String) {other : String} (mem : other ∈ otherNames) :
      firstOf fields key other = Fields.get fields key := firstOf_of_missing (missing other mem)
  have known : TriggerKind.ofName? (Text.lower t.kind.name) = some t.kind := by
    cases t.kind <;> decide +kernel
  have holds : (Value.text t.condition).truthy = true := by simpa [Value.truthy, Value.isEmpty] using conditional
  rw [trigger]
  refine Outcome.bind_eq_ok.mpr ⟨_, rfl, ?_⟩
  rw [first "type" (by decide), first "expression" (by decide), first "setToName" (by decide),
    first "setValue" (by decide), first "fromName" (by decide), first "gotoName" (by decide)]
  simp only [kind, condition, given, holds]
  refine Outcome.bind_eq_ok.mpr ⟨_, rfl, ?_⟩
  rw [known]
  rfl

/-- The fields that are written of a trigger. -/
def triggerFields (t : Trigger) : Fields :=
  field "type" (.text t.kind.name) ++ field "expression" (.text t.condition) ++
    optional "setToName" t.setToName ++ optional "setValue" t.setValue ++ optional "fromName" t.fromName ++
    optional "gotoName" t.gotoName ++ optional "runExpression" t.runExpression

/-- Only the first of the two names of a field is written. -/
theorem get_triggerFields_of_other (t : Trigger) :
    ∀ key ∈ otherNames, Fields.get (triggerFields t) key = .undefined := by
  simp [triggerFields, otherNames, Fields.get, Fields.lookUp, Table.find?_append, find?_field, find?_optional]

theorem get_triggerFields (t : Trigger) : Fields.get (triggerFields t) "type" = .text t.kind.name ∧
    Fields.get (triggerFields t) "expression" = .text t.condition ∧
    Fields.get (triggerFields t) "setToName" = t.setToName ∧ Fields.get (triggerFields t) "setValue" = t.setValue ∧
    Fields.get (triggerFields t) "fromName" = t.fromName ∧ Fields.get (triggerFields t) "gotoName" = t.gotoName ∧
    Fields.get (triggerFields t) "runExpression" = t.runExpression := by
  simp [triggerFields, Fields.get, Fields.lookUp, Table.find?_append, find?_field, find?_optional, getD_of_isDefined]

/-- The document of a trigger that has a condition is read as the trigger. -/
theorem trigger_ofTrigger {t : Trigger} (conditional : t.condition ≠ "") : trigger (ofTrigger t) = .ok t := by
  obtain ⟨kind, condition, given⟩ := get_triggerFields t
  exact trigger_of_fields conditional (get_triggerFields_of_other t) kind condition given

end Document

/-- A survey as it is read: pages and questions have names, triggers have conditions, and no two questions share a
name. -/
structure Survey.Definite (s : Survey) : Prop where
  pages : ∀ p ∈ s.pages, p.Definite
  triggers : ∀ t ∈ s.triggers, t.condition ≠ ""
  distinct : s.questionNames.Nodup

namespace Document

theorem definite_of_pages {fields : Fields} {read : List Page} (h : pages fields = .ok read) :
    ∀ p ∈ read, p.Definite := by
  intro p mem
  rw [pages] at h
  split at h
  · obtain ⟨vs, -, h⟩ := Outcome.bind_eq_ok.mp h
    obtain ⟨v, -, from'⟩ := Outcome.exists_of_mem (Outcome.forall₂_of_mapM h) mem
    exact definite_of_page from'
  · split at h
    · obtain ⟨vs, -, h⟩ := Outcome.bind_eq_ok.mp h
      obtain ⟨elements, each, h⟩ := Outcome.bind_eq_ok.mp h
      cases h
      rw [List.mem_singleton.mp mem]
      exact ⟨by simp, fun _ _ => rfl, definite_of_mapM_question each⟩
    · cases h
      cases mem

theorem duplicates_eq_nil {names : List String} (distinct : names.Nodup) : duplicates names = [] := by
  have none : names.filter (fun name => 1 < names.count name) = [] := by
    refine List.filter_eq_nil_iff.mpr fun name _ => ?_
    have once := List.nodup_iff_count_le_one.mp distinct name
    simpa using once
  rw [duplicates, none]
  rfl

end Document

namespace Survey

variable {document : Value} {fields : Fields} {s : Survey}

/-- What is read from the fields of a document. -/
structure Reads (fields : Fields) (s : Survey) : Prop where
  title : Fields.get fields "title" = s.title
  description : Fields.get fields "description" = s.description
  completedHtml : Fields.get fields "completedHtml" = s.completedHtml
  metadata : (if (Fields.get fields "metadata").truthy then
    Document.orFault (Document.mapping (Fields.get fields "metadata")) else .ok []) = .ok s.metadata
  pages : Document.pages fields = .ok s.pages
  triggers : ∃ vs, Document.orFault (Document.itemsOf fields "triggers") = .ok vs ∧
    vs.mapM Document.trigger = .ok s.triggers
  distinct : Document.duplicates s.questionNames = []

theorem ofDocument_eq_ok_iff : ofDocument (.structured fields) = .ok s ↔ Reads fields s := by
  constructor
  · intro h
    obtain ⟨_, found, h⟩ := Outcome.bind_eq_ok.mp h
    cases found
    extract_lets metadata rest at h
    have ends {read : Fields} (h : rest read = .ok s) (given : (if metadata.truthy then
        Document.orFault (Document.mapping metadata) else .ok []) = .ok read) : Reads fields s := by
      obtain ⟨pages, hpages, h⟩ := Outcome.bind_eq_ok.mp h
      obtain ⟨items, hitems, h⟩ := Outcome.bind_eq_ok.mp h
      obtain ⟨triggers, htriggers, h⟩ := Outcome.bind_eq_ok.mp h
      simp only at h
      split at h
      · rename_i single
        cases h
        exact ⟨rfl, rfl, rfl, given, hpages, ⟨items, hitems, htriggers⟩, single⟩
      · cases h
    split at h
    · rename_i holds
      obtain ⟨read, hread, h⟩ := Outcome.bind_eq_ok.mp h
      exact ends h (by rw [if_pos holds, hread])
    · rename_i holds
      exact ends h (by rw [if_neg holds])
  · intro h
    obtain ⟨vs, items, triggers⟩ := h.triggers
    rw [ofDocument]
    refine Outcome.bind_eq_ok.mpr ⟨fields, rfl, ?_⟩
    extract_lets metadata rest
    have ends : rest s.metadata = .ok s := by
      refine Outcome.bind_eq_ok.mpr ⟨_, h.pages, Outcome.bind_eq_ok.mpr ⟨_, items, ?_⟩⟩
      refine Outcome.bind_eq_ok.mpr ⟨_, triggers, ?_⟩
      simp only [h.title, h.description, h.completedHtml]
      rw [h.distinct]
      rfl
    have given := h.metadata
    split at given
    · rename_i holds
      rw [if_pos holds]
      exact Outcome.bind_eq_ok.mpr ⟨_, given, ends⟩
    · rename_i holds
      rw [← Except.ok.inj given] at ends
      rw [if_neg holds]
      exact ends

/-- A survey that was read is definite. -/
theorem definite_of_ofDocument (h : ofDocument document = .ok s) : s.Definite := by
  obtain ⟨fields, found, -⟩ := Outcome.bind_eq_ok.mp h
  cases document with
  | structured fields =>
    have reads := ofDocument_eq_ok_iff.mp h
    obtain ⟨vs, -, triggers⟩ := reads.triggers
    refine ⟨Document.definite_of_pages reads.pages, fun t mem => ?_, Document.nodup_of_duplicates reads.distinct⟩
    obtain ⟨v, -, read⟩ := Outcome.exists_of_mem (Outcome.forall₂_of_mapM triggers) mem
    exact Document.condition_ne_empty_of_trigger read
  | _ => cases found

/-- A survey is read from any fields that say of it what it says itself. -/
theorem ofDocument_of_fields {pages triggers : List Value}
    (given : Fields.get fields "title" = s.title ∧ Fields.get fields "description" = s.description ∧
      Fields.get fields "completedHtml" = s.completedHtml)
    (metadata : Fields.get fields "metadata" = if s.metadata.isEmpty then .undefined else .structured s.metadata)
    (listed : Fields.get fields "pages" = .sequence pages) (single : Fields.get fields "elements" = .undefined)
    (rules : Fields.get fields "triggers" = .sequence triggers) (eachPage : pages.mapM Document.page = .ok s.pages)
    (eachTrigger : triggers.mapM Document.trigger = .ok s.triggers) (distinct : s.questionNames.Nodup) :
    ofDocument (.structured fields) = .ok s := by
  rw [ofDocument_eq_ok_iff]
  refine ⟨given.1, given.2.1, given.2.2, ?metadata, ?pages, ?triggers, Document.duplicates_eq_nil distinct⟩
  case metadata =>
    split at metadata
    · rename_i none
      rw [metadata, List.isEmpty_iff.mp none]
      rfl
    · rename_i some
      have holds : (Value.structured s.metadata).truthy = true := by simpa [Value.truthy, Value.isEmpty] using some
      rw [metadata, if_pos holds]
      rfl
  case pages =>
    rw [Document.pages, single]
    split
    · rw [Document.itemsOf_of_sequence listed]
      exact eachPage
    · rename_i none
      have empty : pages = [] := by
        rw [listed] at none
        simpa [Value.truthy, Value.isEmpty] using none
      rw [empty] at eachPage
      rw [← Except.ok.inj eachPage]
      rfl
  case triggers =>
    exact ⟨_, by rw [Document.itemsOf_of_sequence rules, Document.orFault], eachTrigger⟩

/-- The fields that are written of a survey. -/
def writtenFields (s : Survey) : Fields :=
  Document.field "pages" (.sequence (s.pages.map Document.ofPage)) ++
    Document.field "triggers" (.sequence (s.triggers.map Document.ofTrigger)) ++
    Document.optional "title" s.title ++ Document.optional "description" s.description ++
    Document.optional "completedHtml" s.completedHtml ++
    (if s.metadata.isEmpty then [] else Document.field "metadata" (.structured s.metadata))

theorem get_writtenFields (s : Survey) : Fields.get s.writtenFields "title" = s.title ∧
    Fields.get s.writtenFields "description" = s.description ∧
    Fields.get s.writtenFields "completedHtml" = s.completedHtml ∧
    Fields.get s.writtenFields "pages" = .sequence (s.pages.map Document.ofPage) ∧
    Fields.get s.writtenFields "triggers" = .sequence (s.triggers.map Document.ofTrigger) ∧
    Fields.get s.writtenFields "elements" = .undefined ∧
    Fields.get s.writtenFields "metadata" = if s.metadata.isEmpty then .undefined else .structured s.metadata := by
  cases none : s.metadata.isEmpty <;>
    simp [writtenFields, Fields.get, Fields.lookUp, Table.find?_append, Document.find?_field, Document.find?_optional,
      Document.getD_of_isDefined, none]

/-- The document of a definite survey is read as the survey. -/
theorem ofDocument_toDocument (definite : s.Definite) : ofDocument s.toDocument = .ok s := by
  obtain ⟨title, description, completedHtml, listed, rules, single, metadata⟩ := get_writtenFields s
  exact ofDocument_of_fields ⟨title, description, completedHtml⟩ metadata listed single rules
    (Outcome.mapM_map_eq_ok fun p hp => Document.page_ofPage (definite.pages p hp))
    (Outcome.mapM_map_eq_ok fun t ht => Document.trigger_ofTrigger (definite.triggers t ht)) definite.distinct

/-- Definitions survive being written as a document and read again. -/
theorem reload_written (loaded : ofDocument document = .ok s) :
    ofDocument s.toDocument = .ok s ∧ (ofDocument s.toDocument).map toDocument = .ok s.toDocument := by
  have reloaded := ofDocument_toDocument (definite_of_ofDocument loaded)
  exact ⟨reloaded, by rw [reloaded, Except.map]⟩

/-- A document that leaves much open: no pages, names that are no texts, items in place of questions, a trigger with the
other names of its fields, and metadata in pairs. -/
def terse : Value := .structured [
  (.text "elements", .sequence [
    .structured [(.text "name", .int 7), (.text "type", .text "multipletext"), (.text "isRequired", .text "yes"),
      (.text "items", .sequence [
        .structured [(.text "name", .text "a"), (.text "type", .text "date"), (.text "defaultValue", .int 0)],
        .sequence [.sequence [.text "name", .text "b"]]])],
    .structured [(.text "name", .boolean true), (.text "type", .undefined), (.text "title", .text "")]]),
  (.text "triggers", .sequence [
    .structured [(.text "operator", .text "SetValue"), (.text "condition", .boolean true),
      (.text "setToName", .undefined), (.text "to", .text "a"), (.text "value", .boolean false)]]),
  (.text "metadata", .sequence [.sequence [.text "version", .int 1]])]

theorem terse_reloaded : ∃ s, ofDocument terse = .ok s ∧ s.questionNames = ["7", "a", "b", "True"] ∧
    ofDocument s.toDocument = .ok s ∧ (ofDocument s.toDocument).map toDocument = .ok s.toDocument := by
  have names : (ofDocument terse).toOption.map questionNames = some ["7", "a", "b", "True"] := by decide +kernel
  cases loaded : ofDocument terse with
  | error e =>
    rw [loaded] at names
    cases names
  | ok s =>
    rw [loaded] at names
    exact ⟨s, rfl, Option.some.inj names, reload_written loaded⟩

end Survey

end Questionnaire
