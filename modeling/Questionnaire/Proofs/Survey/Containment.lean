import Mathlib.Data.List.Flatten
import Mathlib.Data.List.Pairwise
import Questionnaire.Proofs.Logic.Rules
import Questionnaire.Session.Start
import Questionnaire.Survey.Document

/-!
# What contains what

An engine notes for each question what contains it, in one walk over the pages.  When names are distinct the note of
a question names the panels and the page that contain it, and nothing else; and the initial flags of a page or
question are found under its name.
-/
namespace Questionnaire

/-! ## Tables that are filled entry by entry -/

namespace Table

variable {κ α β : Type} [BEq κ] [LawfulBEq κ] (key : β → κ) (entry : β → α)

theorem find?_foldl_set_of_not_mem {asked : κ} {items : List β} {table : Table κ α} (h : asked ∉ items.map key) :
    (items.foldl (fun table c => table.set (key c) (entry c)) table).find? asked = table.find? asked := by
  induction items generalizing table with
  | nil => rfl
  | cons c rest ih =>
    rw [List.map_cons, List.mem_cons, not_or] at h
    rw [List.foldl_cons, ih h.2]
    exact find?_set_of_differs table _ (beq_eq_false_iff_ne.mpr (Ne.symm h.1))

/-- An item is found under its key if no other item with this key has another entry. -/
theorem find?_foldl_set_of_sole {items : List β} {table : Table κ α} {c : β} (mem : c ∈ items)
    (sole : ∀ c' ∈ items, key c' = key c → entry c' = entry c) :
    (items.foldl (fun table c => table.set (key c) (entry c)) table).find? (key c) = some (entry c) := by
  induction items generalizing table c with
  | nil => cases mem
  | cons first rest ih =>
    obtain ⟨here, later⟩ := List.forall_mem_cons.mp sole
    rw [List.foldl_cons]
    by_cases again : key c ∈ rest.map key
    · obtain ⟨c', mem', same⟩ := List.mem_map.mp again
      rw [← same, ← later c' mem' same]
      refine ih mem' fun c'' mem'' same' => ?_
      rw [later c'' mem'' (same'.trans same), later c' mem' same]
    · obtain rfl : c = first := (List.mem_cons.mp mem).resolve_right fun mem => again (List.mem_map_of_mem mem)
      rw [find?_foldl_set_of_not_mem key entry again, find?_set_self]

/-- With distinct keys every item is found under its own. -/
theorem find?_foldl_set_of_mem {items : List β} {table : Table κ α} (distinct : (items.map key).Nodup) {c : β}
    (mem : c ∈ items) :
    (items.foldl (fun table c => table.set (key c) (entry c)) table).find? (key c) = some (entry c) := by
  refine find?_foldl_set_of_sole key entry mem fun c' mem' same => ?_
  exact congrArg entry (List.inj_on_of_nodup_map distinct mem' mem same)

theorem isSome_find?_foldl_set {asked : κ} {items : List β} {table : Table κ α} :
    ((items.foldl (fun table c => table.set (key c) (entry c)) table).find? asked).isSome = true ↔
      asked ∈ items.map key ∨ (table.find? asked).isSome = true := by
  induction items generalizing table with
  | nil => simp
  | cons c rest ih =>
    rw [List.foldl_cons, ih, List.map_cons, List.mem_cons]
    by_cases here : asked = key c
    · simp [here]
    · rw [find?_set_of_differs table _ (beq_eq_false_iff_ne.mpr (Ne.symm here))]
      simp [here]

end Table

/-- Where all that comes from the items of a list is distinct, it tells the index of the item that it comes from. -/
theorem index_unique_of_nodup_flatMap {α β : Type} {f : α → List β} {xs : List α} (distinct : (xs.flatMap f).Nodup)
    {i j : Nat} {x y : α} (first : xs[i]? = some x) (second : xs[j]? = some y) {b : β} (mem : b ∈ f x)
    (mem' : b ∈ f y) : i = j := by
  obtain ⟨within, rfl⟩ := List.getElem?_eq_some_iff.mp first
  obtain ⟨within', rfl⟩ := List.getElem?_eq_some_iff.mp second
  have apart := List.pairwise_iff_getElem.mp (List.nodup_flatMap.mp distinct).2
  rcases Nat.lt_trichotomy i j with less | same | less
  · exact absurd mem' (apart i j within within' less mem)
  · exact same
  · exact absurd mem (apart j i within' within less mem')

/-! ## The walk over a page -/

namespace Question

/-- The names of some questions and of all they hold. -/
def namesOf (questions : List Question) : List String := (walkAll questions).map (·.name)

/-- Some question of a list has a name, and holds at some depth a question of another name. -/
def Inside (name : String) (questions : List Question) (outer : String) : Prop :=
  ∃ r ∈ questions, r.name = outer ∧ name ∈ namesOf r.elements

theorem namesOf_cons (q : Question) (rest : List Question) :
    namesOf (q :: rest) = (walk q).map (·.name) ++ namesOf rest := by
  rw [namesOf, walkAll, List.map_append, ← namesOf]

theorem map_name_walk (q : Question) : (walk q).map (·.name) = q.name :: namesOf q.elements := by
  obtain ⟨name, kind, isRequired, properties, elements⟩ := q
  rw [walk, List.map_cons, ← namesOf]

mutual

theorem map_withAncestors : ∀ (above : List String) (q : Question), (withAncestors above q).map (·.1) = walk q
  | above, ⟨name, kind, isRequired, properties, elements⟩ => by
    rw [withAncestors, walk, List.map_cons, map_allWithAncestors]

theorem map_allWithAncestors :
    ∀ (above : List String) (questions : List Question),
      (allWithAncestors above questions).map (·.1) = walkAll questions
  | _, [] => by rw [allWithAncestors, walkAll, List.map_nil]
  | above, q :: rest => by
    rw [allWithAncestors, walkAll, List.map_append, map_withAncestors, map_allWithAncestors]

end

mutual

/-- What is below a question of a walk is below where the walk began. -/
theorem namesOf_elements_subset : ∀ {q r : Question}, r ∈ walk q → namesOf r.elements ⊆ namesOf q.elements
  | ⟨name, kind, isRequired, properties, elements⟩, r, mem => by
    rw [walk] at mem
    rcases List.mem_cons.mp mem with rfl | below
    · exact List.Subset.refl _
    · exact namesOf_elements_subset_all below

theorem namesOf_elements_subset_all :
    ∀ {questions : List Question} {r : Question}, r ∈ walkAll questions → namesOf r.elements ⊆ namesOf questions
  | [], r, mem => by
    rw [walkAll] at mem
    cases mem
  | q :: rest, r, mem => by
    rw [walkAll] at mem
    rw [namesOf_cons]
    rcases List.mem_append.mp mem with here | later
    · rw [map_name_walk]
      intro name h
      exact List.mem_append_left _ (List.mem_cons_of_mem _ (namesOf_elements_subset here h))
    · intro name h
      exact List.mem_append_right _ (namesOf_elements_subset_all later h)

end

mutual

/-- With distinct names, what is noted for a question of a walk is what was noted above, and what contains the question
below there. -/
theorem mem_withAncestors :
    ∀ {above : List String} {q : Question}, ((walk q).map (·.name)).Nodup → ∀ {c : Question × List String},
      c ∈ withAncestors above q → ∀ outer, outer ∈ c.2 ↔ outer ∈ above ∨ Inside c.1.name (walk q) outer
  | above, ⟨name, kind, isRequired, properties, elements⟩, distinct, c, mem, outer => by
    rw [map_name_walk] at distinct
    obtain ⟨fresh, distinct⟩ := List.nodup_cons.mp distinct
    rw [withAncestors] at mem
    rw [walk]
    rcases List.mem_cons.mp mem with rfl | below
    · refine ⟨Or.inl, fun h => h.elim id ?_⟩
      rintro ⟨r, hr, -, inside⟩
      exact absurd (namesOf_elements_subset (q := ⟨name, kind, isRequired, properties, elements⟩)
        (by rw [walk]; exact hr) inside) fresh
    · rw [mem_allWithAncestors distinct below outer, List.mem_cons]
      have held : c.1.name ∈ namesOf elements := by
        rw [namesOf, ← map_allWithAncestors (name :: above)]
        exact List.mem_map_of_mem (List.mem_map_of_mem below)
      constructor
      · rintro ((rfl | noted) | ⟨r, hr, same, inside⟩)
        · exact Or.inr ⟨_, List.mem_cons_self, rfl, held⟩
        · exact Or.inl noted
        · exact Or.inr ⟨r, List.mem_cons_of_mem _ hr, same, inside⟩
      · rintro (noted | ⟨r, hr, same, inside⟩)
        · exact Or.inl (Or.inr noted)
        · rcases List.mem_cons.mp hr with rfl | hr
          · exact Or.inl (Or.inl same.symm)
          · exact Or.inr ⟨r, hr, same, inside⟩

theorem mem_allWithAncestors :
    ∀ {above : List String} {questions : List Question}, (namesOf questions).Nodup →
      ∀ {c : Question × List String}, c ∈ allWithAncestors above questions →
        ∀ outer, outer ∈ c.2 ↔ outer ∈ above ∨ Inside c.1.name (walkAll questions) outer
  | above, [], _, c, mem, outer => by
    rw [allWithAncestors] at mem
    cases mem
  | above, q :: rest, distinct, c, mem, outer => by
    rw [namesOf_cons] at distinct
    obtain ⟨here, later, apart⟩ := List.nodup_append'.mp distinct
    rw [allWithAncestors] at mem
    rw [walkAll]
    -- a question of the one part lies in nothing of the other
    rcases List.mem_append.mp mem with mem | mem
    · rw [mem_withAncestors here mem outer]
      have held : c.1.name ∈ (walk q).map (·.name) := by
        rw [← map_withAncestors above]
        exact List.mem_map_of_mem (List.mem_map_of_mem mem)
      refine or_congr_right ⟨?_, ?_⟩
      · rintro ⟨r, hr, h⟩
        exact ⟨r, List.mem_append_left _ hr, h⟩
      · rintro ⟨r, hr, same, inside⟩
        rcases List.mem_append.mp hr with hr | hr
        · exact ⟨r, hr, same, inside⟩
        · exact absurd (namesOf_elements_subset_all hr inside) (apart held)
    · rw [mem_allWithAncestors later mem outer]
      have held : c.1.name ∈ namesOf rest := by
        rw [namesOf, ← map_allWithAncestors above]
        exact List.mem_map_of_mem (List.mem_map_of_mem mem)
      refine or_congr_right ⟨?_, ?_⟩
      · rintro ⟨r, hr, h⟩
        exact ⟨r, List.mem_append_right _ hr, h⟩
      · rintro ⟨r, hr, same, inside⟩
        rcases List.mem_append.mp hr with hr | hr
        · refine absurd held (apart ?_)
          rw [map_name_walk]
          exact List.mem_cons_of_mem _ (namesOf_elements_subset hr inside)
        · exact ⟨r, hr, same, inside⟩

end

end Question

/-! ## The notes of an engine -/

namespace Survey

/-- A page or a question contains a question at some depth. -/
def Contains (s : Survey) (outer inner : String) : Prop :=
  (∃ p ∈ s.pages, p.name = outer ∧ p.holds inner = true) ∨ Question.Inside inner s.questions outer

theorem holds_iff {p : Page} {name : String} : p.holds name = true ↔ name ∈ Question.namesOf p.elements := by
  rw [Page.holds, Page.questions, Question.namesOf, List.any_eq_true, List.mem_map]
  simp only [beq_iff_eq]

theorem questionNames_eq (s : Survey) : s.questionNames = s.pages.flatMap fun p => Question.namesOf p.elements := by
  rw [questionNames, questions, List.map_flatMap]
  rfl

theorem map_contained (s : Survey) :
    (s.pages.flatMap Page.withAncestors).map (·.1) = s.questions := by
  rw [List.map_flatMap, questions]
  refine List.flatMap_congr ?_
  intro p _
  exact Question.map_allWithAncestors [p.name] p.elements

variable {s : Survey}

/-- What contains a question is in its note, and nothing else. -/
theorem mem_contained (distinct : s.questionNames.Nodup) {c : Question × List String}
    (mem : c ∈ s.pages.flatMap Page.withAncestors) (outer : String) :
    outer ∈ c.2 ↔ s.Contains outer c.1.name := by
  rw [questionNames_eq] at distinct
  obtain ⟨each, apart⟩ := List.nodup_flatMap.mp distinct
  obtain ⟨p, hp, mem⟩ := List.mem_flatMap.mp mem
  have held : c.1.name ∈ Question.namesOf p.elements := by
    rw [Question.namesOf, ← Question.map_allWithAncestors [p.name]]
    exact List.mem_map_of_mem (List.mem_map_of_mem mem)
  have only {p' : Page} (hp' : p' ∈ s.pages) (held' : c.1.name ∈ Question.namesOf p'.elements) : p' = p := by
    by_contra differ
    have : Std.Symm (Function.onFun List.Disjoint fun p : Page => Question.namesOf p.elements) :=
      ⟨fun _ _ h => List.Disjoint.symm h⟩
    exact List.Pairwise.forall apart hp' hp differ held' held
  rw [Question.mem_allWithAncestors (each p hp) mem outer, List.mem_singleton]
  constructor
  · rintro (rfl | ⟨r, hr, h⟩)
    · exact Or.inl ⟨p, hp, rfl, holds_iff.mpr held⟩
    · exact Or.inr ⟨r, List.mem_flatMap.mpr ⟨p, hp, hr⟩, h⟩
  · rintro (⟨p', hp', rfl, holds⟩ | ⟨r, hr, same, inside⟩)
    · rw [only hp' (holds_iff.mp holds)]
      exact Or.inl rfl
    · obtain ⟨p', hp', hr⟩ := List.mem_flatMap.mp hr
      have here := only hp' (Question.namesOf_elements_subset_all hr inside)
      exact Or.inr ⟨r, here ▸ hr, same, inside⟩

/-- What contains something contains a question. -/
theorem Contains.mem_questionNames {outer inner : String} (h : s.Contains outer inner) : inner ∈ s.questionNames := by
  rw [questionNames_eq]
  rcases h with ⟨p, hp, -, holds⟩ | ⟨r, hr, -, inside⟩
  · exact List.mem_flatMap.mpr ⟨p, hp, holds_iff.mp holds⟩
  · obtain ⟨p, hp, hr⟩ := List.mem_flatMap.mp hr
    exact List.mem_flatMap.mpr ⟨p, hp, Question.namesOf_elements_subset_all hr inside⟩

/-- What contains something is a page or question. -/
theorem Contains.mem_names {outer inner : String} (h : s.Contains outer inner) : outer ∈ s.names := by
  rcases h with ⟨p, hp, rfl, -⟩ | ⟨r, hr, rfl, -⟩
  · exact List.mem_flatMap.mpr ⟨p, hp, List.mem_cons_self⟩
  · obtain ⟨p, hp, hr⟩ := List.mem_flatMap.mp hr
    exact List.mem_flatMap.mpr ⟨p, hp, List.mem_cons_of_mem _ (List.mem_map_of_mem hr)⟩

theorem mem_names {name : String} : name ∈ s.names ↔ (∃ p ∈ s.pages, p.name = name) ∨ name ∈ s.questionNames := by
  simp only [names, questionNames, questions, List.mem_flatMap, List.map_flatMap, List.mem_cons]
  constructor
  · rintro ⟨p, hp, rfl | question⟩
    · exact Or.inl ⟨p, hp, rfl⟩
    · exact Or.inr ⟨p, hp, question⟩
  · rintro (⟨p, hp, rfl⟩ | ⟨p, hp, question⟩)
    · exact ⟨p, hp, Or.inl rfl⟩
    · exact ⟨p, hp, Or.inr question⟩

/-! ## Initial flags -/

/-- The pages and questions with the flags they begin with, each page before its questions. -/
def fresh (s : Survey) : List (String × Flags) :=
  s.pages.flatMap fun p => (p.name, {}) :: p.questions.map fun q => (q.name, { always := q.isRequired })

theorem map_fresh (s : Survey) : s.fresh.map (·.1) = s.names := by
  rw [fresh, names, List.map_flatMap]
  refine List.flatMap_congr ?_
  intro p _
  rw [List.map_cons, List.map_map]
  rfl

end Survey

namespace Engine

variable {survey : Survey} (settings : Settings) (bindings : List Binding)

/-- With distinct names an engine keeps for each question what its walk noted. -/
theorem find?_ancestors (distinct : survey.questionNames.Nodup) {c : Question × List String}
    (mem : c ∈ survey.pages.flatMap Page.withAncestors) :
    (ofBindings survey settings bindings).ancestors.find? c.1.name = some c.2 := by
  refine Table.find?_foldl_set_of_mem (fun c : Question × List String => c.1.name) (·.2) ?_ mem
  rwa [Survey.questionNames, ← Survey.map_contained, List.map_map] at distinct

/-- The note of a name, empty for what is no question, names what contains it. -/
theorem mem_find?_ancestors (distinct : survey.questionNames.Nodup) {name outer : String} :
    outer ∈ ((ofBindings survey settings bindings).ancestors.find? name).getD [] ↔ survey.Contains outer name := by
  by_cases question : name ∈ survey.questionNames
  · obtain ⟨q, hq, rfl⟩ := List.mem_map.mp question
    rw [← Survey.map_contained] at hq
    obtain ⟨c, mem, rfl⟩ := List.mem_map.mp hq
    rw [find?_ancestors settings bindings distinct mem, Option.getD_some]
    exact Survey.mem_contained distinct mem outer
  · have none : (ofBindings survey settings bindings).ancestors.find? name = none := by
      refine Table.find?_foldl_set_of_not_mem (fun c : Question × List String => c.1.name) (·.2) ?_
      rwa [Survey.questionNames, ← Survey.map_contained, List.map_map] at question
    rw [none, Option.getD_none]
    refine iff_of_false List.not_mem_nil ?_
    intro contains
    exact question contains.mem_questionNames

theorem isSome_find?_pages {name : String} :
    ((ofBindings survey settings bindings).pages.find? name).isSome = true ↔ name ∈ survey.pages.map (·.name) := by
  refine (Table.isSome_find?_foldl_set (fun p : Page => p.name) id).trans (or_iff_left ?_)
  simp

/-- With distinct names every page is found under its own. -/
theorem find?_pages (distinct : (survey.pages.map (·.name)).Nodup) {p : Page} (mem : p ∈ survey.pages) :
    (ofBindings survey settings bindings).pages.find? p.name = some p :=
  Table.find?_foldl_set_of_mem (fun p : Page => p.name) id distinct mem

theorem initialFlags_eq (survey : Survey) :
    initialFlags survey = survey.fresh.foldl (fun table c => Table.set c.1 c.2 table) [] := by
  rw [initialFlags, Survey.fresh, List.foldl_flatMap]
  congr 1
  funext flags p
  rw [List.foldl_cons, List.foldl_map, Page.questions, ← Question.map_allWithAncestors [p.name], List.foldl_map]
  rfl

theorem find?_initialFlags (distinct : survey.names.Nodup) {c : String × Flags} (mem : c ∈ survey.fresh) :
    (initialFlags survey).find? c.1 = some c.2 := by
  rw [initialFlags_eq]
  refine Table.find?_foldl_set_of_mem (fun c : String × Flags => c.1) (·.2) ?_ mem
  rwa [Survey.map_fresh]

theorem find?_initialFlags_of_not_mem {name : String} (h : name ∉ survey.names) :
    (initialFlags survey).find? name = none := by
  rw [initialFlags_eq]
  refine Table.find?_foldl_set_of_not_mem (fun c : String × Flags => c.1) (·.2) ?_
  rwa [Survey.map_fresh]

end Engine

/-! ## Surveys from documents -/

theorem Document.nodup_of_duplicates {names : List String} (h : Document.duplicates names = []) : names.Nodup := by
  rw [List.nodup_iff_count_le_one]
  intro name
  by_contra more
  have mem : name ∈ names := List.count_pos_iff.mp (by omega)
  have twice : name ∈ Document.duplicates names :=
    Names.mem_ofList.mpr (List.mem_filter.mpr ⟨mem, by simpa using more⟩)
  rw [h] at twice
  cases twice

/-- No two questions of a survey that was read share a name. -/
theorem Survey.nodup_of_ofDocument {document : Value} {survey : Survey} (h : Survey.ofDocument document = .ok survey) :
    survey.questionNames.Nodup := by
  obtain ⟨fields, -, h⟩ := Outcome.bind_eq_ok.mp h
  extract_lets metadata rest at h
  have ends (metadata : Fields) (h : rest metadata = .ok survey) : survey.questionNames.Nodup := by
    obtain ⟨pages, -, h⟩ := Outcome.bind_eq_ok.mp h
    obtain ⟨items, -, h⟩ := Outcome.bind_eq_ok.mp h
    obtain ⟨triggers, -, h⟩ := Outcome.bind_eq_ok.mp h
    simp only at h
    split at h
    · rename_i single
      cases h
      exact Document.nodup_of_duplicates single
    · cases h
  split at h
  · obtain ⟨fields, -, h⟩ := Outcome.bind_eq_ok.mp h
    exact ends fields h
  · exact ends [] h

end Questionnaire
