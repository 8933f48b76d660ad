import Questionnaire.Proofs.Survey.RoundTrip

/-!
# Whose names are whose

A question of a survey stands at a place: the index of its page, then the index of a question on the page, of a question
that this one holds, and so on inward.  In a survey that was read from a document no two places have questions of one
name, however deep they are and on whatever pages.

Pages are not looked at in this way.  Each has the name that its document gives, as text, and two of them have one name
exactly if the document gives two names with one text.
-/
namespace Questionnaire

namespace Question

/-- A question stands at a place among some questions and all that they hold. -/
inductive StandsAt : List Question → List Nat → Question → Prop
  | top {questions : List Question} {i : Nat} {q : Question} : questions[i]? = some q → StandsAt questions [i] q
  | inner {questions : List Question} {i : Nat} {place : List Nat} {q r : Question} : questions[i]? = some q →
      StandsAt q.elements place r → StandsAt questions (i :: place) r

variable {questions : List Question} {place place' : List Nat} {q r : Question}

theorem namesOf_eq_flatMap (questions : List Question) :
    namesOf questions = questions.flatMap fun q => q.name :: namesOf q.elements := by
  induction questions with
  | nil => rfl
  | cons q rest ih => rw [namesOf_cons, map_name_walk, ih, List.flatMap_cons]

theorem StandsAt.mem_namesOf (stands : StandsAt questions place q) : q.name ∈ namesOf questions := by
  induction stands with
  | top found =>
    rw [namesOf_eq_flatMap]
    exact List.mem_flatMap.mpr ⟨_, List.mem_of_getElem? found, List.mem_cons_self⟩
  | inner found _ ih =>
    rw [namesOf_eq_flatMap]
    exact List.mem_flatMap.mpr ⟨_, List.mem_of_getElem? found, List.mem_cons_of_mem _ ih⟩

section

variable (distinct : (namesOf questions).Nodup)
include distinct

theorem nodup_names_of_getElem? {i : Nat} (found : questions[i]? = some q) : (q.name :: namesOf q.elements).Nodup := by
  rw [namesOf_eq_flatMap] at distinct
  exact (List.nodup_flatMap.mp distinct).1 q (List.mem_of_getElem? found)

/-- Questions with a name in common are one, as far as their index goes. -/
theorem index_eq {i j : Nat} {name : String} (found : questions[i]? = some q) (found' : questions[j]? = some r)
    (mem : name ∈ q.name :: namesOf q.elements) (mem' : name ∈ r.name :: namesOf r.elements) : i = j := by
  rw [namesOf_eq_flatMap] at distinct
  exact index_unique_of_nodup_flatMap distinct found found' mem mem'

/-- What one of the questions holds does not have the name of any of them. -/
theorem StandsAt.name_ne {outer : Question} {i j : Nat} (below : StandsAt outer.elements place r)
    (found : questions[i]? = some q) (found' : questions[j]? = some outer) : q.name ≠ r.name := by
  intro same
  have mem : q.name ∈ namesOf outer.elements := same ▸ below.mem_namesOf
  obtain rfl : i = j := index_eq distinct found found' List.mem_cons_self (List.mem_cons_of_mem _ mem)
  obtain rfl : q = outer := Option.some.inj (found.symm.trans found')
  exact (List.nodup_cons.mp (nodup_names_of_getElem? distinct found)).1 mem

end

/-- Where names are distinct, a name tells the place of its question. -/
theorem StandsAt.place_unique (distinct : (namesOf questions).Nodup) (stands : StandsAt questions place q)
    (stands' : StandsAt questions place' r) (same : q.name = r.name) : place = place' := by
  induction stands generalizing place' with
  | top found =>
    cases stands' with
    | top found' =>
      rw [index_eq distinct found found' List.mem_cons_self (same ▸ List.mem_cons_self)]
    | inner found' below' => exact absurd same (below'.name_ne distinct found found')
  | @inner questions i place outer q found below ih =>
    cases stands' with
    | top found' => exact absurd same.symm (below.name_ne distinct found' found)
    | @inner _ j place' outer' _ found' below' =>
      have mem : q.name ∈ namesOf outer'.elements := same ▸ below'.mem_namesOf
      obtain rfl : i = j := index_eq distinct found found' (List.mem_cons_of_mem _ below.mem_namesOf)
        (List.mem_cons_of_mem _ mem)
      obtain rfl : outer = outer' := Option.some.inj (found.symm.trans found')
      have inner := (List.nodup_cons.mp (nodup_names_of_getElem? distinct found)).2
      rw [ih inner below' same]

end Question

namespace Document

/-- The documents of pages that a document lists. -/
def listedPages : Value → List Value
  | .structured fields => match Fields.get fields "pages" with
    | .sequence listed => listed
    | _ => []
  | _ => []

/-- The text of the name that the document of a page gives. -/
def givenName? : Value → Option String
  | .structured fields => (Fields.get fields "name").nameText.toOption
  | _ => none

variable {fields : Fields} {read : List Page}

theorem nameText_of_nameOf {part name : String} (h : nameOf part fields = .ok name) :
    (Fields.get fields "name").nameText = .ok name := by
  rw [nameOf] at h
  split at h
  · exact orFault_eq_ok.mp h
  · obtain ⟨shown, -, h⟩ := Outcome.bind_eq_ok.mp h
    cases h

/-- A page that is read has an object for its document, and the name that this gives. -/
theorem givenName?_of_page {v : Value} {p : Page} (h : page v = .ok p) : givenName? v = some p.name := by
  rw [page] at h
  obtain ⟨fields, required, h⟩ := Outcome.bind_eq_ok.mp h
  obtain ⟨name, named, h⟩ := Outcome.bind_eq_ok.mp h
  obtain ⟨children, -, h⟩ := Outcome.bind_eq_ok.mp h
  obtain ⟨elements, -, h⟩ := Outcome.bind_eq_ok.mp h
  cases h
  cases v with
  | structured given =>
    cases required
    show (Fields.get fields "name").nameText.toOption = some name
    rw [nameText_of_nameOf named]
    rfl
  | _ => cases required

theorem map_givenName? {listed : List Value} (pairs : List.Forall₂ (fun v p => page v = .ok p) listed read) :
    listed.map givenName? = read.map fun p => some p.name := by
  induction pairs with
  | nil => rfl
  | cons first _ ih => rw [List.map_cons, List.map_cons, givenName?_of_page first, ih]

/-- Only a sequence lists pages: neither the characters of a text nor the keys of an object are documents of pages. -/
theorem eq_nil_of_items {v : Value} {listed : List Value} (other : ∀ vs, v ≠ .sequence vs)
    (items : items v = .ok listed) (each : listed.mapM page = .ok read) : read = [] := by
  have none : ∀ w ∈ listed, givenName? w = none := by
    cases v with
    | sequence vs => exact absurd rfl (other vs)
    | text s =>
      cases items
      intro w mem
      obtain ⟨c, -, rfl⟩ := List.mem_map.mp mem
      rfl
    | structured fields =>
      cases items
      intro w mem
      obtain ⟨⟨key, _⟩, -, rfl⟩ := List.mem_map.mp mem
      cases key <;> rfl
    | _ => cases items
  refine List.eq_nil_iff_forall_not_mem.mpr fun p mem => ?_
  obtain ⟨w, mem', from'⟩ := Outcome.exists_of_mem (Outcome.forall₂_of_mapM each) mem
  cases (none w mem').symm.trans (givenName?_of_page from')

/-- The pages that are read are the listed ones, under the names that these give.  If none is listed there is one page
at most, so that names are distinct. -/
theorem names_of_pages (h : pages fields = .ok read) :
    (listedPages (.structured fields)).map givenName? = read.map (fun p => some p.name) ∨
      listedPages (.structured fields) = [] ∧ (read.map (·.name)).Nodup := by
  rw [pages] at h
  split at h
  · obtain ⟨listed, found, each⟩ := Outcome.bind_eq_ok.mp h
    rename_i holds
    have found : items (Fields.get fields "pages") = .ok listed := by
      rw [itemsOf] at found
      simpa only [holds, if_true] using orFault_eq_ok.mp found
    rw [listedPages]
    split
    · rename_i vs sequence
      rw [sequence] at found
      cases found
      exact Or.inl (map_givenName? (Outcome.forall₂_of_mapM each))
    · rename_i other
      rw [eq_nil_of_items other found each]
      exact Or.inr ⟨rfl, List.nodup_nil⟩
  · rename_i empty
    have none : listedPages (.structured fields) = [] := by
      rw [listedPages]
      split
      · rename_i vs sequence
        rw [sequence] at empty
        simpa [Value.truthy, Value.isEmpty] using empty
      · rfl
    refine Or.inr ⟨none, ?_⟩
    split at h
    · obtain ⟨listed, -, h⟩ := Outcome.bind_eq_ok.mp h
      obtain ⟨elements, -, h⟩ := Outcome.bind_eq_ok.mp h
      cases h
      exact List.nodup_singleton _
    · cases h
      exact List.nodup_nil

end Document

namespace Survey

/-- A question of a survey stands at a place: the index of its page, and its place there. -/
def StandsAt (s : Survey) (page : Nat) (place : List Nat) (q : Question) : Prop :=
  ∃ p, s.pages[page]? = some p ∧ Question.StandsAt p.elements place q

variable {s : Survey}

/-- Where names are distinct, a name tells the page and the place of its question. -/
theorem StandsAt.place_unique (distinct : s.questionNames.Nodup) {page page' : Nat} {place place' : List Nat}
    {q r : Question} (stands : s.StandsAt page place q) (stands' : s.StandsAt page' place' r)
    (same : q.name = r.name) : page = page' ∧ place = place' := by
  rw [questionNames_eq] at distinct
  obtain ⟨p, found, below⟩ := stands
  obtain ⟨p', found', below'⟩ := stands'
  obtain rfl : page = page' := index_unique_of_nodup_flatMap distinct found found' below.mem_namesOf
    (same ▸ below'.mem_namesOf)
  obtain rfl : p = p' := Option.some.inj (found.symm.trans found')
  have inner := (List.nodup_flatMap.mp distinct).1 p (List.mem_of_getElem? found)
  exact ⟨rfl, below.place_unique inner below' same⟩

/-- No two questions of a survey that was read have one name, whatever their pages and however deep they stand.  Two
pages have one name exactly if the document gives two pages names with one text. -/
theorem names_of_loaded {document : Value} (loaded : ofDocument document = .ok s) :
    (s.questionNames.Nodup ∧ ∀ page page' place place' q r, s.StandsAt page place q → s.StandsAt page' place' r →
      q.name = r.name → page = page' ∧ place = place') ∧
    ((s.pages.map (·.name)).Nodup ↔
      ((Document.listedPages document).map Document.givenName?).Nodup) := by
  have distinct := nodup_of_ofDocument loaded
  refine ⟨⟨distinct, ?_⟩, ?_⟩
  · intro page page' place place' q r stands stands' same
    exact stands.place_unique distinct stands' same
  · obtain ⟨fields, required, -⟩ := Outcome.bind_eq_ok.mp loaded
    cases document with
    | structured given =>
      have reads := ofDocument_eq_ok_iff.mp loaded
      rcases Document.names_of_pages reads.pages with listed | ⟨none, single⟩
      · have names : s.pages.map (fun p => some p.name) = (s.pages.map (·.name)).map some := by
          rw [List.map_map]
          rfl
        rw [listed, names, List.nodup_map_iff (Option.some_injective String)]
      · rw [none]
        exact iff_of_true single List.nodup_nil
    | _ => cases required

/-- Two pages, one with a question in a panel and one with the items of a question for several texts.  Some names are
numbers and some are texts. -/
def shelf : Value := .structured [(.text "pages", .sequence [
  .structured [(.text "name", .int 1), (.text "elements", .sequence [
    .structured [(.text "name", .text "room"), (.text "type", .text "panel"),
      (.text "elements", .sequence [.structured [(.text "name", .int 1)]])]])],
  .structured [(.text "name", .text "2"), (.text "elements", .sequence [
    .structured [(.text "name", .text "books"), (.text "type", .text "multipletext"),
      (.text "items", .sequence [
        .structured [(.text "name", .boolean true)], .structured [(.text "name", .int 2)]])]])]])]

/-- The question named by a 1 in the panel of the first page, and that named by a 2 among the items of the second page,
stand apart. -/
theorem shelf_named : ∃ s, ofDocument shelf = .ok s ∧ s.questionNames = ["room", "1", "books", "True", "2"] ∧
    (∀ page page' place place' q r, s.StandsAt page place q → s.StandsAt page' place' r → q.name = r.name →
      page = page' ∧ place = place') ∧
    (s.pages.map (·.name)).Nodup := by
  have names : (ofDocument shelf).toOption.map questionNames = some ["room", "1", "books", "True", "2"] := by
    decide +kernel
  cases loaded : ofDocument shelf with
  | error e =>
    rw [loaded] at names
    cases names
  | ok s =>
    rw [loaded] at names
    have named := names_of_loaded loaded
    exact ⟨s, rfl, Option.some.inj names, named.1.2, named.2.mpr (by decide +kernel)⟩

/-- A document with two pages of one name. -/
def twins : Value := .structured [(.text "pages", .sequence [
  .structured [(.text "name", .text "p"), (.text "elements", .sequence [.structured [(.text "name", .text "a")]])],
  .structured [(.text "name", .text "p"), (.text "elements", .sequence [.structured [(.text "name", .text "b")]])]])]

/-- It is read, and both pages keep the name. -/
theorem twins_accepted : ∃ s, ofDocument twins = .ok s ∧ s.pages.map (·.name) = ["p", "p"] ∧
    ¬ (s.pages.map (·.name)).Nodup := by
  have names : (ofDocument twins).toOption.map (fun s => s.pages.map (·.name)) = some ["p", "p"] := by decide +kernel
  cases loaded : ofDocument twins with
  | error e =>
    rw [loaded] at names
    cases names
  | ok s =>
    rw [loaded] at names
    have same : s.pages.map (·.name) = ["p", "p"] := Option.some.inj names
    exact ⟨s, rfl, same, by rw [same]; decide⟩

end Survey

end Questionnaire
