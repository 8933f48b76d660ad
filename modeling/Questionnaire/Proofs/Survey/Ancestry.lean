import Questionnaire.Proofs.Session.Freshness
import Questionnaire.Proofs.Survey.Uniqueness

/-!
# What contains a question, seen from both ends

An engine notes what contains a question while it walks inward from the page, and keeps the panels met so far.  A survey
answers the same from the other end, by a search for whatever holds a given name.  In a survey that was read from a
document the two agree: names are distinct, so a search for a name finds the one question that the walk came through.
-/
namespace Questionnaire

/-! ## Places and walks -/

namespace Question

variable {questions : List Question} {place : List Nat} {q r : Question}

theorem StandsAt.ne_nil (stands : StandsAt questions place q) : place ≠ [] := by
  cases stands <;> exact List.cons_ne_nil _ _

/-- A place has one question. -/
theorem StandsAt.unique (stands : StandsAt questions place q) (stands' : StandsAt questions place r) : q = r := by
  induction stands with
  | top found =>
    cases stands' with
    | top found' => exact Option.some.inj (found.symm.trans found')
    | inner _ below => exact absurd rfl below.ne_nil
  | inner found below ih =>
    cases stands' with
    | top => exact absurd rfl below.ne_nil
    | inner found' below' =>
      obtain rfl := Option.some.inj (found.symm.trans found')
      exact ih below'

/-- What a question holds stands one step further in. -/
theorem StandsAt.child (stands : StandsAt questions place r) {i : Nat} (held : r.elements[i]? = some q) :
    StandsAt questions (place ++ [i]) q := by
  induction stands with
  | top found => exact .inner found (.top held)
  | inner found _ ih => exact .inner found (ih held)

mutual

theorem exists_place_of_mem_walk : ∀ {q r : Question}, r ∈ walk q →
    r = q ∨ ∃ place, StandsAt q.elements place r
  | ⟨name, kind, isRequired, properties, elements⟩, r, mem => by
    rw [walk] at mem
    rcases List.mem_cons.mp mem with rfl | below
    · exact Or.inl rfl
    · exact Or.inr (exists_place_of_mem_walkAll below)

/-- Whatever a walk comes to stands at a place. -/
theorem exists_place_of_mem_walkAll : ∀ {questions : List Question} {r : Question}, r ∈ walkAll questions →
    ∃ place, StandsAt questions place r
  | [], r, mem => by
    rw [walkAll] at mem
    cases mem
  | q :: rest, r, mem => by
    rw [walkAll] at mem
    rcases List.mem_append.mp mem with here | later
    · rcases exists_place_of_mem_walk here with rfl | ⟨place, stands⟩
      · exact ⟨[0], .top rfl⟩
      · exact ⟨0 :: place, .inner rfl stands⟩
    · obtain ⟨place, stands⟩ := exists_place_of_mem_walkAll later
      cases stands with
      | @top _ i _ found => exact ⟨[i + 1], .top found⟩
      | @inner _ i place _ _ found below => exact ⟨(i + 1) :: place, .inner found below⟩

end

/-! ## The walk inward -/

/-- A question is met with some names noted: those from above, and the names of what was passed on the way, innermost
first. -/
inductive Noted (above : List String) (questions : List Question) : Question → List String → Prop
  | top {q : Question} : q ∈ questions → Noted above questions q above
  | inner {q r : Question} {names : List String} : Noted above questions r names → q ∈ r.elements →
      Noted above questions q (r.name :: names)

variable {above names : List String}

mutual

theorem Noted.of_mem_withAncestors : ∀ {r : Question} {names : List String}, Noted above questions r names →
    ∀ {c : Question × List String}, c ∈ withAncestors names r → Noted above questions c.1 c.2
  | ⟨name, kind, isRequired, properties, elements⟩, names, noted, c, mem => by
    rw [withAncestors] at mem
    rcases List.mem_cons.mp mem with rfl | below
    · exact noted
    · exact Noted.of_mem_allWithAncestors (fun q hq => noted.inner hq) below

theorem Noted.of_mem_allWithAncestors : ∀ {inside : List Question} {names : List String},
    (∀ q ∈ inside, Noted above questions q names) →
    ∀ {c : Question × List String}, c ∈ allWithAncestors names inside → Noted above questions c.1 c.2
  | [], names, _, c, mem => by
    rw [allWithAncestors] at mem
    cases mem
  | q :: rest, names, noted, c, mem => by
    obtain ⟨first, later⟩ := List.forall_mem_cons.mp noted
    rw [allWithAncestors] at mem
    rcases List.mem_append.mp mem with mem | mem
    · exact Noted.of_mem_withAncestors first mem
    · exact Noted.of_mem_allWithAncestors later mem

end

mutual

theorem withAncestors_trans : ∀ {above : List String} {q r : Question} {names : List String},
    (r, names) ∈ withAncestors above q → allWithAncestors (r.name :: names) r.elements ⊆ withAncestors above q
  | above, ⟨name, kind, isRequired, properties, elements⟩, r, names, mem => by
    rw [withAncestors] at mem ⊢
    rcases List.mem_cons.mp mem with same | below
    · cases same
      exact List.subset_cons_self _ _
    · exact List.subset_cons_of_subset _ (allWithAncestors_trans below)

/-- A walk goes on into what it comes to. -/
theorem allWithAncestors_trans : ∀ {above : List String} {questions : List Question} {r : Question}
    {names : List String}, (r, names) ∈ allWithAncestors above questions →
    allWithAncestors (r.name :: names) r.elements ⊆ allWithAncestors above questions
  | above, [], r, names, mem => by
    rw [allWithAncestors] at mem
    cases mem
  | above, q :: rest, r, names, mem => by
    rw [allWithAncestors] at mem ⊢
    rcases List.mem_append.mp mem with here | later
    · exact List.subset_append_of_subset_left _ (withAncestors_trans here)
    · exact List.subset_append_of_subset_right _ (allWithAncestors_trans later)

end

/-- The names from above stay at the end of what is noted. -/
theorem Noted.suffix (noted : Noted above questions q names) : above <:+ names := by
  induction noted with
  | top => exact List.suffix_rfl
  | inner _ _ ih => exact ih.trans (List.suffix_cons _ _)

theorem walkAll_elements_subset (mem : r ∈ walkAll questions) : walkAll r.elements ⊆ walkAll questions := by
  rw [← map_allWithAncestors []] at mem
  obtain ⟨⟨r, names⟩, walked, rfl⟩ := List.mem_map.mp mem
  rw [← map_allWithAncestors (r.name :: names), ← map_allWithAncestors []]
  exact List.map_subset _ (allWithAncestors_trans walked)

theorem subset_walkAll (questions : List Question) : questions ⊆ walkAll questions := by
  rintro ⟨name, kind, isRequired, properties, elements⟩ mem
  refine mem_walkAll.mpr ⟨_, mem, ?_⟩
  rw [walk]
  exact List.mem_cons_self

theorem Noted.mem_walkAll (noted : Noted above questions q names) : q ∈ walkAll questions := by
  induction noted with
  | top hq => exact subset_walkAll questions hq
  | inner _ hq ih => exact walkAll_elements_subset ih (subset_walkAll _ hq)

end Question

/-! ## The search outward -/

namespace Survey

variable {s : Survey} {q r : Question}

/-- The names of what holds a question directly, of what holds that, and so on while there is something. -/
inductive Parents (s : Survey) : String → List String → Prop
  | outermost {name : String} : s.parentOf? name = none → Parents s name []
  | inner {name : String} {q : Question} {names : List String} : s.parentOf? name = some q → Parents s q.name names →
      Parents s name (q.name :: names)

theorem StandsAt.of_mem {p : Page} (hp : p ∈ s.pages) (hq : q ∈ p.questions) :
    ∃ page place, s.pages[page]? = some p ∧ s.StandsAt page place q := by
  obtain ⟨page, found⟩ := List.getElem?_of_mem hp
  obtain ⟨place, stands⟩ := Question.exists_place_of_mem_walkAll hq
  exact ⟨page, place, found, p, found, stands⟩

theorem exists_standsAt (mem : q ∈ s.questions) : ∃ page place, s.StandsAt page place q := by
  obtain ⟨p, hp, hq⟩ := List.mem_flatMap.mp mem
  obtain ⟨page, place, -, stands⟩ := StandsAt.of_mem hp hq
  exact ⟨page, place, stands⟩

theorem StandsAt.unique {page : Nat} {place : List Nat} (stands : s.StandsAt page place q)
    (stands' : s.StandsAt page place r) : q = r := by
  obtain ⟨p, found, below⟩ := stands
  obtain ⟨p', found', below'⟩ := stands'
  obtain rfl := Option.some.inj (found.symm.trans found')
  exact below.unique below'

/-- What a question of a survey holds stands one step further in. -/
theorem exists_child (hr : r ∈ s.questions) (hq : q ∈ r.elements) :
    ∃ page place i, s.StandsAt page place r ∧ s.StandsAt page (place ++ [i]) q ∧ place ≠ [] := by
  obtain ⟨page, place, p, found, below⟩ := exists_standsAt hr
  obtain ⟨i, held⟩ := List.getElem?_of_mem hq
  exact ⟨page, place, i, ⟨p, found, below⟩, ⟨p, found, below.child held⟩, below.ne_nil⟩

variable (distinct : s.questionNames.Nodup)
include distinct

/-- The search for what holds a question comes to the question that holds it. -/
theorem parentOf?_of_mem_elements (hr : r ∈ s.questions) (hq : q ∈ r.elements) : s.parentOf? q.name = some r := by
  have holds : r.elements.any (·.name == q.name) = true := List.any_eq_true.mpr ⟨q, hq, beq_self_eq_true _⟩
  obtain ⟨r', search⟩ : ∃ r', s.parentOf? q.name = some r' :=
    Option.isSome_iff_exists.mp (List.find?_isSome.mpr ⟨r, hr, holds⟩)
  have holds' : r'.elements.any (·.name == q.name) = true :=
    List.find?_some (p := fun r : Question => r.elements.any (·.name == q.name)) search
  obtain ⟨q', hq', same⟩ := List.any_eq_true.mp holds'
  obtain ⟨page, place, i, outer, child, -⟩ := exists_child hr hq
  obtain ⟨page', place', i', outer', child', -⟩ := exists_child (List.mem_of_find?_eq_some search) hq'
  -- the two children have one name, hence one place, and so have what holds them
  obtain ⟨rfl, places⟩ := child.place_unique distinct child' (beq_iff_eq.mp same).symm
  obtain ⟨rfl, -⟩ := List.append_inj' places rfl
  rw [search, outer.unique outer']

/-- The search for what holds a question finds nothing if the question stands on a page itself. -/
theorem parentOf?_of_mem_page {p : Page} (hp : p ∈ s.pages) (hq : q ∈ p.elements) : s.parentOf? q.name = none := by
  refine List.find?_eq_none.mpr fun r hr holds => ?_
  obtain ⟨q', hq', same⟩ := List.any_eq_true.mp holds
  obtain ⟨page, found⟩ := List.getElem?_of_mem hp
  obtain ⟨i, top⟩ := List.getElem?_of_mem hq
  obtain ⟨page', place, i', -, child, nonempty⟩ := exists_child hr hq'
  have stands : s.StandsAt page [i] q := ⟨p, found, .top top⟩
  obtain ⟨-, places⟩ := stands.place_unique distinct child (beq_iff_eq.mp same).symm
  have lengths := congrArg List.length places
  rw [List.length_append, List.length_singleton, List.length_singleton] at lengths
  exact nonempty (List.eq_nil_of_length_eq_zero (by omega))

/-- The search for the page of a question comes to the page that it stands on. -/
theorem pageOf?_of_mem {p : Page} (hp : p ∈ s.pages) (hq : q ∈ p.questions) : s.pageOf? q.name = some p := by
  have holds {p : Page} : p.holds q.name = true ↔ ∃ r ∈ p.questions, (r.name == q.name) = true := List.any_eq_true
  obtain ⟨p', search⟩ : ∃ p', s.pageOf? q.name = some p' :=
    Option.isSome_iff_exists.mp (List.find?_isSome.mpr ⟨p, hp, holds.mpr ⟨q, hq, beq_self_eq_true _⟩⟩)
  have holds' : p'.holds q.name = true := List.find?_some (p := fun p : Page => p.holds q.name) search
  obtain ⟨q', hq', same⟩ := holds.mp holds'
  obtain ⟨page, place, found, stands⟩ := StandsAt.of_mem hp hq
  obtain ⟨page', place', found', stands'⟩ := StandsAt.of_mem (List.mem_of_find?_eq_some search) hq'
  obtain ⟨rfl, -⟩ := stands.place_unique distinct stands' (beq_iff_eq.mp same).symm
  rw [search, ← found, ← found']

/-- What is noted on the way to a question is what the search from the question comes to, and the page. -/
theorem parents_of_noted {p : Page} (hp : p ∈ s.pages) {names : List String}
    (noted : Question.Noted [p.name] p.elements q names) :
    ∃ parents, s.Parents q.name parents ∧ names = parents ++ [p.name] := by
  induction noted with
  | top hq => exact ⟨[], .outermost (parentOf?_of_mem_page distinct hp hq), rfl⟩
  | @inner q r names above hq ih =>
    obtain ⟨parents, chain, rfl⟩ := ih
    have hr : r ∈ s.questions := List.mem_flatMap.mpr ⟨p, hp, above.mem_walkAll⟩
    exact ⟨r.name :: parents, .inner (parentOf?_of_mem_elements distinct hr hq) chain, rfl⟩

end Survey

namespace Engine

open Survey (ofDocument)

variable {survey : Survey} (settings : Settings) (bindings : List Binding)

/-- An engine of a survey that was read keeps for each question what holds it directly, what holds that and so on, each
as a search by name finds it, and at the end the page that a search for it finds.  What it keeps for a question stands
at the end of what it keeps for each question that this one holds, at any depth, and is shorter. -/
theorem ancestors_agree_with_search {document : Value} (loaded : ofDocument document = .ok survey) :
    ∀ q ∈ survey.questions, ∃ parents page,
      survey.Parents q.name parents ∧ survey.pageOf? q.name = some page ∧
      (ofBindings survey settings bindings).ancestors.find? q.name = some (parents ++ [page.name]) ∧
      ∀ r ∈ Question.walkAll q.elements, ∃ names,
        (ofBindings survey settings bindings).ancestors.find? r.name = some names ∧
        parents ++ [page.name] <:+ names ∧ parents ++ [page.name] ≠ names := by
  have distinct := Survey.nodup_of_ofDocument loaded
  intro q hq
  rw [← Survey.map_contained] at hq
  obtain ⟨⟨q, names⟩, mem, rfl⟩ := List.mem_map.mp hq
  obtain ⟨p, hp, walked⟩ := List.mem_flatMap.mp mem
  have noted : Question.Noted [p.name] p.elements q names :=
    Question.Noted.of_mem_allWithAncestors (fun _ => .top) walked
  obtain ⟨parents, chain, rfl⟩ := Survey.parents_of_noted distinct hp noted
  refine ⟨parents, p, chain, Survey.pageOf?_of_mem distinct hp noted.mem_walkAll,
    find?_ancestors settings bindings distinct mem, ?_⟩
  intro r hr
  rw [← Question.map_allWithAncestors (q.name :: (parents ++ [p.name]))] at hr
  obtain ⟨⟨r, names⟩, below, rfl⟩ := List.mem_map.mp hr
  have mem' : (r, names) ∈ survey.pages.flatMap Page.withAncestors :=
    List.mem_flatMap.mpr ⟨p, hp, Question.allWithAncestors_trans walked below⟩
  have suffix : q.name :: (parents ++ [p.name]) <:+ names :=
    (Question.Noted.of_mem_allWithAncestors (fun _ => .top) below).suffix
  refine ⟨names, find?_ancestors settings bindings distinct mem', (List.suffix_cons _ _).trans suffix, ?_⟩
  rintro rfl
  exact absurd suffix.length_le (by simp)

/-- A panel in a panel, on a page that has the name of a question in it, with one more question in each panel. -/
def drawers : Value := .structured [(.text "pages", .sequence [
  .structured [(.text "name", .text "desk"), (.text "elements", .sequence [
    .structured [(.text "name", .text "top"), (.text "type", .text "panel"), (.text "elements", .sequence [
      .structured [(.text "name", .text "left"), (.text "type", .text "panel"), (.text "elements", .sequence [
        .structured [(.text "name", .text "pen")], .structured [(.text "name", .text "desk")]])],
      .structured [(.text "name", .text "lamp")]])]])],
  .structured [(.text "name", .text "shelf"), (.text "elements", .sequence [
    .structured [(.text "name", .text "book")]])]])]

/-- The question in both panels is traced back through them to its page. -/
theorem drawers_agree : ∃ survey, ofDocument drawers = .ok survey ∧
    (ofBindings survey Sample.settings []).ancestors.find? "desk" = some ["left", "top", "desk"] ∧
    survey.Parents "desk" ["left", "top"] ∧ ∃ page, survey.pageOf? "desk" = some page ∧ page.name = "desk" := by
  have shown : (ofDocument drawers).toOption.map (fun survey => (survey.questionNames,
      (ofBindings survey Sample.settings []).ancestors.find? "desk")) =
      some (["top", "left", "pen", "desk", "lamp", "book"], some ["left", "top", "desk"]) := by decide +kernel
  cases loaded : ofDocument drawers with
  | error e =>
    rw [loaded] at shown
    cases shown
  | ok survey =>
    rw [loaded] at shown
    obtain ⟨names, kept⟩ := Prod.mk.inj (Option.some.inj shown)
    have asked : "desk" ∈ survey.questionNames := by
      rw [names]
      decide
    obtain ⟨q, hq, name⟩ := List.mem_map.mp asked
    obtain ⟨parents, page, chain, found, listed, -⟩ := ancestors_agree_with_search Sample.settings [] loaded q hq
    rw [name] at chain found listed
    have both : parents ++ [page.name] = ["left", "top"] ++ ["desk"] := Option.some.inj (listed.symm.trans kept)
    obtain ⟨rfl, last⟩ := List.append_inj' both rfl
    exact ⟨survey, rfl, kept, chain, page, found, List.singleton_inj.mp last⟩

end Engine

end Questionnaire
