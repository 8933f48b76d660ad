import Mathlib
import Questionnaire.Proofs.Session.Freshness

/-!
# Paging skips hidden pages, but for the ends

Going on and going back walk from page to page and stop at the first visible one.  Both walks also stop at the end of
the list, and there without a look at the page.  So where a page ahead is visible they come to the nearest one, and
where none is they come to the end, visible or not.
-/
namespace Questionnaire

namespace Engine

variable (e : Engine) (s : Session)

theorem lt_length_of_pageVisible {e : Engine} {s : Session} {i : Nat} (h : e.pageVisible s i = true) :
    i < e.survey.pages.length := by
  rw [pageVisible] at h
  split at h
  · rename_i p found
    exact (List.getElem?_eq_some_iff.mp found).1
  · cases h

theorem hasVisibleAfter_iff {index : Nat} :
    e.hasVisibleAfter s index = true ↔ ∃ i, index < i ∧ e.pageVisible s i = true := by
  simp only [hasVisibleAfter, List.any_eq_true, List.mem_range, Bool.and_eq_true, decide_eq_true_eq]
  constructor
  · rintro ⟨i, -, later, visible⟩
    exact ⟨i, later, visible⟩
  · rintro ⟨i, later, visible⟩
    exact ⟨i, lt_length_of_pageVisible visible, later, visible⟩

theorem hasVisibleAfter_eq_false_iff {index : Nat} :
    e.hasVisibleAfter s index = false ↔ ∀ i, index < i → e.pageVisible s i = false := by
  rw [← Bool.not_eq_true, hasVisibleAfter_iff]
  push Not
  simp only [Bool.not_eq_true]

/-! ## The two walks -/

/-- The walk forward passes hidden pages only, and stops at a visible page or after all the pages it may look at. -/
theorem firstVisible_spec (count index : Nat) :
    index ≤ e.firstVisible s count index ∧ e.firstVisible s count index ≤ index + count ∧
    (∀ i, index ≤ i → i < e.firstVisible s count index → e.pageVisible s i = false) ∧
    (e.firstVisible s count index < index + count → e.pageVisible s (e.firstVisible s count index) = true) := by
  induction count generalizing index with
  | zero =>
    refine ⟨Nat.le_refl _, Nat.le_refl _, ?_, fun less => absurd less (Nat.lt_irrefl _)⟩
    intro i low below
    exact absurd below (Nat.not_lt_of_le low)
  | succ count ih =>
    rw [firstVisible]
    split
    · rename_i visible
      refine ⟨Nat.le_refl _, Nat.le_add_right _ _, ?_, fun _ => visible⟩
      intro i low below
      exact absurd below (Nat.not_lt_of_le low)
    · rename_i hidden
      obtain ⟨ahead, within, passed, stops⟩ := ih (index + 1)
      refine ⟨by omega, by omega, ?_, ?_⟩
      · intro i low below
        rcases Nat.eq_or_lt_of_le low with rfl | later
        · exact Bool.not_eq_true _ ▸ hidden
        · exact passed i later below
      · intro less
        exact stops (by omega)

/-- Where the next page is: some way ahead, behind hidden pages only, and it is visible or the last page. -/
theorem nextIndex_spec {index : Nat} (ahead : index < e.survey.pages.length - 1) :
    index < e.nextIndex s index ∧ (∀ i, index < i → i < e.nextIndex s index → e.pageVisible s i = false) ∧
    (e.nextIndex s index = e.survey.pages.length - 1 ∨ e.pageVisible s (e.nextIndex s index) = true) := by
  obtain ⟨later, within, passed, stops⟩ := e.firstVisible_spec s (e.survey.pages.length - 1 - (index + 1)) (index + 1)
  have eq : e.nextIndex s index = e.firstVisible s (e.survey.pages.length - 1 - (index + 1)) (index + 1) :=
    if_pos ahead
  rw [eq]
  refine ⟨later, passed, ?_⟩
  rcases Nat.eq_or_lt_of_le within with last | less
  · left
    omega
  · exact Or.inr (stops less)

/-- Where the page before is: some way back, in front of hidden pages only, and it is visible or the first page. -/
theorem previousIndex_spec (index : Nat) :
    e.previousIndex s (index + 1) ≤ index ∧
    (∀ i, e.previousIndex s (index + 1) < i → i ≤ index → e.pageVisible s i = false) ∧
    (e.previousIndex s (index + 1) = 0 ∨ e.pageVisible s (e.previousIndex s (index + 1)) = true) := by
  induction index with
  | zero => exact ⟨Nat.le_refl 0, fun i back within => absurd back (Nat.not_lt_of_le within), Or.inl rfl⟩
  | succ index ih =>
    rw [previousIndex]
    split
    · rename_i stops
      refine ⟨Nat.le_refl _, fun i back within => absurd back (Nat.not_lt_of_le within), Or.inr ?_⟩
      simpa using stops
    · rename_i goesOn
      obtain ⟨back, passed, stops⟩ := ih
      refine ⟨back.trans (Nat.le_succ _), ?_, stops⟩
      intro i less within
      rcases Nat.eq_or_lt_of_le within with rfl | further
      · simpa using goesOn
      · exact passed i less (Nat.le_of_lt_succ further)

/-! ## Where the walks come to -/

section

variable {e : Engine} {s : Session} {index : Nat}

/-- With a visible page ahead, the next page is the nearest one. -/
theorem isLeast_nextIndex (more : ∃ i, index < i ∧ e.pageVisible s i = true) :
    IsLeast {i | index < i ∧ e.pageVisible s i = true} (e.nextIndex s index) := by
  obtain ⟨i, later, visible⟩ := more
  have within := lt_length_of_pageVisible visible
  have ahead : index < e.survey.pages.length - 1 := by omega
  obtain ⟨moved, passed, stops⟩ := nextIndex_spec e s ahead
  have nearest : ∀ j, index < j → e.pageVisible s j = true → e.nextIndex s index ≤ j := by
    intro j later visible
    by_contra not
    rw [passed j later (Nat.lt_of_not_le not)] at visible
    cases visible
  refine ⟨⟨moved, ?_⟩, fun j mem => nearest j mem.1 mem.2⟩
  rcases stops with last | stops
  -- the walk ended at the last page, and a visible page that was not passed can only be that one
  · have same : i = e.nextIndex s index := by
      have := nearest i later visible
      omega
    rwa [same] at visible
  · exact stops

/-- Without a visible page ahead, the next page is the last one. -/
theorem nextIndex_of_none (none : ∀ i, index < i → e.pageVisible s i = false) :
    e.nextIndex s index = max index (e.survey.pages.length - 1) := by
  rcases Nat.lt_or_ge index (e.survey.pages.length - 1) with ahead | behind
  · obtain ⟨moved, -, stops⟩ := nextIndex_spec e s ahead
    rw [Nat.max_eq_right (Nat.le_of_lt ahead)]
    refine stops.resolve_right ?_
    rw [none _ moved]
    exact Bool.false_ne_true
  · rw [Nat.max_eq_left behind]
    exact if_neg (Nat.not_lt_of_le behind)

/-- With a visible page behind, the page before is the nearest one. -/
theorem isGreatest_previousIndex (more : ∃ i, i < index ∧ e.pageVisible s i = true) :
    IsGreatest {i | i < index ∧ e.pageVisible s i = true} (e.previousIndex s index) := by
  obtain ⟨i, before, visible⟩ := more
  obtain ⟨index, rfl⟩ := Nat.exists_eq_add_one_of_ne_zero (Nat.ne_zero_of_lt before)
  obtain ⟨moved, passed, stops⟩ := previousIndex_spec e s index
  have nearest : ∀ j, j < index + 1 → e.pageVisible s j = true → j ≤ e.previousIndex s (index + 1) := by
    intro j before visible
    by_contra not
    rw [passed j (Nat.lt_of_not_le not) (Nat.le_of_lt_succ before)] at visible
    cases visible
  refine ⟨⟨Nat.lt_succ_of_le moved, ?_⟩, fun j mem => nearest j mem.1 mem.2⟩
  rcases stops with first | stops
  · have same : i = e.previousIndex s (index + 1) := by
      have := nearest i before visible
      omega
    rwa [same] at visible
  · exact stops

/-- Without a visible page behind, the page before is the first one. -/
theorem previousIndex_of_none (none : ∀ i, i < index → e.pageVisible s i = false) : e.previousIndex s index = 0 := by
  cases index with
  | zero => rfl
  | succ index =>
    obtain ⟨moved, -, stops⟩ := previousIndex_spec e s index
    refine stops.resolve_right ?_
    rw [none _ (Nat.lt_succ_of_le moved)]
    exact Bool.false_ne_true

/-! ## Moves onto a hidden page -/

theorem nextIndex_hidden_iff : e.nextIndex s index ≠ index ∧ e.pageVisible s (e.nextIndex s index) = false ↔
    (∀ i, index < i → e.pageVisible s i = false) ∧ index < e.survey.pages.length - 1 := by
  constructor
  · rintro ⟨moved, hidden⟩
    have none : ∀ i, index < i → e.pageVisible s i = false := by
      intro i later
      rw [← Bool.not_eq_true]
      intro visible
      have nearest := (isLeast_nextIndex ⟨i, later, visible⟩).1.2
      rw [hidden] at nearest
      cases nearest
    have last := nextIndex_of_none none
    refine ⟨none, ?_⟩
    omega
  · rintro ⟨none, ahead⟩
    rw [nextIndex_of_none none, Nat.max_eq_right (Nat.le_of_lt ahead)]
    exact ⟨Nat.ne_of_gt ahead, none _ ahead⟩

theorem previousIndex_hidden_iff :
    e.previousIndex s index ≠ index ∧ e.pageVisible s (e.previousIndex s index) = false ↔
      (∀ i, i < index → e.pageVisible s i = false) ∧ 0 < index := by
  constructor
  · rintro ⟨moved, hidden⟩
    have none : ∀ i, i < index → e.pageVisible s i = false := by
      intro i before
      rw [← Bool.not_eq_true]
      intro visible
      have nearest := (isGreatest_previousIndex ⟨i, before, visible⟩).1.2
      rw [hidden] at nearest
      cases nearest
    refine ⟨none, Nat.pos_of_ne_zero ?_⟩
    rintro rfl
    exact moved (previousIndex_of_none none)
  · rintro ⟨none, behind⟩
    rw [previousIndex_of_none none]
    exact ⟨Nat.ne_of_lt behind, none 0 behind⟩

end

/-- With a visible page ahead, going on leads to the nearest one; without one it leads to the last page.  With a
visible page behind, going back leads to the nearest one; without one it leads to the first page.  So either moves onto
a hidden page exactly if no page in its direction is visible and the page at the end is still to come. -/
theorem paging_passes_hidden (n : Navigator) :
    (e.hasVisibleAfter s n.index = true →
      IsLeast {i | n.index < i ∧ e.pageVisible s i = true} (e.goOn s n).index) ∧
    (e.hasVisibleAfter s n.index = false → (e.goOn s n).index = max n.index (e.survey.pages.length - 1)) ∧
    ((e.goOn s n).index ≠ n.index ∧ e.pageVisible s (e.goOn s n).index = false ↔
      e.hasVisibleAfter s n.index = false ∧ n.index < e.survey.pages.length - 1) ∧
    ((∃ i, i < n.index ∧ e.pageVisible s i = true) →
      IsGreatest {i | i < n.index ∧ e.pageVisible s i = true} (e.goBack s n).index) ∧
    ((∀ i, i < n.index → e.pageVisible s i = false) → (e.goBack s n).index = 0) ∧
    ((e.goBack s n).index ≠ n.index ∧ e.pageVisible s (e.goBack s n).index = false ↔
      (∀ i, i < n.index → e.pageVisible s i = false) ∧ 0 < n.index) := by
  rw [hasVisibleAfter_iff, hasVisibleAfter_eq_false_iff]
  exact ⟨isLeast_nextIndex, nextIndex_of_none, nextIndex_hidden_iff, isGreatest_previousIndex, previousIndex_of_none,
    previousIndex_hidden_iff⟩

end Engine

/-! ## A survey with hidden ends -/

namespace Booklet

/-- Three pages, of which the first and the last are shown for great answers on the second. -/
def document : Value :=
  Sample.fields [("pages", .sequence [
    Sample.fields [("name", .text "p1"), ("visibleIf", .text "{a} > 5")],
    Sample.fields [("name", .text "p2"), ("elements", .sequence [Sample.fields [("name", .text "a")]])],
    Sample.fields [("name", .text "p3"), ("visibleIf", .text "{a} > 5")]])]

def survey : Survey :=
  match Survey.ofDocument document with
  | .ok survey => survey
  | .error _ => ⟨.undefined, .undefined, .undefined, [], [], []⟩

theorem loaded : Survey.ofDocument document = .ok survey := rfl

def great : Expr := .binary (.relation .greater) (.reference "a") (.literal (Sample.whole 5))

theorem bound : survey.bindings = .ok ([
    ⟨.visibleIf, "p1", .page, .visibleIf, great, "{a} > 5", 0, none, .undefined, ["a"]⟩,
    ⟨.visibleIf, "p3", .page, .visibleIf, great, "{a} > 5", 1, none, .undefined, ["a"]⟩], []) := by
  have rules : Rule.ofSurvey survey = [⟨.visibleIf, "p1", .page, .visibleIf, .text "{a} > 5", .undefined, .undefined⟩,
      ⟨.visibleIf, "p3", .page, .visibleIf, .text "{a} > 5", .undefined, .undefined⟩] := rfl
  have parsed : Expr.ofText "{a} > 5" = .ok great := by cbv
  rw [Survey.bindings, rules]
  simp [Rule.compile, Rule.parse, parsed, Value.truthy, bind, Except.bind, pure, Except.pure]
  rfl

/-- The page that a session is on, how many pages there are, and which of them are visible. -/
def seen (e : Engine) (s : Session) : Option Nat × Nat × List Bool :=
  (s.navigator.map (·.index), e.survey.pages.length, [0, 1, 2].map (e.pageVisible s))

/-- A session opens on the first page, and only the second one is visible. -/
theorem opened : ∃ e s n, Engine.start survey Sample.settings [] true = .ok (e, s) ∧ s.navigator = some n ∧
    n.index = 0 ∧ e.survey.pages.length = 3 ∧
    e.pageVisible s 0 = false ∧ e.pageVisible s 1 = true ∧ e.pageVisible s 2 = false := by
  obtain ⟨⟨e, s⟩, begun, shown⟩ : ∃ r, Engine.start survey Sample.settings [] true = .ok r ∧
      seen r.1 r.2 = (some 0, 3, [false, true, false]) := by
    refine Outcome.exists_of_map ?_
    rw [Engine.start, bound]
    decide +kernel
  simp only [seen, List.map_cons, List.map_nil, Prod.mk.injEq, List.cons.injEq] at shown
  obtain ⟨place, pages, first, second, third, -⟩ := shown
  obtain ⟨n, navigator, here⟩ := Option.map_eq_some_iff.mp place
  exact ⟨e, s, n, begun, navigator, here, pages, first, second, third⟩

end Booklet

namespace Engine

/-- From its hidden first page a session goes on to the nearest visible one. -/
theorem booklet_goes_on : ∃ e s n, start Booklet.survey Sample.settings [] true = .ok (e, s) ∧ s.navigator = some n ∧
    e.hasVisibleAfter s n.index = true ∧
    IsLeast {i | n.index < i ∧ e.pageVisible s i = true} (e.goOn s n).index := by
  obtain ⟨e, s, n, begun, navigator, here, -, -, second, -⟩ := Booklet.opened
  have more : e.hasVisibleAfter s n.index = true := by
    refine (hasVisibleAfter_iff e s).mpr ⟨1, ?_, second⟩
    rw [here]
    exact Nat.one_pos
  exact ⟨e, s, n, begun, navigator, more, (paging_passes_hidden e s n).1 more⟩

/-- From its only visible page a session goes on to the hidden last page and back to the hidden first one. -/
theorem booklet_enters_hidden : Survey.ofDocument Booklet.document = .ok Booklet.survey ∧
    (Booklet.survey.pages.map (·.name) ++ Booklet.survey.questions.map (·.name)).Nodup ∧
    ∃ e s n, start Booklet.survey Sample.settings [] true = .ok (e, s) ∧ s.navigator = some n ∧
      (e.goOn s n).index = 1 ∧ e.hasVisibleAfter s (e.goOn s n).index = false ∧
      (e.goOn s (e.goOn s n)).index = 2 ∧ e.pageVisible s 2 = false ∧
      (e.goBack s (e.goOn s n)).index = 0 ∧ e.pageVisible s 0 = false := by
  obtain ⟨e, s, n, begun, navigator, here, pages, first, second, third⟩ := Booklet.opened
  have onto : (e.goOn s n).index = 1 := by
    simp [goOn, nextIndex, firstVisible, here, pages, second]
  have none : ∀ i, 1 < i → e.pageVisible s i = false := by
    intro i later
    rw [← Bool.not_eq_true]
    intro visible
    have within := lt_length_of_pageVisible visible
    rw [pages] at within
    obtain rfl : i = 2 := by omega
    rw [third] at visible
    cases visible
  refine ⟨Booklet.loaded, by decide, e, s, n, begun, navigator, onto, ?more, ?next, third, ?previous, first⟩
  case more =>
    rw [onto]
    exact (hasVisibleAfter_eq_false_iff e s).mpr none
  case next =>
    show e.nextIndex s (e.goOn s n).index = 2
    rw [onto, nextIndex_of_none none, pages]
    rfl
  case previous =>
    show e.previousIndex s (e.goOn s n).index = 0
    rw [onto]
    rfl

end Engine

end Questionnaire
