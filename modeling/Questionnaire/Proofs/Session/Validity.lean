import Questionnaire.Proofs.Session.Paging
import Questionnaire.Session.Validation

/-!
# Valid answers

The respondent may go on from every page exactly if the whole survey is without errors.  Then no required answer is
missing: a question that counts lies on a page that counts, so that its page was looked at, and a page that asks for an
answer has one.
-/
namespace Questionnaire

/-- Lists that are gathered one by one are all empty if nothing is gathered. -/
theorem Outcome.flatten_eq_nil_iff {ε α β : Type} {f : α → Except ε (List β)} {xs : List α} {gathered : List (List β)}
    (h : xs.mapM f = .ok gathered) : gathered.flatten = [] ↔ ∀ x ∈ xs, f x = .ok [] := by
  have pairs := forall₂_of_mapM h
  clear h
  induction pairs with
  | nil => simp
  | @cons x found xs gathered first _ ih =>
    rw [List.flatten_cons, List.append_eq_nil_iff, List.forall_mem_cons, first, Except.ok.injEq]
    exact and_congr_right fun _ => ih

/-- A question takes an answer if it holds no others and is not of a kind that groups others. -/
theorem Question.isContainer_eq_false_iff {q : Question} : q.isContainer = false ↔
    q.elements = [] ∧ q.kind ≠ .text "panel" ∧ q.kind ≠ .text "paneldynamic" := by
  unfold isContainer
  rw [Bool.or_eq_false_iff, Bool.not_eq_false', List.isEmpty_iff]
  refine and_congr_right fun _ => ?_
  split
  · rename_i kind same
    simp [same]
  · rename_i other
    exact iff_of_true rfl ⟨other _, other _⟩

namespace Engine

variable {e : Engine} {s : Session} {p : Page} {q : Question}

/-! ## Errors, place by place -/

/-- A complaint is never silent. -/
theorem complaint_ne_nil (rest : String) : complaint q rest ≠ .ok [] := by
  intro silent
  obtain ⟨title, -, same⟩ := Outcome.bind_eq_ok.mp silent
  cases same

/-- A question that counts, takes an answer and has to have one has it, if nothing is said about the question. -/
theorem answered_of_questionErrors (none : e.questionErrors s q = .ok []) (single : q.isContainer = false)
    (visible : e.isVisible s q.name = true) (enabled : e.isEnabled s q.name = true)
    (required : e.isRequired s q.name = true) : (s.value q.name).isEmpty = false := by
  rw [Bool.eq_false_iff]
  intro empty
  unfold questionErrors at none
  simp only [single, visible, enabled, empty, required] at none
  exact complaint_ne_nil _ none

/-- A page is without errors if its questions are, and if it has an answer where it asks for one. -/
theorem pageErrors_eq_nil_iff : e.pageErrors s p = .ok [] ↔
    (∀ q ∈ p.questions, e.questionErrors s q = .ok []) ∧
      (e.isRequired s p.name = true → e.isSatisfied s p.name = true) := by
  unfold pageErrors
  constructor
  · intro h
    obtain ⟨gathered, each, h⟩ := Outcome.bind_eq_ok.mp h
    dsimp only at h
    split at h
    · have some (name : Except Fault String) :
          (do return gathered.flatten ++ [(← name) ++ " requires at least one answer"]) ≠ .ok [] := by
        intro silent
        obtain ⟨name, -, same⟩ := Outcome.bind_eq_ok.mp silent
        simpa using Except.ok.inj same
      split at h
      · exact absurd h (some _)
      · exact absurd h (some (pure p.name))
    · rename_i satisfied
      refine ⟨(Outcome.flatten_eq_nil_iff each).mp (Except.ok.inj h), ?_⟩
      intro required
      simpa [required] using satisfied
  · rintro ⟨each, satisfied⟩
    obtain ⟨gathered, found⟩ := Outcome.exists_mapM.mpr fun q mem => ⟨_, each q mem⟩
    rw [found]
    have none := (Outcome.flatten_eq_nil_iff found).mpr each
    have quiet : (e.isRequired s p.name && !e.isSatisfied s p.name) = false := by
      cases required : e.isRequired s p.name with
      | false => rfl
      | true => rw [satisfied required]; rfl
    simp [bind, Except.bind, pure, Except.pure, none, quiet]

/-- A survey is without errors if its visible pages are. -/
theorem surveyErrors_eq_nil_iff {errors : List String} (ends : e.surveyErrors s = .ok errors) :
    errors = [] ↔ ∀ p ∈ e.survey.pages, e.isVisible s p.name = true → e.pageErrors s p = .ok [] := by
  obtain ⟨gathered, each, same⟩ := Outcome.bind_eq_ok.mp ends
  rw [← Except.ok.inj same, Outcome.flatten_eq_nil_iff each]
  simp only [List.mem_filter, and_imp]

/-- The respondent may go on from a page that is hidden or without errors. -/
theorem canGoOn_iff (n : Navigator) : e.canGoOn s n = .ok true ↔
    ∀ p, e.currentPage? n = some p → e.isVisible s p.name = true → e.pageErrors s p = .ok [] := by
  unfold canGoOn
  cases current : e.currentPage? n with
  | none => simp [pure, Except.pure]
  | some p =>
    dsimp only
    cases visible : e.isVisible s p.name with
    | false => simp [visible, pure, Except.pure]
    | true =>
      cases found : e.pageErrors s p with
      | ok errors => simp [visible, found, bind, Except.bind, pure, Except.pure]
      | error fault => simp [visible, found, bind, Except.bind]

/-! ## Where a question counts, its page counts -/

section

variable {survey : Survey} {settings : Settings} {bindings : List Binding} {problems : List Diagnostic}
variable {outside : Value → Prop}
variable (bound : survey.bindings = .ok (bindings, problems)) (engine : e = ofBindings survey settings bindings)
variable (distinct : survey.questionNames.Nodup) (names : survey.names.Nodup)
variable (standing : Standing survey e outside s)
include bound engine distinct names standing

/-- A visible question is on a visible page. -/
theorem isVisible_page (apart : ∀ p ∈ survey.pages, p.name ∉ survey.questionNames) (hp : p ∈ survey.pages)
    (hq : q ∈ p.questions) (visible : e.isVisible s q.name = true) : e.isVisible s p.name = true := by
  have holds : survey.Contains p.name q.name :=
    Or.inl ⟨p, hp, rfl, Survey.holds_iff.mpr (List.mem_map_of_mem hq)⟩
  have question : q.name ∈ survey.names :=
    Survey.mem_names.mpr (Or.inr (List.mem_map_of_mem (List.mem_flatMap.mpr ⟨p, hp, hq⟩)))
  have all := (isVisible_iff bound engine names standing distinct question).mp visible
  refine (isVisible_iff bound engine names standing distinct holds.mem_names).mpr ?_
  rintro y (rfl | contains)
  · exact all p.name (Or.inr holds)
  · exact absurd contains.mem_questionNames (apart p hp)

end

/-- After every run that ended normally, and if checking the answers comes to an end: the survey is without errors
exactly if the respondent may go on from each page.  If it is, then every question that takes an answer and is visible,
enabled and required has one, however deep it lies; and every visible page whose condition for an answer holds has a
question with an answer. -/
theorem errors_agree_with_pages {document : Value} {survey : Survey} (loaded : Survey.ofDocument document = .ok survey)
    (pages : (survey.pages.map (·.name)).Nodup) (apart : ∀ p ∈ survey.pages, p.name ∉ survey.questionNames)
    {settings : Settings} {given : Fields} {navigator : Bool} {writes : List (Value × Value)} {e : Engine}
    {s : Session} (run : play survey settings given navigator writes = .ok (e, s)) {errors : List String}
    (ends : e.surveyErrors s = .ok errors) :
    (∀ n : Navigator, errors = [] ↔
      ∀ i, i < survey.pages.length → e.canGoOn s { n with index := i } = .ok true) ∧
    (errors = [] →
      (∀ q ∈ survey.questions, q.elements = [] → q.kind ≠ .text "panel" → q.kind ≠ .text "paneldynamic" →
        e.isVisible s q.name = true → e.isEnabled s q.name = true → e.isRequired s q.name = true →
        (s.value q.name).isEmpty = false) ∧
      ∀ p ∈ survey.pages, e.isVisible s p.name = true → e.OneHolds s .requiredIf p.name →
        ∃ q ∈ p.questions, (s.value q.name).isEmpty = false) := by
  obtain ⟨bindings, problems, bound, engine, standing⟩ :=
    standing_of_play run (fun _ => True) (fun _ _ => trivial) fun _ _ => trivial
  have distinct := Survey.nodup_of_ofDocument loaded
  have names := Survey.nodup_names pages distinct apart
  have same : e.survey = survey := by
    rw [engine]
    rfl
  have valid := same ▸ surveyErrors_eq_nil_iff ends
  refine ⟨?agree, ?answered⟩
  case agree =>
    intro n
    rw [valid]
    constructor
    · intro each i within
      rw [canGoOn_iff]
      intro p here
      rw [currentPage?, same] at here
      exact each p (List.mem_of_getElem? here)
    · intro each p hp
      obtain ⟨i, within, rfl⟩ := List.getElem_of_mem hp
      refine (canGoOn_iff _).mp (each i within) _ ?_
      rw [currentPage?, same]
      exact List.getElem?_eq_getElem within
  case answered =>
    intro none
    have each := valid.mp none
    refine ⟨?questions, ?pages⟩
    case questions =>
      intro q hq leaf panel repeated visible enabled required
      obtain ⟨p, hp, hq⟩ := List.mem_flatMap.mp hq
      have shown := isVisible_page bound engine distinct names standing apart hp hq visible
      have single := Question.isContainer_eq_false_iff.mpr ⟨leaf, panel, repeated⟩
      exact answered_of_questionErrors ((pageErrors_eq_nil_iff.mp (each p hp shown)).1 q hq) single visible enabled
        required
    case pages =>
      intro p hp visible holds
      have required := (isRequired_page_iff bound engine names standing hp).mpr holds
      have satisfied := (pageErrors_eq_nil_iff.mp (each p hp visible)).2 required
      rw [isSatisfied, engine, find?_pages settings bindings pages hp, List.any_eq_true] at satisfied
      obtain ⟨q, hq, answered⟩ := satisfied
      exact ⟨q, hq, by simpa using answered⟩

end Engine

/-! ## A survey that is filled in -/

namespace Enrolment

/-- A page that asks for an answer when its first question has a great one, and then shows a panel with a question that
has to be answered; and a page with another such question, which is shown for small answers. -/
def document : Value :=
  Sample.fields [("pages", .sequence [
    Sample.fields [("name", .text "p1"), ("requiredIf", .text "{a} > 5"), ("elements", .sequence [
      Sample.fields [("name", .text "a")],
      Sample.fields [("name", .text "d"), ("type", .text "panel"), ("visibleIf", .text "{a} > 5"),
        ("elements", .sequence [Sample.fields [("name", .text "q"), ("isRequired", .boolean true)]])]])],
    Sample.fields [("name", .text "p2"), ("visibleIf", .text "{a} < 5"), ("elements", .sequence [
      Sample.fields [("name", .text "r"), ("isRequired", .boolean true)]])]])]

def survey : Survey :=
  match Survey.ofDocument document with
  | .ok survey => survey
  | .error _ => ⟨.undefined, .undefined, .undefined, [], [], []⟩

theorem loaded : Survey.ofDocument document = .ok survey := rfl

def small : Expr := .binary (.relation .less) (.reference "a") (.literal (Sample.whole 5))

def bindings : List Binding := [
  ⟨.requiredIf, "p1", .page, .requiredIf, Booklet.great, "{a} > 5", 0, none, .undefined, ["a"]⟩,
  ⟨.visibleIf, "d", .question, .visibleIf, Booklet.great, "{a} > 5", 1, none, .undefined, ["a"]⟩,
  ⟨.visibleIf, "p2", .page, .visibleIf, small, "{a} < 5", 2, none, .undefined, ["a"]⟩]

theorem bound : survey.bindings = .ok (bindings, []) := by
  have rules : Rule.ofSurvey survey = [⟨.requiredIf, "p1", .page, .requiredIf, .text "{a} > 5", .undefined, .undefined⟩,
      ⟨.visibleIf, "d", .question, .visibleIf, .text "{a} > 5", .undefined, .undefined⟩,
      ⟨.visibleIf, "p2", .page, .visibleIf, .text "{a} < 5", .undefined, .undefined⟩] := rfl
  have first : Expr.ofText "{a} > 5" = .ok Booklet.great := by cbv
  have second : Expr.ofText "{a} < 5" = .ok small := by cbv
  rw [Survey.bindings, rules]
  simp [Rule.compile, Rule.parse, first, second, Value.truthy, bind, Except.bind, pure, Except.pure]
  rfl

/-- The question of the panel. -/
def inner : Question := survey.questions.get ⟨2, by decide⟩

theorem inner_mem : inner ∈ survey.questions := List.get_mem _ _

/-- The errors of a session, and whether the question of the panel counts. -/
def seen (e : Engine) (s : Session) : Option (List String) × Bool × Bool × Bool :=
  ((e.surveyErrors s).toOption, e.isVisible s "q", e.isEnabled s "q", e.isRequired s "q")

/-- Both questions of the first page are answered in turn, and then there are no errors. -/
theorem played : ∃ r, Engine.play survey Sample.settings (Sample.wholes [("a", 1)]) false
      [(.text "a", Sample.whole 8), (.text "q", Sample.whole 0)] = .ok r ∧
    seen r.1 r.2 = (some [], true, true, true) := by
  refine Outcome.exists_of_map ?_
  rw [Engine.play, Engine.start, bound]
  decide +kernel

end Enrolment

namespace Engine

/-- Zero is an answer: with it the respondent may go on from both pages, of which the second is hidden. -/
theorem enrolment_complete : ∃ e s, play Enrolment.survey Sample.settings (Sample.wholes [("a", 1)]) false
      [(.text "a", Sample.whole 8), (.text "q", Sample.whole 0)] = .ok (e, s) ∧
    e.surveyErrors s = .ok [] ∧ (∀ i, i < 2 → e.canGoOn s { index := i } = .ok true) ∧
    e.isRequired s "q" = true ∧ (s.value "q").isEmpty = false := by
  obtain ⟨⟨e, s⟩, run, shown⟩ := Enrolment.played
  simp only [Enrolment.seen, Prod.mk.injEq] at shown
  obtain ⟨none, visible, enabled, required⟩ := shown
  have ends : e.surveyErrors s = .ok [] := by
    cases found : e.surveyErrors s with
    | ok errors =>
      rw [found] at none
      exact congrArg Except.ok (Option.some.inj none)
    | error fault =>
      rw [found] at none
      cases none
  obtain ⟨agree, answered⟩ := errors_agree_with_pages Enrolment.loaded (by decide) (by decide) run ends
  have leaf : Enrolment.inner.name = "q" ∧ Enrolment.inner.elements = [] ∧ Enrolment.inner.kind = .text "text" :=
    ⟨rfl, rfl, rfl⟩
  obtain ⟨name, alone, kind⟩ := leaf
  refine ⟨e, s, run, ends, (agree {}).mp rfl, required, ?_⟩
  have found := (answered rfl).1 Enrolment.inner Enrolment.inner_mem alone (by simp [kind]) (by simp [kind])
  rw [name] at found
  exact found visible enabled required

end Engine

end Questionnaire
