import Mathlib.Data.List.Flatten
import Mathlib.Data.List.Perm.Basic
import Questionnaire.Proofs.Logic.Reach
import Questionnaire.Proofs.Outcome

/-!
# The bindings of a survey

The bindings of a survey are numbered, and each reads at least what its expression refers to.  A binding that sets a
flag is the only one that sets it, as long as no two pages or questions share a name: every page and question has
at most one rule for each flag.
-/
namespace Questionnaire

/-! ## Compiling a rule -/

namespace Binding

/-- The place in which a binding shows something: a flag of its owner, or the answer. -/
def target (b : Binding) : String × Option BindingKind := (b.owner, if b.writesValue then none else some b.kind)

/-- The questions that the expression of a binding refers to are among those that the binding reads. -/
def Declared (b : Binding) : Prop := b.expression.references ⊆ b.references

end Binding

namespace Rule

/-- The place in which the binding of a rule shows something. -/
def target (r : Rule) : String × Option BindingKind := (r.owner, if r.kind.writesValue then none else some r.kind)

theorem parse_problems {owner : String} {property : Property} {source : Value} {x : Option Expr}
    {problems : List Diagnostic} (h : parse owner property source = .ok (x, problems)) :
    ∀ d ∈ problems, ∃ error, d.problem = .source error := by
  unfold parse at h
  split at h
  · split at h
    · cases h
      intro d hd
      exact absurd hd List.not_mem_nil
    · rename_i error _
      cases h
      intro d hd
      exact ⟨error, by rw [List.mem_singleton.mp hd]⟩
  · cases h

/-- What compiling a rule gives. -/
theorem compile_ok {r : Rule} {binding : Option Binding} {problems : List Diagnostic}
    (h : r.compile = .ok (binding, problems)) :
    (∀ b ∈ binding, b.target = r.target ∧ b.Declared) ∧ ∀ d ∈ problems, ∃ error, d.problem = .source error := by
  unfold compile at h
  obtain ⟨⟨x, found⟩, parsed, h⟩ := Outcome.bind_eq_ok.mp h
  simp only at h
  split at h
  all_goals
    obtain ⟨⟨gate, gateFound⟩, gateParsed, h⟩ := Outcome.bind_eq_ok.mp h
    cases h
    refine ⟨?_, ?_⟩
    · intro b hb
      obtain ⟨e, -, hb⟩ := Option.bind_eq_some_iff.mp hb
      split at hb
      · cases hb
      · cases hb
        exact ⟨rfl, fun name hname => Names.mem_union.mpr (Or.inl hname)⟩
    · intro d hd
      rcases List.mem_append.mp hd with old | new
      · exact parse_problems parsed d old
      · first
        | exact parse_problems gateParsed d new
        | cases gateParsed; exact absurd new List.not_mem_nil

/-- A binding is of the kind of its rule and in its place, and has no gate if the rule has none. -/
theorem like_of_compile {r : Rule} {b : Binding} {problems : List Diagnostic}
    (h : r.compile = .ok (some b, problems)) :
    b.kind = r.kind ∧ (b.owner, b.property) = (r.owner, r.property) ∧ (r.gate.truthy = false → b.gate = none) := by
  unfold compile at h
  obtain ⟨⟨x, _⟩, -, h⟩ := Outcome.bind_eq_ok.mp h
  simp only at h
  split at h
  case isTrue gated =>
    obtain ⟨⟨gate, _⟩, -, h⟩ := Outcome.bind_eq_ok.mp h
    have h := congrArg Prod.fst (Except.ok.inj h)
    obtain ⟨e, -, h⟩ := Option.bind_eq_some_iff.mp h
    split at h
    · cases h
    · cases h
      exact ⟨rfl, rfl, fun none => by simp [gated] at none⟩
  case isFalse =>
    obtain ⟨⟨gate, _⟩, same, h⟩ := Outcome.bind_eq_ok.mp h
    cases same
    have h := congrArg Prod.fst (Except.ok.inj h)
    obtain ⟨e, -, h⟩ := Option.bind_eq_some_iff.mp h
    split at h
    · cases h
    · cases h
      exact ⟨rfl, rfl, fun _ => rfl⟩

/-! ## One rule for each flag -/

/-- The rules of a page or question for its flags. -/
def flags (owner : String) (ownerKind : OwnerKind) (properties : Properties) : List Rule :=
  plain owner ownerKind properties .visibleIf .visibleIf ++ plain owner ownerKind properties .enableIf .enableIf ++
  plain owner ownerKind properties .requiredIf .requiredIf

/-- The places of the flags of an owner. -/
def flagPlaces (owner : String) : List (String × Option BindingKind) :=
  [(owner, some .visibleIf), (owner, some .enableIf), (owner, some .requiredIf)]

section

variable {owner : String} {ownerKind : OwnerKind} {properties : Properties}

theorem target_plain_sublist (kind : BindingKind) (property : Property) :
    ((plain owner ownerKind properties kind property).map target).Sublist
      [(owner, if kind.writesValue then none else some kind)] := by
  unfold plain
  simp only
  split
  · exact List.Sublist.refl _
  · exact List.nil_sublist _

theorem filter_plain_of_writesValue (kind : BindingKind) (writes : kind.writesValue = true) (property : Property) :
    ((plain owner ownerKind properties kind property).map target).filter (·.2.isSome) = [] := by
  unfold plain
  simp only
  split
  · simp [target, writes]
  · rfl

theorem target_flags_sublist :
    ((flags owner ownerKind properties).map target).Sublist (flagPlaces owner) := by
  rw [flags, List.map_append, List.map_append]
  exact ((target_plain_sublist .visibleIf .visibleIf).append (target_plain_sublist .enableIf .enableIf)).append
    (target_plain_sublist .requiredIf .requiredIf)

end

/-- Besides its flags a question has rules for its answer alone. -/
theorem filter_target_ofQuestion (q : Question) :
    ((ofQuestion q).map target).filter (·.2.isSome) =
      ((flags q.name .question q.properties).map target).filter (·.2.isSome) := by
  have setting : ((setting q).map target).filter (·.2.isSome) = [] := by
    unfold setting
    simp only
    split
    · rfl
    · split
      · rfl
      · rfl
  have computed : ((if isComputed q then plain q.name .question q.properties .setValueExpression .expression
      else []).map target).filter (·.2.isSome) = [] := by
    split
    · exact filter_plain_of_writesValue _ rfl _
    · rfl
  simp only [ofQuestion, flags, List.map_append, List.filter_append, setting, computed, List.append_nil]
  rw [filter_plain_of_writesValue .defaultValueExpression rfl, filter_plain_of_writesValue .resetValueIf rfl,
    List.append_nil, List.append_nil]

end Rule

namespace Survey

/-- The names of all pages and questions, each page before its questions. -/
def names (s : Survey) : List String := s.pages.flatMap fun p => p.name :: p.questions.map (·.name)

/-- No two pages or questions share a name if no two pages do, no two questions do, and no page shares one with a
question. -/
theorem nodup_names {s : Survey} (pages : (s.pages.map (·.name)).Nodup) (questions : s.questionNames.Nodup)
    (apart : ∀ p ∈ s.pages, p.name ∉ s.questionNames) : s.names.Nodup := by
  have perm : (s.pages.map (·.name) ++ s.questionNames).Perm s.names := by
    rw [questionNames, Survey.questions, List.map_flatMap]
    exact List.map_append_flatMap_perm s.pages (·.name) fun p => p.questions.map (·.name)
  refine perm.nodup_iff.mp (List.nodup_append'.mpr ⟨pages, questions, ?_⟩)
  intro name hp hq
  obtain ⟨p, mem, rfl⟩ := List.mem_map.mp hp
  exact apart p mem hq

/-- The places of the flags of all rules are among those of the pages and questions, each once. -/
theorem filter_target_sublist (s : Survey) :
    (((Rule.ofSurvey s).map Rule.target).filter (·.2.isSome)).Sublist (s.names.flatMap Rule.flagPlaces) := by
  have flags (owner : String) (ownerKind : OwnerKind) (properties : Properties) :
      (((Rule.flags owner ownerKind properties).map Rule.target).filter (·.2.isSome)).Sublist
        (Rule.flagPlaces owner) :=
    List.filter_sublist.trans Rule.target_flags_sublist
  rw [Rule.ofSurvey, names, List.map_flatMap, List.filter_flatMap, List.flatMap_assoc]
  refine List.Sublist.flatMap_right _ ?_
  intro p _
  rw [List.map_append, List.filter_append, List.flatMap_cons, List.flatMap_map]
  refine (flags p.name .page p.properties).append ?_
  rw [List.map_flatMap, List.filter_flatMap]
  refine List.Sublist.flatMap_right _ ?_
  intro q _
  rw [Rule.filter_target_ofQuestion]
  exact flags q.name .question q.properties

end Survey

/-! ## Numbered bindings -/

namespace Rule

/-- What does not look at numbers is the same after numbering. -/
theorem map_number {α : Type} {g : Binding → α} (blind : ∀ (b : Binding) (i : Nat), g { b with order := i } = g b)
    (bindings : List Binding) : (number bindings).map g = bindings.map g := by
  refine List.ext_getElem? ?_
  intro i
  simp only [number, List.getElem?_map, List.getElem?_mapIdx, Option.map_map]
  exact congrArg (Option.map · _) (funext fun b => blind b i)

/-- Bindings are numbered from zero. -/
theorem map_order_number (bindings : List Binding) :
    (number bindings).map (·.order) = List.range (number bindings).length := by
  refine List.ext_getElem (by simp [number]) fun i _ _ => ?_
  simp [number]

theorem numbered_number (bindings : List Binding) : Dependencies.Numbered (number bindings) := by
  rw [Dependencies.Numbered, map_order_number]
  exact List.nodup_range

theorem exists_of_mem_number {b : Binding} {bindings : List Binding} (h : b ∈ number bindings) :
    ∃ b' ∈ bindings, ∃ i, b = { b' with order := i } := by
  obtain ⟨i, bound, rfl⟩ := List.mem_mapIdx.mp h
  exact ⟨bindings[i], List.getElem_mem bound, i, rfl⟩

/-- Compiling rules keeps the places in order, and leaves out some. -/
theorem map_target_sublist {rules : List Rule} {compiled : List (Option Binding × List Diagnostic)}
    (pairs : List.Forall₂ (fun r c => r.compile = .ok c) rules compiled) :
    ((compiled.filterMap (·.1)).map Binding.target).Sublist (rules.map target) := by
  induction pairs with
  | nil => exact List.Sublist.refl _
  | @cons r c rules compiled first _ ih =>
    obtain ⟨binding, problems⟩ := c
    cases binding with
    | none => exact ih.cons _
    | some b =>
      rw [List.map_cons, ← ((compile_ok first).1 b rfl).1]
      exact ih.cons_cons _

end Rule

namespace Survey

/-- A binding of a survey is that of one of its rules, with a number. -/
theorem exists_rule_of_bindings {s : Survey} {bindings : List Binding} {problems : List Diagnostic}
    (h : s.bindings = .ok (bindings, problems)) {b : Binding} (mem : b ∈ bindings) :
    ∃ r ∈ Rule.ofSurvey s, ∃ b' found i, r.compile = .ok (some b', found) ∧ b = { b' with order := i } := by
  obtain ⟨compiled, each, h⟩ := Outcome.bind_eq_ok.mp h
  cases h
  obtain ⟨b', made, i, rfl⟩ := Rule.exists_of_mem_number mem
  obtain ⟨⟨_, found⟩, hc, rfl⟩ := List.mem_filterMap.mp made
  obtain ⟨r, known, ok⟩ := Outcome.exists_of_mem (Outcome.forall₂_of_mapM each) hc
  exact ⟨r, known, b', found, i, ok, rfl⟩

/-- What is known of the bindings of a survey and of the diagnostics beside them. -/
structure Compiles (s : Survey) (bindings : List Binding) (problems : List Diagnostic) : Prop where
  numbered : Dependencies.Numbered bindings
  declared : ∀ b ∈ bindings, b.Declared
  places : (bindings.map Binding.target).Sublist ((Rule.ofSurvey s).map Rule.target)
  sources : ∀ d ∈ problems, ∃ error, d.problem = .source error

theorem compiles_of_bindings {s : Survey} {bindings : List Binding} {problems : List Diagnostic}
    (h : s.bindings = .ok (bindings, problems)) : s.Compiles bindings problems := by
  have declared : ∀ b ∈ bindings, b.Declared := by
    intro b mem
    obtain ⟨r, -, b', _, i, ok, rfl⟩ := exists_rule_of_bindings h mem
    exact ((Rule.compile_ok ok).1 b' rfl).2
  obtain ⟨compiled, each, h⟩ := Outcome.bind_eq_ok.mp h
  cases h
  have pairs := Outcome.forall₂_of_mapM each
  refine ⟨Rule.numbered_number _, declared, ?_, ?_⟩
  · rw [Rule.map_number (fun _ _ => rfl)]
    exact Rule.map_target_sublist pairs
  · intro d hd
    obtain ⟨⟨_, _⟩, hc, hd⟩ := List.mem_flatMap.mp hd
    obtain ⟨r, -, ok⟩ := Outcome.exists_of_mem pairs hc
    exact (Rule.compile_ok ok).2 d hd

/-- The binding of a flag is the only one for it, if no two pages or questions share a name. -/
theorem Compiles.sole {s : Survey} {bindings : List Binding} {problems : List Diagnostic}
    (compiles : s.Compiles bindings problems) (names : s.names.Nodup) {a b : Binding} (ha : a ∈ bindings)
    (hb : b ∈ bindings) (flag : a.writesValue = false) (same : b.target = a.target) : b = a := by
  have once : ((bindings.map Binding.target).filter (·.2.isSome)).Nodup := by
    refine List.Nodup.sublist ((compiles.places.filter _).trans (filter_target_sublist s)) ?_
    refine List.nodup_flatMap.mpr ⟨fun name _ => by simp [Rule.flagPlaces], names.imp fun differ => ?_⟩
    intro place hx hy
    simp only [Rule.flagPlaces, List.mem_cons, List.not_mem_nil, or_false] at hx hy
    rcases hx with rfl | rfl | rfl <;> simp_all
  have some : (Binding.target a).2.isSome = true := by simp [Binding.target, flag]
  rw [List.filter_map] at once
  refine List.inj_on_of_nodup_map once ?_ ?_ same
  · exact List.mem_filter.mpr ⟨hb, by rw [Function.comp_apply, same, some]⟩
  · exact List.mem_filter.mpr ⟨ha, some⟩

end Survey

end Questionnaire
