import Questionnaire.Proofs.Session.Run
import Questionnaire.Proofs.Session.Sources

/-!
# How a session starts, and what a run keeps

A session starts by one sweep over all bindings, after which every binding that decides alone is up to date.  From
there each write keeps it so.  Hence at the end of every run that ends normally, whatever the host and the triggers
wrote, such a binding is up to date, and flags are the initial ones but for what bindings set.
-/
namespace Questionnaire

open Act
open Session (Aside Dispatched Applied FlagsKept)

theorem Diagnostic.Authored.not_unstable {d : Diagnostic} (h : d.Authored) : ¬ d.Unstable := by
  rw [Unstable, Problem.kindName.eq_def]
  rcases h with ⟨error, found⟩ | ⟨error, found⟩
  · rw [found]
    cases error <;> simp
  · simp [found]

namespace Engine

/-- The session of an engine before any binding is applied. -/
def opening (e : Engine) (problems : List Diagnostic) (slots : List (Slot × List Diagnostic)) (given : Fields)
    (navigator : Bool) : Session where
  answers := e.initialAnswers given
  flags := initialFlags e.survey
  diagnostics := problems ++ e.dependencies.rejected.map (fun (b, error) =>
    (⟨.config error, b.owner, b.property.key, .text b.source⟩ : Diagnostic)) ++ slots.flatMap (·.2)
  slots := slots.map (·.1)
  navigator := if navigator then some {} else none

theorem allDefined_initialAnswers (e : Engine) (given : Fields) : (e.initialAnswers given).AllDefined := by
  refine List.foldlRecOn (motive := Fields.AllDefined) _ _ ?_ ?_
  · intro entry h
    exact (List.mem_filter.mp h).2
  · intro answers all c _
    simp only
    split
    · rename_i literal
      exact all.set (Bool.and_eq_true_iff.mp literal).2
    · exact all

theorem start_ok {survey : Survey} {settings : Settings} {given : Fields} {navigator : Bool} {e : Engine}
    {s : Session} (h : start survey settings given navigator = .ok (e, s)) :
    ∃ bindings problems slots,
      survey.bindings = .ok (bindings, problems) ∧
      (survey.triggers.mapIdx Slot.ofTrigger).mapM id = .ok slots ∧
      e = ofBindings survey settings bindings ∧
      e.applyAll (e.opening problems slots given navigator) = .ok () s := by
  obtain ⟨⟨bindings, problems⟩, compiled, h⟩ := Outcome.bind_eq_ok.mp h
  obtain ⟨slots, each, h⟩ := Outcome.bind_eq_ok.mp h
  refine ⟨bindings, problems, slots, compiled, each, ?_⟩
  simp only at h
  split at h
  · rename_i ended
    cases h
    exact ⟨rfl, ended⟩
  · cases h

/-- A survey whose bindings and triggers are read starts as its engine applies all bindings. -/
theorem start_of_applyAll {survey : Survey} {settings : Settings} {given : Fields} {navigator : Bool}
    {bindings : List Binding} {problems : List Diagnostic} {slots : List (Slot × List Diagnostic)} {s : Session}
    (bound : survey.bindings = .ok (bindings, problems))
    (each : (survey.triggers.mapIdx Slot.ofTrigger).mapM id = .ok slots)
    (ended : (ofBindings survey settings bindings).applyAll
      ((ofBindings survey settings bindings).opening problems slots given navigator) = .ok () s) :
    start survey settings given navigator = .ok (ofBindings survey settings bindings, s) := by
  rw [start, bound]
  simp only [bind, Except.bind]
  rw [each]
  simp only
  split
  · rename_i run
    cases run.symm.trans ended
    rfl
  · rename_i run
    cases run.symm.trans ended

/-- A session that starts and goes on in one action does so in two. -/
theorem exists_start_of_run {β : Type} {survey : Survey} {settings : Settings} {given : Fields} {navigator : Bool}
    {bindings : List Binding} {problems : List Diagnostic} {slots : List (Slot × List Diagnostic)}
    (bound : survey.bindings = .ok (bindings, problems))
    (each : (survey.triggers.mapIdx Slot.ofTrigger).mapM id = .ok slots) {f : Unit → Act β} {b : β} {s : Session}
    (run : ((ofBindings survey settings bindings).applyAll >>= f)
      ((ofBindings survey settings bindings).opening problems slots given navigator) = .ok b s) :
    ∃ s₀, start survey settings given navigator = .ok (ofBindings survey settings bindings, s₀) ∧
      f ⟨⟩ s₀ = .ok b s := by
  cases primed : (ofBindings survey settings bindings).applyAll
      ((ofBindings survey settings bindings).opening problems slots given navigator) with
  | error f t =>
    rw [bind_eq_of_error primed] at run
    cases run
  | ok _ s₀ =>
    rw [bind_eq_of_ok primed] at run
    exact ⟨s₀, start_of_applyAll bound each primed, run⟩

section

variable {e : Engine} {bindings : List Binding} {problems : List Diagnostic} {slots : List (Slot × List Diagnostic)}
variable {given : Fields} {navigator : Bool} (dependencies : e.dependencies = .ofBindings bindings)
variable (sources : ∀ d ∈ problems, ∃ error, d.problem = .source error)
variable (each : (e.survey.triggers.mapIdx Slot.ofTrigger).mapM id = .ok slots)
include dependencies sources each

/-- What is reported before any binding is applied is about what the author wrote, or about a binding that feeds back
into itself. -/
theorem opening_reports : ∀ d ∈ (e.opening problems slots given navigator).diagnostics,
    d.Authored ∨ ∃ label path owner, d.problem = .config ⟨.cycle label path, owner⟩ := by
  simp only [opening, List.forall_mem_append]
  refine ⟨⟨?_, ?_⟩, ?_⟩
  · intro d hd
    exact Or.inl (Or.inl (sources d hd))
  · intro d hd
    obtain ⟨⟨b, error⟩, rejected, rfl⟩ := List.mem_map.mp hd
    rw [dependencies] at rejected
    obtain ⟨_, _, cycle⟩ := List.mem_filterMap.mp rejected
    obtain ⟨path, _, same⟩ := Option.map_eq_some_iff.mp cycle
    cases same
    exact Or.inr ⟨_, _, _, rfl⟩
  · intro d hd
    obtain ⟨c, mem, hd⟩ := List.mem_flatMap.mp hd
    obtain ⟨_, _, -, reads⟩ := Slot.reads_of_mem each mem
    exact Or.inl (reads.problems d hd)

theorem opening_stable : ∀ d ∈ (e.opening problems slots given navigator).diagnostics, ¬ d.Unstable := by
  intro d hd
  rcases opening_reports dependencies sources each d hd with authored | ⟨_, _, _, cycle⟩
  · exact authored.not_unstable
  · rw [Diagnostic.Unstable, cycle]
    show ¬ "CyclicSetValue" = "UnstableLogic"
    decide

end

/-! ## The first sweep -/

/-- How a session stands when it has started. -/
structure Started (survey : Survey) (e : Engine) (s : Session) : Prop where
  active : s.disabled = []
  stable : ∀ d ∈ s.diagnostics, ¬ d.Unstable
  flags : FlagsKept e.dependencies.accepted (initialFlags survey) s.flags
  defined : s.answers.AllDefined
  upToDate : ∀ b, b.Decides e.dependencies.accepted → e.UpToDate s b
  allows : ∀ outside, (∀ t ∈ survey.triggers, outside t.setToName) → s.Allows outside

section

variable {e : Engine} {s t : Session}

/-- Being up to date depends on answers and flags alone. -/
theorem UpToDate.of_aside {b : Binding} (h : e.UpToDate s b) (declared : b.Declared) (aside : Aside s t) :
    e.UpToDate t b := by
  have same (name : String) : t.value name = s.value name := by
    rw [Session.value, aside.answers, Session.value]
  exact h.congr declared (fun name _ => same name) (fun _ => same b.owner) fun _ => by rw [aside.flags]

variable {bindings : List Binding} (compiled : e.Compiled bindings)
include compiled

/-- The first sweep leaves nothing to settle. -/
theorem applyAll_eq (s : Session) :
    e.applyAll s = (e.sweep [] [] e.dependencies.ordered >>= fun _ => e.prime) s := by
  refine bind_congr_of_ends ((ends_sweep_ordered compiled s).mono ?_ fun _ _ => trivial)
  intro out t h
  have settled : e.settle [] t = (pure () : Act Unit) t := by
    rw [settle_eq_pass compiled, pass, get_bind, propagation_nil]
    rfl
  simp only [h.2, bind, EStateM.bind, settled]
  rfl

theorem ends_applyAll (active : s.disabled = []) :
    Ends (fun _ t => ∃ u, Applied e.dependencies.accepted s u ∧ Dispatched u t ∧
        ∀ b, b.Decides e.dependencies.accepted → e.UpToDate u b)
      (fun _ => True) e.applyAll s := by
  have swept := (ends_sweep_ordered compiled s).and
    (ends_sweep_upToDate compiled active compiled.ordered_subset compiled.writersFirst_ordered)
  rw [Ends, applyAll_eq compiled, ← Ends, ends_bind]
  refine swept.mono ?_ fun _ _ => trivial
  intro out u h
  refine ends_prime.mono ?_ fun _ _ => trivial
  intro _ t h'
  refine ⟨u, h.1.1.mono compiled.ordered_subset, h', ?_⟩
  intro b decides
  exact h.2 b decides (Or.inl (compiled.mem_ordered.mpr decides.mem))

end

theorem compiled_ofBindings {survey : Survey} {bindings : List Binding} {problems : List Diagnostic}
    (h : survey.bindings = .ok (bindings, problems)) (settings : Settings) :
    (ofBindings survey settings bindings).Compiled bindings :=
  have compiles := Survey.compiles_of_bindings h
  ⟨rfl, compiles.numbered, compiles.declared⟩

theorem started_of_start {survey : Survey} {settings : Settings} {given : Fields} {navigator : Bool} {e : Engine}
    {s : Session} (h : start survey settings given navigator = .ok (e, s)) :
    ∃ bindings problems, survey.bindings = .ok (bindings, problems) ∧ e = ofBindings survey settings bindings ∧
      Started survey e s := by
  obtain ⟨bindings, problems, slots, bound, each, rfl, ended⟩ := start_ok h
  have compiled := compiled_ofBindings bound settings
  obtain ⟨u, applied, primed, upToDate⟩ := (ends_applyAll compiled rfl).of_ok ended
  refine ⟨bindings, problems, bound, rfl, ?_⟩
  constructor
  case active => rw [primed.aside.disabled, applied.recomputed.disabled, opening]
  case stable =>
    intro d hd
    rcases primed.aside.added d hd with old | stable
    · rcases applied.recomputed.added d old with first | ⟨failure, found⟩
      · exact opening_stable rfl (Survey.compiles_of_bindings bound).sources each d first
      · exact Diagnostic.not_unstable_of_eval found
    · exact stable
  case flags =>
    rw [primed.aside.flags]
    exact applied.flags
  case defined =>
    rw [primed.aside.answers]
    exact applied.defined (allDefined_initialAnswers _ given)
  case upToDate =>
    exact fun b decides =>
      (upToDate b decides).of_aside (compiled.mem_accepted_declared decides.mem) primed.aside
  case allows =>
    intro outside triggers
    have opened : (opening (ofBindings survey settings bindings) problems slots given navigator).Allows outside := by
      refine ⟨fun w hw => absurd hw List.not_mem_nil, ?_, fun l hl => absurd hl List.not_mem_nil⟩
      intro t ht
      obtain ⟨slot, hslot, rfl⟩ := List.mem_map.mp ht
      obtain ⟨c, mem, rfl⟩ := List.mem_map.mp hslot
      obtain ⟨_, _, known, reads⟩ := Slot.reads_of_mem each mem
      exact reads.trigger ▸ triggers _ known
    exact (opened.of_recomputed applied.recomputed).of_dispatched primed

/-- A session starts with an engine that is compiled from some bindings. -/
theorem exists_compiled {survey : Survey} {settings : Settings} {given : Fields} {navigator : Bool} {e : Engine}
    {s : Session} (h : start survey settings given navigator = .ok (e, s)) : ∃ bindings, e.Compiled bindings := by
  obtain ⟨bindings, problems, bound, rfl, -⟩ := started_of_start h
  exact ⟨bindings, compiled_ofBindings bound settings⟩

/-! ## Runs -/

/-- The bindings that decide alone are up to date, flags are the initial ones but for what bindings set, and no
undefined value is kept as an answer. -/
structure Standing (survey : Survey) (e : Engine) (outside : Value → Prop) (s : Session) : Prop
    extends e.Settled outside s where
  flags : FlagsKept e.dependencies.accepted (initialFlags survey) s.flags
  defined : s.answers.AllDefined

theorem Started.standing {survey : Survey} {e : Engine} {s : Session} (h : Started survey e s)
    (outside : Value → Prop) : Standing survey e outside s :=
  ⟨⟨h.active, fun b decides _ => h.upToDate b decides⟩, h.flags, h.defined⟩

theorem keeps_standing {e : Engine} {bindings : List Binding} (compiled : e.Compiled bindings) (survey : Survey)
    (outside : Value → Prop) : e.Keeps outside (Standing survey e outside) (fun _ => True) where
  fault _ := trivial
  aside h aside :=
    { active := aside.disabled.trans h.active
      upToDate := fun b decides quiet =>
        (h.upToDate b decides quiet).of_aside (compiled.mem_accepted_declared decides.mem) aside
      flags := aside.flags ▸ h.flags
      defined := aside.answers ▸ h.defined }
  settle {s target key} h allowed hkey v := by
    have settled := (Settled.of_store compiled h.toSettled hkey allowed v).and
      (ends_settle compiled key.text?.toList { s with answers := s.answers.put key v })
    refine settled.mono ?_ fun _ _ => trivial
    intro _ t h'
    exact ⟨h'.1, h.flags.trans h'.2.flags, h'.2.defined (h.defined.put key v)⟩

/-- After a run that ended normally the bindings that decide alone are up to date; those that write a value need that
neither the host nor a trigger writes it. -/
theorem standing_of_play {survey : Survey} {settings : Settings} {given : Fields} {navigator : Bool}
    {writes : List (Value × Value)} {e : Engine} {s : Session}
    (h : play survey settings given navigator writes = .ok (e, s)) (outside : Value → Prop)
    (host : ∀ w ∈ writes, outside w.1) (triggers : ∀ t ∈ survey.triggers, outside t.setToName) :
    ∃ bindings problems, survey.bindings = .ok (bindings, problems) ∧ e = ofBindings survey settings bindings ∧
      Standing survey e outside s := by
  obtain ⟨⟨e', s₀⟩, begun, h⟩ := Outcome.bind_eq_ok.mp h
  simp only at h
  split at h
  · rename_i written
    cases h
    obtain ⟨bindings, problems, bound, rfl, started⟩ := started_of_start begun
    have compiled := compiled_ofBindings bound settings
    have run := ends_writes compiled (keeps_standing compiled survey outside) (started.standing outside)
      (started.allows outside triggers) host
    exact ⟨bindings, problems, bound, rfl, (run.of_ok written).1⟩
  · cases h

end Engine

end Questionnaire
