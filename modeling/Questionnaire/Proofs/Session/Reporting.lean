import Questionnaire.Proofs.Session.Downstream
import Questionnaire.Proofs.Session.Evaluations

/-!
# When failures are reported

A diagnostic is added by an evaluation that fails unlike the last evaluation of the same part of the same binding, and
by no other evaluation.  One table of notes serves all bindings and both parts of each, and it is right because at every
moment it says how the last evaluation of each part ended.
-/
namespace Questionnaire

open Act

namespace Evaluation

/-- It is an evaluation of a part of a binding. -/
def Of (c : Evaluation) (b : Binding) (part : Part) : Prop := c.binding = b ∧ c.part = part

/-- The failure that it ends with, if it fails. -/
def failure? (e : Engine) (c : Evaluation) : Option EvalError := e.failure? c.expression c.session

/-- The session that it leaves. -/
def after (e : Engine) (c : Evaluation) : Session :=
  Act.after (e.partValue c.binding c.part c.expression) c.session

/-- The last evaluation of a part in a log. -/
def Latest (b : Binding) (part : Part) (log : List Evaluation) (c : Evaluation) : Prop :=
  ∃ front back, log = front ++ c :: back ∧ c.Of b part ∧ ∀ d ∈ back, ¬ d.Of b part

variable {b : Binding} {part : Part} {log : List Evaluation} {c d : Evaluation}

theorem not_latest_nil : ¬ Latest b part [] c := by
  rintro ⟨front, back, split, -⟩
  simp at split

/-- The last evaluation of a longer log is the new one if that is of the part, else the old one. -/
theorem latest_concat : Latest b part (log ++ [c]) d ↔ c.Of b part ∧ d = c ∨ ¬ c.Of b part ∧ Latest b part log d := by
  constructor
  · rintro ⟨front, back, split, own, others⟩
    rcases List.eq_nil_or_concat back with rfl | ⟨before, last, rfl⟩
    · obtain ⟨-, same⟩ := List.append_inj' split rfl
      obtain rfl : c = d := List.head_eq_of_cons_eq same
      exact .inl ⟨own, rfl⟩
    · rw [List.concat_eq_append] at split others
      rw [← List.cons_append, ← List.append_assoc] at split
      obtain ⟨rfl, same⟩ := List.append_inj' split rfl
      obtain rfl : c = last := List.head_eq_of_cons_eq same
      obtain ⟨earlier, later⟩ := List.forall_mem_append.mp others
      exact .inr ⟨later c List.mem_cons_self, front, before, rfl, own, earlier⟩
  · rintro (⟨own, rfl⟩ | ⟨other, front, back, rfl, own, others⟩)
    · exact ⟨log, [], rfl, own, List.forall_mem_nil _⟩
    · refine ⟨front, back ++ [c], by simp, own, ?_⟩
      exact List.forall_mem_append.mpr ⟨others, List.forall_mem_singleton.mpr other⟩

/-- A failure of an evaluation begins an episode: before it the same part was not evaluated yet, or the last time it did
not fail, or failed in another way. -/
def Begins (e : Engine) (earlier : List Evaluation) (c : Evaluation) (failure : EvalError) : Prop :=
  ∀ d, Latest c.binding c.part earlier d → ∀ other, d.failure? e = some other → other.kind ≠ failure.kind

/-- What an evaluation reports: its failure, if that begins an episode, and nothing else. -/
structure Reports (e : Engine) (earlier : List Evaluation) (c : Evaluation) : Prop where
  added : ∀ failure, c.failure? e = some failure → c.Begins e earlier failure →
    (c.after e).diagnostics = c.session.diagnostics ++ [c.binding.complaint failure]
  kept : (∀ failure, c.failure? e = some failure → ¬ c.Begins e earlier failure) →
    (c.after e).diagnostics = c.session.diagnostics

end Evaluation

open Evaluation

namespace Engine

variable {e : Engine}

/-! ## What the notes say -/

/-- The notes of a session say how the last evaluation of each part of each binding ended. -/
def Remembers (e : Engine) (log : List Evaluation) (s : Session) : Prop :=
  ∀ b ∈ e.dependencies.accepted, ∀ part kind, s.failing.lookup (b.order, part) = some kind ↔
    ∃ c, Latest b part log c ∧ (c.failure? e).map (·.kind) = some kind

theorem remembers_nil {s : Session} (none : s.failing = []) : e.Remembers [] s := by
  intro b _ part kind
  rw [none]
  constructor
  · nofun
  · rintro ⟨c, latest, -⟩
    exact absurd latest not_latest_nil

section

variable {bindings : List Binding} (compiled : e.Compiled bindings)
variable {b : Binding} {part : Part} {x : Expr} {s t : Session} {v : Value} {log : List Evaluation}
variable (mem : b ∈ e.dependencies.accepted) (run : e.partValue b part x s = .ok v t)
include compiled mem run

theorem Remembers.value (remembers : e.Remembers log s) : e.Remembers (log ++ [⟨b, part, x, s⟩]) t := by
  intro b' mem' part' kind
  rw [eq_note_of_partValue run, lookup_note]
  split
  · rename_i same
    obtain ⟨number, rfl⟩ := Prod.mk.inj same
    obtain rfl := compiled.eq_of_order mem' mem number
    constructor
    · intro found
      exact ⟨_, latest_concat.mpr (.inl ⟨⟨rfl, rfl⟩, rfl⟩), found⟩
    · rintro ⟨c, latest, found⟩
      rcases latest_concat.mp latest with ⟨-, rfl⟩ | ⟨other, -⟩
      · exact found
      · exact absurd ⟨rfl, rfl⟩ other
  · rename_i differs
    have other : ¬ (⟨b, part, x, s⟩ : Evaluation).Of b' part' := by
      rintro ⟨rfl, rfl⟩
      exact differs rfl
    rw [remembers b' mem' part' kind]
    simp only [latest_concat, other, false_and, not_false_eq_true, true_and, false_or]

omit compiled run in
/-- A failure begins an episode exactly if it is not noted already. -/
theorem Remembers.begins_iff (remembers : e.Remembers log s) (failure : EvalError) :
    Begins e log ⟨b, part, x, s⟩ failure ↔ s.failing.lookup (b.order, part) ≠ some failure.kind := by
  rw [Ne, remembers b mem part failure.kind]
  constructor
  · rintro begins ⟨c, latest, noted⟩
    obtain ⟨other, failed, same⟩ := Option.map_eq_some_iff.mp noted
    exact begins c latest other failed same
  · intro unlike c latest other failed same
    refine unlike ⟨c, latest, ?_⟩
    rw [failed, Option.map_some, same]

omit compiled in
theorem Remembers.reports (remembers : e.Remembers log s) : Reports e log ⟨b, part, x, s⟩ := by
  have left : Evaluation.after e ⟨b, part, x, s⟩ = note b part (e.failure? x s) s := by
    rw [Evaluation.after, Act.after]
    simp only [run]
    exact eq_note_of_partValue run
  constructor
  · intro failure failed begins
    have unlike := (remembers.begins_iff mem failure).mp begins
    have failed : e.failure? x s = some failure := failed
    rw [left, failed, note, reportFailure, if_neg (by simpa using unlike)]
    rfl
  · intro repeats
    rw [left]
    cases failed : e.failure? x s with
    | none => rfl
    | some failure =>
      have noted := not_not.mp (mt (remembers.begins_iff mem failure).mpr (repeats failure failed))
      rw [note, reportFailure, if_pos (by simpa using noted)]

end

/-! ## Whole runs -/

/-- All evaluations of a log report what they have to, with some others before them. -/
def Accounts (e : Engine) (earlier : List Evaluation) : List Evaluation → Prop
  | [] => True
  | c :: rest => Reports e earlier c ∧ e.Accounts (earlier ++ [c]) rest

theorem accounts_append {earlier log later : List Evaluation} :
    e.Accounts earlier (log ++ later) ↔ e.Accounts earlier log ∧ e.Accounts (earlier ++ log) later := by
  induction log generalizing earlier with
  | nil => simp [Accounts]
  | cons c rest ih =>
    rw [List.cons_append, Accounts, Accounts, ih, and_assoc, List.append_assoc]
    rfl

/-- Whatever an action does, its evaluations report what they have to, and the notes stay right. -/
theorem Traced.accounts {bindings : List Binding} (compiled : e.Compiled bindings) {α : Type} {x : Act α}
    {s t : Session} {log : List Evaluation} {a : α} (traced : e.Traced x s log a t) {earlier : List Evaluation}
    (remembers : e.Remembers earlier s) : e.Accounts earlier log ∧ e.Remembers (earlier ++ log) t := by
  induction traced generalizing earlier with
  | @silent _ _ s t _ silent run =>
    have same : t.failing = s.failing := (silent s.failing s rfl).of_ok run
    refine ⟨trivial, ?_⟩
    rw [List.append_nil]
    intro b mem part kind
    rw [same]
    exact remembers b mem part kind
  | value mem own run => exact ⟨⟨remembers.reports mem run, trivial⟩, remembers.value compiled mem run⟩
  | bind _ _ ih ih' =>
    obtain ⟨first, between⟩ := ih remembers
    obtain ⟨second, after⟩ := ih' between
    exact ⟨accounts_append.mpr ⟨first, second⟩, List.append_assoc .. ▸ after⟩

/-- The evaluations of a log are those of parts of bindings in use. -/
theorem Traced.installed {α : Type} {x : Act α} {s t : Session} {log : List Evaluation} {a : α}
    (traced : e.Traced x s log a t) :
    ∀ c ∈ log, c.binding ∈ e.dependencies.accepted ∧ c.binding.at? c.part = some c.expression := by
  induction traced with
  | silent => exact List.forall_mem_nil _
  | value mem own _ => exact List.forall_mem_singleton.mpr ⟨mem, own⟩
  | bind _ _ ih ih' => exact List.forall_mem_append.mpr ⟨ih, ih'⟩

/-- What a host does: a move, or something else that has no part in evaluations. -/
inductive Hosted (e : Engine) : Act Unit → Prop
  | move (m : Move) : Hosted e (e.make m)
  | aside {x : Act Unit} : x.Silent → Hosted e x

/-- A session from its first sweep on, with what the host does in it. -/
def live (e : Engine) (doings : List (Act Unit)) : Act Unit := do
  e.applyAll
  doings.forM id

theorem Accounts.reports {earlier before later : List Evaluation} {c : Evaluation}
    (accounts : e.Accounts earlier (before ++ c :: later)) : Reports e (earlier ++ before) c :=
  (accounts_append.mp accounts).2.1

theorem traces_hosted {bindings : List Binding} (compiled : e.Compiled bindings)
    (defaults : ∀ name b, e.defaults.find? name = some b → b ∈ e.dependencies.accepted) {x : Act Unit}
    (hosted : e.Hosted x) : e.Traces x := by
  cases hosted with
  | move m => exact traces_make compiled defaults m
  | aside silent => exact traces_of_silent silent

/-- A failing binding is reported once per episode.  A session that goes on without a fault has a log of its evaluations
from the first sweep on; and in every such log, an evaluation of a part of a binding adds the diagnostic of its failure
exactly if the last evaluation of the same part before it did not fail, failed in another way, or does not exist. -/
theorem failures_reported_once {survey : Survey} {settings : Settings} {given : Fields} {navigator : Bool}
    {s₀ s : Session} {doings : List (Act Unit)} (hosted : ∀ x ∈ doings, e.Hosted x)
    (begun : start survey settings given navigator = .ok (e, s₀)) (ended : doings.forM id s₀ = .ok ⟨⟩ s) :
    ∃ opened, Opens survey settings given navigator e opened ∧ e.applyAll opened = .ok ⟨⟩ s₀ ∧
      (∃ log, e.Traced (e.live doings) opened log ⟨⟩ s) ∧
      ∀ log, e.Traced (e.live doings) opened log ⟨⟩ s → ∀ earlier c later, log = earlier ++ c :: later →
        c.binding ∈ e.dependencies.accepted ∧ c.binding.at? c.part = some c.expression ∧ Reports e earlier c := by
  obtain ⟨bindings, problems, slots, bound, each, rfl, applied⟩ := start_ok begun
  have compiled := compiled_ofBindings bound settings
  have defaults := mem_accepted_of_defaults survey settings bindings
  refine ⟨_, ⟨bindings, problems, slots, bound, each, rfl, rfl⟩, applied, ?_, ?_⟩
  · have closed := closed_traces (ofBindings survey settings bindings)
    have traces := closed.bind (traces_applyAll compiled defaults) fun _ =>
      closed.forM fun x mem => traces_hosted compiled defaults (hosted x mem)
    exact traces _ _ _ ((bind_eq_of_ok applied).trans ended)
  · rintro log traced earlier c later rfl
    obtain ⟨accounts, -⟩ := traced.accounts compiled (remembers_nil rfl)
    obtain ⟨mem, own⟩ := traced.installed c (List.mem_append_right _ List.mem_cons_self)
    exact ⟨mem, own, accounts.reports⟩

end Engine

namespace Sample

/-- The condition of the panel fails on a text in place of a number, twice in a row, and again after a number. -/
def relapse : List (Act Unit) :=
  [.text "x", .text "y", whole 36, .text "x"].map fun v => engine.make (.write (.text "c") v)

theorem relapsed : ∃ s₀ s, Engine.start survey settings (given 1 35) false = .ok (engine, s₀) ∧
    relapse.forM id s₀ = .ok ⟨⟩ s ∧ s.diagnostics.map (·.owner) = ["d", "d"] := by
  have failed : ∃ a s, (engine.live relapse) (engine.opening [] [] (given 1 35) false) = .ok a s ∧
      s.diagnostics.map (·.owner) = ["d", "d"] := Act.exists_of_seen (by decide +kernel)
  obtain ⟨_, s, run, shown⟩ := failed
  obtain ⟨s₀, begun, run⟩ := Engine.exists_start_of_run bound rfl run
  exact ⟨s₀, s, begun, run, shown⟩

end Sample

/-- Of three failures in a row of four evaluations the first and the last are reported. -/
theorem Engine.relapse_reported : ∃ s₀ s opened log,
    start Sample.survey Sample.settings (Sample.given 1 35) false = .ok (Sample.engine, s₀) ∧
    Sample.relapse.forM id s₀ = .ok ⟨⟩ s ∧ s.diagnostics.map (·.owner) = ["d", "d"] ∧
    Sample.engine.Traced (Sample.engine.live Sample.relapse) opened log ⟨⟩ s ∧
    ∀ earlier c later, log = earlier ++ c :: later → Reports Sample.engine earlier c := by
  obtain ⟨s₀, s, begun, ended, shown⟩ := Sample.relapsed
  have hosted : ∀ x ∈ Sample.relapse, Sample.engine.Hosted x := by
    intro x mem
    obtain ⟨v, -, rfl⟩ := List.mem_map.mp mem
    exact .move _
  obtain ⟨opened, -, -, ⟨log, traced⟩, reports⟩ := failures_reported_once hosted begun ended
  refine ⟨s₀, s, opened, log, begun, ended, shown, traced, ?_⟩
  exact fun earlier c later split => (reports log traced earlier c later split).2.2

end Questionnaire
