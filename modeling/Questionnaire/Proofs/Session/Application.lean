import Questionnaire.Proofs.Expr.Reading
import Questionnaire.Proofs.Logic.Rules
import Questionnaire.Proofs.Lookup
import Questionnaire.Proofs.Session.Act
import Questionnaire.Session.Propagation

/-!
# What applying a binding does

Applying a binding evaluates its expression on the current answers and lets its owner show the value.  It changes
the one flag, or the one answer, that it is there for, and besides that the notes on failing evaluations.  Right
after it the binding is *up to date*: its owner shows what its expression gives on the answers as they then stand.
It stays so until an answer that it reads changes, or another binding shows something in the same place.
-/
namespace Questionnaire

/-! ## Flags by kind -/

/-- The flag that bindings of a kind set. -/
def Flags.get (f : Flags) : BindingKind → Bool
  | .visibleIf => f.visible
  | .enableIf => f.enabled
  | .requiredIf => f.conditionally
  | _ => false

/-- The flags with the one that bindings of a kind set. -/
def Flags.put (f : Flags) (holds : Bool) : BindingKind → Flags
  | .visibleIf => { f with visible := holds }
  | .enableIf => { f with enabled := holds }
  | .requiredIf => { f with conditionally := holds }
  | _ => f

theorem Flags.get_put_self {kind : BindingKind} (h : kind.writesValue = false) (f : Flags) (holds : Bool) :
    (f.put holds kind).get kind = holds := by
  cases kind <;> first | rfl | cases h

theorem Flags.get_put_of_ne {kind other : BindingKind} (h : kind ≠ other) (f : Flags) (holds : Bool) :
    (f.put holds kind).get other = f.get other := by
  cases kind <;> cases other <;> first | rfl | exact absurd rfl h

@[simp] theorem Flags.always_put (kind : BindingKind) (f : Flags) (holds : Bool) :
    (f.put holds kind).always = f.always := by
  cases kind <;> rfl

/-! ## What a step may change -/

namespace Session

/-- Only the notes on failing evaluations differ. -/
structure Noted (s t : Session) : Prop where
  rest : t = { s with diagnostics := t.diagnostics, failing := t.failing }
  added : ∀ d ∈ t.diagnostics, d ∈ s.diagnostics ∨ ∃ failure, d.problem = .eval failure

/-- Only answers, flags and the notes on failing evaluations differ. -/
structure Recomputed (s t : Session) : Prop where
  rest : t = { s with
    answers := t.answers, flags := t.flags, diagnostics := t.diagnostics, failing := t.failing }
  added : ∀ d ∈ t.diagnostics, d ∈ s.diagnostics ∨ ∃ failure, d.problem = .eval failure

variable {s t u : Session}

theorem Noted.refl (s : Session) : Noted s s := ⟨rfl, fun _ h => Or.inl h⟩

theorem Noted.trans (h : Noted s t) (h' : Noted t u) : Noted s u where
  rest := by rw [h'.rest, h.rest]
  added d hd := (h'.added d hd).elim (h.added d) Or.inr

theorem Noted.answers (h : Noted s t) : t.answers = s.answers := by rw [h.rest]

theorem Noted.flags (h : Noted s t) : t.flags = s.flags := by rw [h.rest]

theorem Noted.recomputed (h : Noted s t) : Recomputed s t := ⟨by rw [h.rest], h.added⟩

theorem Recomputed.refl (s : Session) : Recomputed s s := ⟨rfl, fun _ h => Or.inl h⟩

theorem Recomputed.trans (h : Recomputed s t) (h' : Recomputed t u) : Recomputed s u where
  rest := by rw [h'.rest, h.rest]
  added d hd := (h'.added d hd).elim (h.added d) Or.inr

theorem Recomputed.disabled (h : Recomputed s t) : t.disabled = s.disabled := by rw [h.rest]

theorem Recomputed.queue (h : Recomputed s t) : t.queue = s.queue := by rw [h.rest]

theorem Recomputed.slots (h : Recomputed s t) : t.slots = s.slots := by rw [h.rest]

theorem Recomputed.listeners (h : Recomputed s t) : t.listeners = s.listeners := by rw [h.rest]

end Session

open Session (Noted Recomputed)

namespace Session

/-- Flags differ only in what some bindings set. -/
structure FlagsKept (bindings : List Binding) (f g : Table String Flags) : Prop where
  unset : ∀ name kind, (∀ b ∈ bindings, b.target ≠ (name, some kind)) →
    (g.find? name).map (·.get kind) = (f.find? name).map (·.get kind)
  always : ∀ name, (g.find? name).map (·.always) = (f.find? name).map (·.always)

/-- What changes when some bindings are applied: their flags and answers, and notes. -/
structure Applied (bindings : List Binding) (s t : Session) : Prop where
  recomputed : Recomputed s t
  answers : ∀ key, (∀ b ∈ bindings, b.writesValue = true → key ≠ .text b.owner) →
    t.answers.find? key = s.answers.find? key
  flags : FlagsKept bindings s.flags t.flags
  defined : s.answers.AllDefined → t.answers.AllDefined

section

variable {bindings few many : List Binding} {b : Binding} {s t u : Session} {f g h : Table String Flags}

theorem FlagsKept.refl (bindings : List Binding) (f : Table String Flags) : FlagsKept bindings f f :=
  ⟨fun _ _ _ => rfl, fun _ => rfl⟩

theorem FlagsKept.trans (fg : FlagsKept bindings f g) (gh : FlagsKept bindings g h) : FlagsKept bindings f h where
  unset name kind free := (gh.unset name kind free).trans (fg.unset name kind free)
  always name := (gh.always name).trans (fg.always name)

theorem FlagsKept.mono (sub : few ⊆ many) (kept : FlagsKept few f g) : FlagsKept many f g where
  unset name kind free := kept.unset name kind fun b hb => free b (sub hb)
  always := kept.always

/-- Setting the flag of a binding's kind keeps the flags of other kinds and owners. -/
theorem FlagsKept.of_put (flag : b.writesValue = false) (f : Table String Flags) (holds : Bool) :
    FlagsKept [b] f (f.modify b.owner (·.put holds b.kind)) where
  unset name kind free := by
    have differs : name = b.owner → b.kind ≠ kind := by
      rintro rfl same
      exact free b List.mem_cons_self (by simp [Binding.target, flag, same])
    rw [Table.find?_modify, Option.map_map]
    refine congrArg (Option.map · _) (funext fun own => ?_)
    by_cases here : name = b.owner
    · simp [here, Flags.get_put_of_ne (differs here)]
    · simp [here]
  always name := by
    rw [Table.find?_modify, Option.map_map]
    refine congrArg (Option.map · _) (funext fun own => ?_)
    by_cases here : name = b.owner <;> simp [here]

theorem Applied.trans (h : Applied bindings s t) (h' : Applied bindings t u) : Applied bindings s u where
  recomputed := h.recomputed.trans h'.recomputed
  answers key other := (h'.answers key other).trans (h.answers key other)
  flags := h.flags.trans h'.flags
  defined all := h'.defined (h.defined all)

theorem Applied.mono (sub : few ⊆ many) (h : Applied few s t) : Applied many s t where
  recomputed := h.recomputed
  answers key other := h.answers key fun b hb => other b (sub hb)
  flags := h.flags.mono sub
  defined := h.defined

theorem Applied.of_noted (bindings : List Binding) (h : Noted s t) : Applied bindings s t where
  recomputed := h.recomputed
  answers key _ := by rw [h.answers]
  flags := h.flags ▸ FlagsKept.refl bindings s.flags
  defined all := by rwa [h.answers]

/-- Storing a value for the owner of a writing binding. -/
theorem Applied.of_put (writes : b.writesValue = true) (h : Noted s t) (v : Value) :
    Applied [b] s { t with answers := t.answers.put (.text b.owner) v } where
  recomputed := ⟨by rw [h.rest], h.added⟩
  answers key other := by
    rw [Fields.find?_put_of_differs v (Key.text_differs (other b List.mem_cons_self writes)), h.answers]
  flags := h.flags ▸ FlagsKept.refl [b] s.flags
  defined all := Fields.AllDefined.put (h.answers ▸ all) _ v

/-- Setting a flag of the owner of a binding that writes no value. -/
theorem Applied.of_flag (flag : b.writesValue = false) (h : Noted s t) (holds : Bool) :
    Applied [b] s { t with flags := t.flags.modify b.owner (·.put holds b.kind) } where
  recomputed := ⟨by rw [h.rest], h.added⟩
  answers key _ := by rw [h.answers]
  flags := h.flags ▸ FlagsKept.of_put flag t.flags holds
  defined all := by rwa [h.answers]

end

end Session

open Session (Applied)

namespace Engine

open Act

variable {e : Engine} {s t : Session} {b : Binding}

/-! ## Evaluation in a session -/

/-- The value of an expression on the current answers, undefined where it fails. -/
def current (e : Engine) (s : Session) (x : Expr) : Except Fault Value :=
  match x.evaluate (e.context s) with
  | .ok v => .ok v
  | .error (.error _) => .ok .undefined
  | .error (.fault f) => .error f

/-- An expression has one current value where the answers that it refers to are the same, on one date and with one
function library. -/
theorem current_congr {e e' : Engine} {s s' : Session} {x : Expr}
    (today : e.settings.today = e'.settings.today) (functions : e.settings.functions = e'.settings.functions)
    (h : ∀ name ∈ x.references, s.value name = s'.value name) : e.current s x = e'.current s' x := by
  have agree : (e.context s).Agree x.references (e'.context s') := ⟨today, functions, h⟩
  rw [current, current, Expr.evaluate_congr agree]

theorem current_of_answers {x : Expr} (h : t.answers = s.answers) : e.current t x = e.current s x :=
  current_congr rfl rfl fun name _ => by rw [Session.value, h, Session.value]

theorem noted_clearFailure (b : Binding) (part : Part) (s : Session) : Noted s (clearFailure b part s) :=
  ⟨rfl, fun _ h => Or.inl h⟩

theorem noted_reportFailure (b : Binding) (part : Part) (failure : EvalError) (s : Session) :
    Noted s (reportFailure b part failure s) := by
  rw [reportFailure]
  split
  · exact Noted.refl s
  · refine ⟨rfl, ?_⟩
    intro d hd
    rcases List.mem_append.mp hd with old | new
    · exact Or.inl old
    · exact Or.inr ⟨failure, by rw [List.mem_singleton.mp new]⟩

/-- Evaluating a part of a binding gives its current value, if there is one, and changes notes alone. -/
theorem ends_partValue (part : Part) (x : Expr) :
    Ends (fun v t => Noted s t ∧ e.current s x = .ok v) (fun t => Noted s t ∧ ∃ f, e.current s x = .error f)
      (e.partValue b part x) s := by
  unfold partValue evaluate
  simp only [ends_bind, ends_get]
  rw [current]
  cases x.evaluate (e.context s) with
  | ok v => exact ⟨noted_clearFailure b part s, rfl⟩
  | error stop =>
    cases stop with
    | error failure => exact ⟨noted_reportFailure b part failure s, rfl⟩
    | fault f => exact ⟨Noted.refl s, f, rfl⟩

theorem ends_partValue_noted (part : Part) (x : Expr) :
    Ends (fun _ t => Noted s t) (Noted s) (e.partValue b part x) s :=
  (ends_partValue part x).mono (fun _ _ h => h.1) fun _ h => h.1

theorem ends_partHolds (part : Part) (x : Expr) :
    Ends (fun _ t => Noted s t) (Noted s) (e.partHolds b part x) s := by
  rw [partHolds, ends_bind]
  exact ends_partValue_noted part x

/-- Storing changes an answer and says whether it did. -/
theorem store_eq (key : Key) (v : Value) (s : Session) :
    store key v s =
      .ok (Fields.store? s.answers key v).isSome { s with answers := s.answers.put key v } := by
  rw [store, get_bind, Fields.put]
  cases Fields.store? s.answers key v with
  | none => rfl
  | some answers => rfl

@[simp] theorem ends_store {Q : Bool → Session → Prop} {F : Session → Prop} {key : Key} {v : Value} :
    Ends Q F (store key v) s ↔
      Q (Fields.store? s.answers key v).isSome { s with answers := s.answers.put key v } := by
  rw [Ends, store_eq]

/-! ## Applying -/

/-- A binding that writes no value sets a flag by its current value. -/
theorem apply_flag (e : Engine) (h : b.writesValue = false) :
    e.apply b = (do
      let v ← e.partValue b .expression b.expression
      setFlag b (·.put v.truthy b.kind)
      return false) := by
  unfold apply partHolds
  unfold Binding.writesValue at h
  cases hk : b.kind <;> simp_all [BindingKind.writesValue] <;> rfl

/-- A computed value without a gate is stored for the owner. -/
theorem apply_computed (e : Engine) (kind : b.kind = .setValueExpression) (gate : b.gate = none) :
    e.apply b = (do store (.text b.owner) (← e.partValue b .expression b.expression)) := by
  rw [apply]
  simp [kind, gate]

theorem ends_defaultOf (name : String) :
    Ends (fun _ t => Noted s t) (Noted s) (e.defaultOf name) s := by
  rw [defaultOf]
  split
  · exact Noted.refl s
  · rw [ends_bind, ends_get]
    split
    · exact Noted.refl s
    · rw [ends_bind]
      exact ends_partValue_noted .expression _

/-- Storing for the owner of a writing binding what an action comes to that changes notes alone. -/
theorem ends_store_noted (writes : b.writesValue = true) {x : Act Value} (before : Noted s t)
    (noted : Ends (fun _ u => Noted t u) (Noted t) x t) :
    Ends (fun _ u => Applied [b] s u) (Applied [b] s) (x >>= store (.text b.owner)) t := by
  rw [ends_bind]
  refine noted.mono ?_ ?_
  · intro v u after
    exact ends_store.mpr (Applied.of_put writes (before.trans after) v)
  · intro u after
    exact Applied.of_noted [b] (before.trans after)

/-- A writing binding changes notes, and then perhaps the answer of its owner. -/
theorem ends_apply_writer (writes : b.writesValue = true) :
    Ends (fun _ t => Applied [b] s t) (Applied [b] s) (e.apply b) s := by
  have idle {t : Session} (h : Noted s t) := Applied.of_noted [b] h
  rw [apply]
  split
  case h_1 | h_2 | h_3 => simp_all [Binding.writesValue, BindingKind.writesValue]
  case h_4 =>
    have opened (holds : Bool) {t : Session} (h : Noted s t) :
        Ends (fun _ t => Applied [b] s t) (Applied [b] s)
          (if holds = true then (do store (.text b.owner) (← e.partValue b .expression b.expression))
            else pure false) t := by
      split
      · exact ends_store_noted writes h (ends_partValue_noted .expression b.expression)
      · exact idle h
    cases b.gate with
    | none => exact opened true (Noted.refl s)
    | some gate =>
      refine ends_bind.mpr ((ends_partHolds .gate gate).mono ?_ fun _ => idle)
      intro holds t h
      exact opened holds h
  case h_5 =>
    rw [ends_bind]
    refine (ends_partHolds .expression b.expression).mono ?_ fun _ => idle
    intro holds t h
    split
    · exact ends_store.mpr (Applied.of_put writes h b.literal)
    · exact idle h
  case h_6 =>
    rw [ends_bind, ends_get]
    split
    · exact idle (Noted.refl s)
    · exact ends_store_noted writes (Noted.refl s) (ends_partValue_noted .expression b.expression)
  case h_7 =>
    rw [ends_bind]
    refine (ends_partHolds .expression b.expression).mono ?_ fun _ => idle
    intro holds t h
    rw [ends_bind, ends_get]
    split
    · exact ends_store_noted writes h (ends_defaultOf b.owner)
    · exact idle h

/-- What applying a binding changes, however it ends; only a writing binding changes an answer. -/
theorem ends_apply :
    Ends (fun changed t => Applied [b] s t ∧ (changed = true → b.writesValue = true)) (Applied [b] s)
      (e.apply b) s := by
  cases writes : b.writesValue with
  | false =>
    rw [apply_flag e writes, ends_bind]
    refine (ends_partValue .expression b.expression).mono ?_ ?_
    · intro v t h
      exact ⟨.of_flag writes h.1 v.truthy, fun h => by cases h⟩
    · intro t h
      exact Applied.of_noted [b] h.1
  | true => exact (ends_apply_writer writes).mono (fun _ _ h => ⟨h, fun _ => rfl⟩) fun _ h => h

end Engine

end Questionnaire
