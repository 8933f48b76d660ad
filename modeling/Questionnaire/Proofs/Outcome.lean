import Mathlib.Data.List.Forall2
import Questionnaire.Failure

/-!
# Results that may be missing

How a computation that may fail comes to its end: which steps of it ended well, or which one of them failed.
-/
namespace Questionnaire.Outcome

variable {ε α β : Type}

theorem bind_eq_ok {x : Except ε α} {f : α → Except ε β} {b : β} :
    (x >>= f) = .ok b ↔ ∃ a, x = .ok a ∧ f a = .ok b := by
  cases x with
  | ok a => simp [bind, Except.bind]
  | error e => simp [bind, Except.bind]

theorem exists_of_map {x : Except ε α} {f : α → β} {b : β} (h : (x.map f).toOption = some b) :
    ∃ a, x = .ok a ∧ f a = b := by
  cases x with
  | ok a => exact ⟨a, rfl, Option.some.inj h⟩
  | error e => cases h

/-- Going through a list succeeds item by item. -/
theorem forall₂_of_mapM {f : α → Except ε β} {xs : List α} {ys : List β} (h : xs.mapM f = .ok ys) :
    List.Forall₂ (fun x y => f x = .ok y) xs ys := by
  induction xs generalizing ys with
  | nil =>
    cases h
    exact .nil
  | cons x xs ih =>
    rw [List.mapM_cons] at h
    obtain ⟨y, hy, h⟩ := bind_eq_ok.mp h
    obtain ⟨rest, hrest, h⟩ := bind_eq_ok.mp h
    cases h
    exact .cons hy (ih hrest)

theorem mapM_map_eq_map {γ : Type} {f : β → Except ε γ} {g : α → β} {h : α → γ} {xs : List α}
    (each : ∀ x ∈ xs, f (g x) = .ok (h x)) : (xs.map g).mapM f = .ok (xs.map h) := by
  induction xs with
  | nil => rfl
  | cons x rest ih =>
    obtain ⟨first, later⟩ := List.forall_mem_cons.mp each
    rw [List.map_cons, List.mapM_cons, first, ih later]
    rfl

/-- Items that are all taken back to where they came from. -/
theorem mapM_map_eq_ok {f : β → Except ε α} {g : α → β} {xs : List α} (each : ∀ x ∈ xs, f (g x) = .ok x) :
    (xs.map g).mapM f = .ok xs := by
  have same := mapM_map_eq_map (h := id) each
  rwa [List.map_id] at same

theorem exists_of_mem {R : α → β → Prop} {xs : List α} {ys : List β} (pairs : List.Forall₂ R xs ys) {y : β}
    (mem : y ∈ ys) : ∃ x ∈ xs, R x y := by
  induction pairs with
  | nil => cases mem
  | @cons x y' xs ys first _ ih =>
    rcases List.mem_cons.mp mem with rfl | later
    · exact ⟨x, List.mem_cons_self, first⟩
    · obtain ⟨x', mem', h⟩ := ih later
      exact ⟨x', List.mem_cons_of_mem _ mem', h⟩

/-- Two steps in a row fail in the first or in the second. -/
theorem bind_eq_error {x : Except ε α} {f : α → Except ε β} {error : ε} :
    (x >>= f) = .error error ↔ x = .error error ∨ ∃ a, x = .ok a ∧ f a = .error error := by
  cases x with
  | ok a => simp [bind, Except.bind]
  | error e => simp [bind, Except.bind]

theorem map_eq_error {x : Except ε α} {f : α → β} {error : ε} : f <$> x = .error error ↔ x = .error error := by
  cases x <;> simp [Functor.map, Except.map]

/-- Going through a list fails at some item. -/
theorem exists_of_mapM_eq_error {f : α → Except ε β} {xs : List α} {error : ε} (h : xs.mapM f = .error error) :
    ∃ x ∈ xs, f x = .error error := by
  induction xs with
  | nil => cases h
  | cons x rest ih =>
    rw [List.mapM_cons] at h
    rcases bind_eq_error.mp h with first | ⟨_, -, h⟩
    · exact ⟨x, List.mem_cons_self, first⟩
    · rcases bind_eq_error.mp h with later | ⟨_, -, done⟩
      · obtain ⟨y, mem, failed⟩ := ih later
        exact ⟨y, List.mem_cons_of_mem x mem, failed⟩
      · cases done

/-- Going through a list succeeds if it does at each item. -/
theorem exists_mapM {f : α → Except ε β} {xs : List α} :
    (∃ ys, xs.mapM f = .ok ys) ↔ ∀ x ∈ xs, ∃ y, f x = .ok y := by
  constructor
  · rintro ⟨ys, each⟩ x mem
    obtain ⟨i, bound, rfl⟩ := List.getElem_of_mem mem
    have pairs := forall₂_of_mapM each
    exact ⟨_, pairs.get bound (pairs.length_eq ▸ bound)⟩
  · intro each
    cases outcome : xs.mapM f with
    | ok ys => exact ⟨ys, rfl⟩
    | error failure =>
      obtain ⟨x, mem, failed⟩ := exists_of_mapM_eq_error outcome
      obtain ⟨y, ok⟩ := each x mem
      cases failed.symm.trans ok

theorem liftFault_eq_fault {x : Except Fault α} {f : Fault} : liftFault x = .error (.fault f) ↔ x = .error f := by
  cases x <;> simp [liftFault]

theorem liftFault_map_eq_fault {g : α → β} {x : Except Fault α} {f : Fault} :
    liftFault (g <$> x) = .error (.fault f) ↔ x = .error f :=
  liftFault_eq_fault.trans map_eq_error

end Questionnaire.Outcome
