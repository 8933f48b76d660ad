import Questionnaire.Session.Basic

/-!
# How actions end

An action on a session ends normally, with a result and a session, or by a fault, with the session that it leaves.
`Ends Q F x s` says that `x`, begun in `s`, satisfies `Q` in the first case and `F` in the second.  The lemmas go
through an action from its front, one construct at a time, so that a property of a whole action is put together from
the properties of its parts.
-/
namespace Questionnaire.Act

variable {α β : Type} {Q : α → Session → Prop} {F : Session → Prop} {s : Session}

/-- An action begun in a session satisfies one property at a normal end and another one at a fault. -/
def Ends (Q : α → Session → Prop) (F : Session → Prop) (x : Act α) (s : Session) : Prop :=
  match x s with
  | .ok a t => Q a t
  | .error _ t => F t

theorem Ends.of_ok {x : Act α} {a : α} {t : Session} (h : Ends Q F x s) (run : x s = .ok a t) : Q a t := by
  simpa [Ends, run] using h

theorem Ends.of_error {x : Act α} {f : Fault} {t : Session} (h : Ends Q F x s) (run : x s = .error f t) : F t := by
  simpa [Ends, run] using h

/-- An action that cannot end by a fault ends normally. -/
theorem Ends.exists_ok {x : Act α} (h : Ends Q (fun _ => False) x s) : ∃ a t, x s = .ok a t ∧ Q a t := by
  unfold Ends at h
  cases hx : x s with
  | ok a t => exact ⟨a, t, rfl, by simpa [hx] using h⟩
  | error f t => exact absurd h (by simp [hx])

theorem Ends.mono {Q' : α → Session → Prop} {F' : Session → Prop} {x : Act α} (h : Ends Q F x s)
    (hQ : ∀ a t, Q a t → Q' a t) (hF : ∀ t, F t → F' t) : Ends Q' F' x s := by
  unfold Ends at h ⊢
  cases hx : x s with
  | ok a t => exact hQ a t (by simpa [hx] using h)
  | error f t => exact hF t (by simpa [hx] using h)

theorem Ends.and {Q' : α → Session → Prop} {F' : Session → Prop} {x : Act α} (h : Ends Q F x s)
    (h' : Ends Q' F' x s) : Ends (fun a t => Q a t ∧ Q' a t) (fun t => F t ∧ F' t) x s := by
  unfold Ends at h h' ⊢
  cases hx : x s <;> simp_all

@[simp] theorem ends_pure {a : α} : Ends Q F (pure a : Act α) s ↔ Q a s := Iff.rfl

@[simp] theorem ends_throw {f : Fault} : Ends Q F (throw f : Act α) s ↔ F s := Iff.rfl

@[simp] theorem ends_get {Q : Session → Session → Prop} : Ends Q F (get : Act Session) s ↔ Q s s := Iff.rfl

@[simp] theorem ends_set {Q : PUnit → Session → Prop} {t : Session} : Ends Q F (set t : Act PUnit) s ↔ Q ⟨⟩ t :=
  Iff.rfl

@[simp] theorem ends_modify {Q : PUnit → Session → Prop} {f : Session → Session} :
    Ends Q F (modify f : Act PUnit) s ↔ Q ⟨⟩ (f s) := Iff.rfl

theorem ends_bind {Q : β → Session → Prop} {x : Act α} {f : α → Act β} :
    Ends Q F (x >>= f) s ↔ Ends (fun a t => Ends Q F (f a) t) F x s := by
  simp only [Ends, bind, EStateM.bind]
  cases x s <;> rfl

/-- A property that every single action keeps is kept by all of them in a row. -/
theorem ends_forM {I : Session → Prop} {f : α → Act PUnit} {xs : List α} (hs : I s)
    (step : ∀ x ∈ xs, ∀ t, I t → Ends (fun _ => I) F (f x) t) : Ends (fun _ => I) F (xs.forM f) s := by
  induction xs generalizing s with
  | nil => exact hs
  | cons x rest ih =>
    obtain ⟨first, later⟩ := List.forall_mem_cons.mp step
    rw [List.forM_eq_forM, List.forM_cons, ends_bind]
    refine (first s hs).mono ?_ fun _ h => h
    intro _ t ht
    exact ih ht later

/-- An action ends normally if something is seen of the session that it ends with. -/
theorem exists_of_seen {f : Session → β} {x : Act α} {b : β}
    (h : (match x s with | .ok _ t => some (f t) | .error _ _ => none) = some b) :
    ∃ a t, x s = .ok a t ∧ f t = b := by
  cases run : x s with
  | ok a t =>
    rw [run] at h
    exact ⟨a, t, rfl, Option.some.inj h⟩
  | error _ _ =>
    rw [run] at h
    cases h

/-- An action faults if something is seen of the fault that it ends with. -/
theorem exists_error_of_seen {f : Fault → Session → β} {x : Act α} {b : β}
    (h : (match x s with | .ok _ _ => none | .error r t => some (f r t)) = some b) :
    ∃ r t, x s = .error r t ∧ f r t = b := by
  cases run : x s with
  | ok _ _ =>
    rw [run] at h
    cases h
  | error r t =>
    rw [run] at h
    exact ⟨r, t, rfl, Option.some.inj h⟩

theorem get_bind (f : Session → Act α) (s : Session) : ((get : Act Session) >>= f) s = f s s := rfl

theorem set_bind (t : Session) (f : PUnit → Act α) (s : Session) :
    ((set t : Act PUnit) >>= f) s = f ⟨⟩ t := rfl

theorem bind_eq_of_ok {x : Act α} {f : α → Act β} {a : α} {t : Session} (run : x s = .ok a t) :
    (x >>= f) s = f a t := by
  simp only [bind, EStateM.bind, run]

theorem bind_eq_of_error {x : Act α} {f : α → Act β} {error : Fault} {t : Session}
    (run : x s = .error error t) : (x >>= f) s = .error error t := by
  simp only [bind, EStateM.bind, run]

/-- Two continuations that agree on what an action comes to. -/
theorem bind_congr_of_ends {x : Act α} {f g : α → Act β} (h : Ends (fun a t => f a t = g a t) (fun _ => True) x s) :
    (x >>= f) s = (x >>= g) s := by
  simp only [Ends, bind, EStateM.bind] at h ⊢
  cases hx : x s with
  | ok a t => simpa [hx] using h
  | error _ _ => rfl

/-- The session that an action leaves, however it ends. -/
def after {α : Type} (x : Act α) (s : Session) : Session :=
  match x s with
  | .ok _ t => t
  | .error _ t => t

theorem Ends.after {I : Session → Prop} {x : Act α} (h : Ends (fun _ => I) I x s) : I (Act.after x s) := by
  unfold Ends at h
  unfold Act.after
  cases hx : x s <;> simpa [hx] using h

/-! ### What an action keeps -/

section

variable {I F : Session → Prop}

/-- An action keeps a property of sessions; a fault on the way leaves another one. -/
def Guards (I F : Session → Prop) (x : Act α) : Prop := ∀ s, I s → Ends (fun _ => I) F x s

/-- An action keeps a property of sessions, however it ends. -/
abbrev Preserves (I : Session → Prop) (x : Act α) : Prop := Guards I I x

theorem Guards.bind {x : Act α} {f : α → Act β} (hx : Guards I F x) (hf : ∀ a, Guards I F (f a)) :
    Guards I F (x >>= f) := by
  intro s hs
  rw [ends_bind]
  exact (hx s hs).mono (fun a t ht => hf a t ht) fun _ h => h

theorem guards_pure (a : α) : Guards I F (pure a : Act α) := fun _ hs => hs

theorem guards_throw {f : Fault} (h : ∀ s, I s → F s) : Guards I F (throw f : Act α) := h

theorem guards_get : Guards I F (get : Act Session) := fun _ hs => hs

theorem guards_modify {f : Session → Session} (h : ∀ s, I s → I (f s)) : Guards I F (modify f : Act PUnit) :=
  fun s hs => h s hs

theorem Guards.forM {f : α → Act PUnit} {xs : List α} (h : ∀ x ∈ xs, Guards I F (f x)) : Guards I F (xs.forM f) :=
  fun _ hs => ends_forM hs fun x hx t ht => h x hx t ht

/-- A guarded action ends normally, or what it leaves is known. -/
theorem Guards.ok_or {x : Act α} (h : Guards I F x) (hs : I s) : (∃ a t, x s = .ok a t) ∨ F (Act.after x s) := by
  have ends := h s hs
  unfold Ends at ends
  unfold Act.after
  cases run : x s with
  | ok a t => exact Or.inl ⟨a, t, rfl⟩
  | error f t =>
    rw [run] at ends
    exact Or.inr ends

end

/-! ### Classes of actions -/

/-- A class of actions that holds those that do nothing and, with any two, the action that does one after the other. -/
structure Closed (P : {α : Type} → Act α → Prop) : Prop where
  pure : ∀ {α : Type} (a : α), P (pure a : Act α)
  get : P (get : Act Session)
  bind : ∀ {α β : Type} {x : Act α} {f : α → Act β}, P x → (∀ a, P (f a)) → P (x >>= f)

theorem Closed.forM {P : {α : Type} → Act α → Prop} (closed : Closed P) {f : α → Act PUnit} {xs : List α}
    (each : ∀ x ∈ xs, P (f x)) : P (xs.forM f) := by
  induction xs with
  | nil => exact closed.pure _
  | cons x rest ih =>
    obtain ⟨first, later⟩ := List.forall_mem_cons.mp each
    rw [List.forM_eq_forM, List.forM_cons]
    exact closed.bind first fun _ => ih later

theorem closed_guards (I F : Session → Prop) : Closed fun x => Guards I F x where
  pure := guards_pure
  get := guards_get
  bind := Guards.bind

end Questionnaire.Act
