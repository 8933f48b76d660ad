import Mathlib.Data.List.Perm.Subperm
import Questionnaire.Proofs.Lookup
import Questionnaire.Proofs.Number.Comparison
import Questionnaire.Value.Equality

/-!
# The same data

Where no two fields of a structured value have one key, being the same data is an equivalence that can be trusted: each
value is the same as itself, and which of two values comes first does not matter.  What is no number is the same as
itself here.
-/
namespace Questionnaire

theorem Number.alike_self (n : Number) : n.alike n = true := by
  by_cases number : n = .float .nan
  · rw [number]
    rfl
  · rw [Number.alike, eq_self number, Bool.true_or]

theorem Number.alike_comm (m n : Number) : m.alike n = n.alike m := by
  rw [alike, alike, eq_comm, Bool.and_comm]

namespace Table

variable {α β : Type}

/-- If each of some entries has a partner under its key among as many others, then each of the others has one. -/
theorem exists_partner (related : α → β → Prop) {table : Table Key α} {other : Table Key β}
    (distinct : table.Pairwise fun a b => (a.1 == b.1) = false)
    (distinct' : other.Pairwise fun a b => (a.1 == b.1) = false) (length : table.length = other.length)
    (each : ∀ c ∈ table, ∃ w, other.find? c.1 = some w ∧ related c.2 w) :
    ∀ d ∈ other, ∃ v, table.find? d.1 = some v ∧ related v d.2 := by
  have apart {γ : Type} {t : Table Key γ} (h : t.Pairwise fun a b => (a.1 == b.1) = false) :
      (t.map (·.1.identity)).Nodup :=
    List.pairwise_map.mpr (h.imp fun differs same => by rw [Key.same_iff.mpr same] at differs; cases differs)
  have sub : table.map (·.1.identity) ⊆ other.map (·.1.identity) := by
    intro identity mem
    obtain ⟨c, here, rfl⟩ := List.mem_map.mp mem
    obtain ⟨w, found, -⟩ := each c here
    obtain ⟨key, there, same⟩ := exists_same_of_find?_eq_some found
    exact List.mem_map.mpr ⟨(key, w), there, Key.same_iff.mp same⟩
  have perm := (List.subperm_of_subset (apart distinct) sub).perm_of_length_le (by simp [length])
  intro d there
  obtain ⟨c, here, same⟩ := List.mem_map.mp (perm.mem_iff.mpr (List.mem_map_of_mem there))
  obtain ⟨w, found, related⟩ := each c here
  have same := Key.same_iff.mpr same
  rw [find?_congr other same, find?_of_mem_pairwise distinct' there] at found
  cases found
  exact ⟨c.2, by rw [← find?_congr table same, find?_of_mem_pairwise distinct here], related⟩

end Table

namespace Value

/-- A value as documents and hosts make it: no two of its fields have one key, at any depth. -/
inductive Proper : Value → Prop
  | undefined : Proper .undefined
  | boolean (b : Bool) : Proper (.boolean b)
  | number (n : Number) : Proper (.number n)
  | text (s : String) : Proper (.text s)
  | sequence {items : List Value} : (∀ v ∈ items, Proper v) → Proper (.sequence items)
  | structured {fields : List (Key × Value)} : (fields.Pairwise fun a b => (a.1 == b.1) = false) →
      (∀ c ∈ fields, Proper c.2) → Proper (.structured fields)

theorem alikeItems_self {items : List Value} (each : ∀ v ∈ items, v.alike v = true) :
    alikeItems items items = true := by
  induction items with
  | nil => rfl
  | cons v rest ih =>
    obtain ⟨first, later⟩ := List.forall_mem_cons.mp each
    rw [alikeItems, first, ih later, Bool.and_self]

theorem alikeFields_of_subset {fields few : List (Key × Value)}
    (distinct : fields.Pairwise fun a b => (a.1 == b.1) = false) (each : ∀ c ∈ fields, c.2.alike c.2 = true)
    (sub : few ⊆ fields) : alikeFields few fields = true := by
  induction few with
  | nil => rfl
  | cons c rest ih =>
    obtain ⟨key, v⟩ := c
    obtain ⟨mem, later⟩ := List.cons_subset.mp sub
    rw [alikeFields, Table.find?_of_mem_pairwise distinct mem]
    simp only [each _ mem, ih later, Bool.and_self]

theorem alike_self {v : Value} (proper : v.Proper) : v.alike v = true := by
  induction proper with
  | undefined => rfl
  | boolean b => simp [alike, numeric?, Number.alike_self]
  | number n => simp [alike, numeric?, Number.alike_self]
  | text s => simp [alike]
  | sequence _ ih =>
    rw [alike]
    exact alikeItems_self ih
  | structured distinct _ ih =>
    rw [alike, beq_self_eq_true, Bool.true_and]
    exact alikeFields_of_subset distinct ih (List.Subset.refl _)

/-- What is a number, if it is one, is the same as itself. -/
theorem unchanged_self_of_proper {v : Value} (proper : v.Proper) (number : v ≠ .float .nan) : v.unchanged v = true := by
  cases v with
  | undefined => rfl
  | boolean b => simp [unchanged]
  | text s => simp [unchanged]
  | number n =>
    cases n with
    | int n => simp [unchanged]
    | float d =>
      rw [unchanged]
      exact Number.eq_self fun same => number (congrArg Value.number same)
  | sequence items =>
    have alike := alike_self proper
    rwa [Value.alike] at alike
  | structured fields => exact alike_self proper

/-! ## Which value comes first -/

theorem alikeFields_iff {fields others : List (Key × Value)} : alikeFields fields others = true ↔
    ∀ c ∈ fields, ∃ w, Table.find? others c.1 = some w ∧ c.2.alike w = true := by
  induction fields with
  | nil => simp [alikeFields]
  | cons c rest ih =>
    obtain ⟨key, v⟩ := c
    rw [alikeFields, Bool.and_eq_true, ih, List.forall_mem_cons]
    cases Table.find? others key <;> simp

theorem alikeItems_comm {xs ys : List Value} (each : ∀ x ∈ xs, ∀ y ∈ ys, x.alike y = y.alike x) :
    alikeItems xs ys = alikeItems ys xs := by
  induction xs generalizing ys with
  | nil => cases ys <;> rfl
  | cons x rest ih =>
    cases ys with
    | nil => rfl
    | cons y others =>
      have later : ∀ v ∈ rest, ∀ w ∈ others, v.alike w = w.alike v := fun v mem w mem' =>
        each v (List.mem_cons_of_mem x mem) w (List.mem_cons_of_mem y mem')
      rw [alikeItems, alikeItems, each x List.mem_cons_self y List.mem_cons_self, ih later]

theorem alike_comm {v w : Value} (proper : v.Proper) (proper' : w.Proper) : v.alike w = w.alike v := by
  induction proper generalizing w with
  | undefined => cases w <;> rfl
  | boolean a => cases w <;> simp [alike, numeric?, Number.alike_comm]
  | number n => cases w <;> simp [alike, numeric?, Number.alike_comm]
  | text s => cases w <;> simp [alike, numeric?, Bool.beq_comm]
  | sequence _ ih =>
    cases proper' with
    | sequence each' =>
      rw [alike, alike]
      exact alikeItems_comm fun x mem y mem' => ih x mem (each' y mem')
    | _ => rfl
  | @structured fields distinct _ ih =>
    cases proper' with
    | @structured others distinct' each' =>
      rw [alike, alike, BEq.comm]
      by_cases length : others.length = fields.length
      · have forward : alikeFields fields others = true → alikeFields others fields = true := by
          intro all
          refine alikeFields_iff.mpr (Table.exists_partner (fun v w => w.alike v = true) distinct distinct' length.symm
            fun c mem => ?_)
          obtain ⟨w, found, same⟩ := alikeFields_iff.mp all c mem
          obtain ⟨key, mem'⟩ := Table.exists_mem_of_find?_eq_some found
          exact ⟨w, found, (ih c mem (each' _ mem')).symm.trans same⟩
        have backward : alikeFields others fields = true → alikeFields fields others = true := by
          intro all
          refine alikeFields_iff.mpr (Table.exists_partner (fun v w => w.alike v = true) distinct' distinct length
            fun c mem => ?_)
          obtain ⟨w, found, same⟩ := alikeFields_iff.mp all c mem
          obtain ⟨key, mem'⟩ := Table.exists_mem_of_find?_eq_some found
          exact ⟨w, found, (ih _ mem' (each' c mem)).trans same⟩
        rw [Bool.eq_iff_iff.mpr ⟨forward, backward⟩]
      · rw [beq_eq_false_iff_ne.mpr length, Bool.false_and, Bool.false_and]
    | _ => rfl

end Value

end Questionnaire
