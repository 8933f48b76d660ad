import Mathlib.Algebra.Order.Ring.Int
import Questionnaire.Number.Basic
import Questionnaire.Proofs.Number.Rounding

/-!
# Numbers in order

Numbers are compared by their places on the number line, where each of them but what is no number has one.
-/
namespace Questionnaire

namespace Double

theorem natAbs_signed (negative : Bool) (n : Nat) : (signed negative n).natAbs = n := by
  cases negative with
  | false => rfl
  | true => exact Int.natAbs_neg _

theorem signed_zero (negative : Bool) : signed negative 0 = 0 := by
  cases negative <;> rfl

theorem signed_mul (negative : Bool) (m n : Nat) : signed negative (m * n) = signed negative m * n := by
  cases negative with
  | false => exact Int.natCast_mul m n
  | true => simp [signed]

end Double

namespace Number

variable {a b : Number}

/-- Only what is no number has no place. -/
theorem exists_place (number : a ≠ float .nan) : ∃ p, a.place? = some p := by
  cases a with
  | int n => exact ⟨_, rfl⟩
  | float d =>
    cases d with
    | nan => exact absurd rfl number
    | infinity negative => exact ⟨_, rfl⟩
    | finite negative units => exact ⟨_, rfl⟩

theorem place?_int (n : Int) : (int n).place? = some (0, n * Double.unitsPerOne) := rfl

theorem eq_of_place {p : Int × Int} (placed : a.place? = some p) (placed' : b.place? = some p) : a.eq b = true := by
  simp [eq, placed, placed']

theorem eq_self (number : a ≠ float .nan) : a.eq a = true := by
  obtain ⟨p, placed⟩ := exists_place number
  exact eq_of_place placed placed

theorem eq_int (m n : Int) : (int m).eq (int n) = (m == n) := by
  have one : (Double.unitsPerOne : Int) ≠ 0 := Int.natCast_ne_zero.mpr Double.unitsPerOne_pos.ne'
  rw [eq, place?_int, place?_int]
  generalize (Double.unitsPerOne : Int) = units at one
  rw [Bool.eq_iff_iff]
  simp [one]

/-- A double without a fraction is equal to the integer it stands for. -/
theorem eq_normalize (number : a ≠ float .nan) : a.eq a.normalize = true := by
  unfold normalize
  split
  · exact eq_self number
  · rename_i d
    split
    · rename_i k whole
      cases d with
      | nan => cases whole
      | infinity negative => cases whole
      | finite negative units =>
        rw [Double.toInt?] at whole
        split at whole
        · rename_i exact
          cases whole
          have place : Double.signed negative (units / Double.unitsPerOne) * Double.unitsPerOne =
              Double.signed negative units := by
            rw [← Double.signed_mul, Nat.div_mul_cancel (Nat.dvd_of_mod_eq_zero (eq_of_beq exact))]
          exact eq_of_place rfl ((place?_int _).trans (congrArg (fun units => some (0, units)) place))
        · cases whole
    · exact eq_self number

theorem eq_comm (a b : Number) : a.eq b = b.eq a := by
  unfold eq
  cases a.place? with
  | none => cases b.place? <;> rfl
  | some p =>
    cases b.place? with
    | none => rfl
    | some q =>
      dsimp only
      rw [BEq.comm (a := p.1), BEq.comm (a := p.2)]

theorem le_eq_lt_or_eq (a b : Number) : a.le b = (a.lt b || a.eq b) := by
  unfold le lt eq
  cases a.place? with
  | none => rfl
  | some p =>
    cases b.place? with
    | none => rfl
    | some q =>
      have split : decide (p.2 ≤ q.2) = (decide (p.2 < q.2) || p.2 == q.2) := by
        rw [Bool.eq_iff_iff]
        simp [Int.le_iff_lt_or_eq]
      simp only [split]
      rw [Bool.and_or_distrib_left, Bool.or_assoc]

/-- Of two numbers one comes before the other, or they have the same place. -/
theorem count_order (number : a ≠ float .nan) (number' : b ≠ float .nan) :
    [a.lt b, a.eq b, b.lt a].count true = 1 := by
  obtain ⟨p, placed⟩ := exists_place number
  obtain ⟨q, placed'⟩ := exists_place number'
  simp only [lt, eq, placed, placed']
  rcases lt_trichotomy p.1 q.1 with before | same | behind
  · simp [before, before.not_gt, before.ne, before.ne']
  · rcases lt_trichotomy p.2 q.2 with before | same' | behind
    · simp [same, before, before.not_gt, before.ne]
    · simp [same, same']
    · simp [same, behind, behind.not_gt, behind.ne']
  · simp [behind, behind.not_gt, behind.ne']

/-! ## Numbers as a chain

The relations are those of a linear order, but for two things: what is no number stands outside of it, and an integer
and a double may share a place.  Two numbers that share one become the same number once they are integers where they
can. -/

theorem lt_iff_of_place {p q : Int × Int} (placed : a.place? = some p) (placed' : b.place? = some q) :
    a.lt b = true ↔ p.1 < q.1 ∨ p.1 = q.1 ∧ p.2 < q.2 := by
  simp [lt, placed, placed']

theorem lt_irrefl (a : Number) : a.lt a = false := by
  unfold lt
  cases a.place? <;> simp

theorem exists_place_of_lt (before : a.lt b = true) : ∃ p q, a.place? = some p ∧ b.place? = some q := by
  unfold lt at before
  cases left : a.place? with
  | none => simp [left] at before
  | some p =>
    cases right : b.place? with
    | none => simp [left, right] at before
    | some q => exact ⟨p, q, rfl, rfl⟩

theorem lt_trans {c : Number} (before : a.lt b = true) (behind : b.lt c = true) : a.lt c = true := by
  obtain ⟨p, q, first, second⟩ := exists_place_of_lt before
  obtain ⟨-, r, -, third⟩ := exists_place_of_lt behind
  rw [lt_iff_of_place first second] at before
  rw [lt_iff_of_place second third] at behind
  rw [lt_iff_of_place first third]
  omega

theorem le_of_not_lt (number : a ≠ float .nan) (number' : b ≠ float .nan) (not : b.lt a = false) :
    a.le b = true := by
  have one := count_order number number'
  rw [le_eq_lt_or_eq]
  cases before : a.lt b with
  | true => rfl
  | false =>
    rw [before, not] at one
    cases same : a.eq b with
    | true => rfl
    | false => simp [same] at one

theorem eq_of_le_of_le (before : a.le b = true) (behind : b.le a = true) : a.eq b = true := by
  rw [le_eq_lt_or_eq, Bool.or_eq_true] at before behind
  rcases before with less | same
  · rcases behind with less' | same
    · have none := lt_irrefl a
      rw [lt_trans less less'] at none
      cases none
    · rwa [eq_comm]
  · exact same

/-- A double other than the zeros is the only one in its place. -/
theorem eq_of_eq_float {a b : Double} (same : (float a).eq (float b) = true)
    (apart : ∀ negative, b ≠ .finite negative 0) : a = b := by
  cases a with
  | nan => cases same
  | infinity sign =>
    cases b with
    | nan => cases same
    | infinity sign' => cases sign <;> cases sign' <;> simp_all [eq, place?]
    | finite sign' units' => cases sign <;> simp [eq, place?] at same
  | finite sign units =>
    cases b with
    | nan => cases same
    | infinity sign' => cases sign' <;> simp [eq, place?] at same
    | finite sign' units' =>
      have filled : units' ≠ 0 := fun none => apart sign' (congrArg _ none)
      have places : Double.signed sign units = Double.signed sign' units' := by simpa [eq, place?] using same
      cases sign <;> cases sign' <;> simp [Double.signed] at places ⊢ <;> omega

theorem eq_iff : a.eq b = true ↔ ∃ p, a.place? = some p ∧ b.place? = some p := by
  constructor
  · intro same
    unfold eq at same
    split at same
    · rename_i p q first second
      have sides : p.1 = q.1 ∧ p.2 = q.2 := by simpa using same
      exact ⟨p, first, second.trans (congrArg some (Prod.ext sides.1 sides.2).symm)⟩
    · cases same
  · rintro ⟨p, first, second⟩
    exact eq_of_place first second

/-- A double in an integer's place stands for that integer. -/
theorem normalize_float_of_eq_int {n : Int} {d : Double} (same : (float d).eq (int n) = true) :
    (float d).normalize = int n := by
  obtain ⟨p, placed, placed'⟩ := eq_iff.mp same
  cases d with
  | nan => cases placed
  | infinity negative => cases negative <;> cases placed.trans placed'.symm
  | finite negative units =>
    have place : Double.signed negative units = n * Double.unitsPerOne :=
      congrArg Prod.snd (Option.some.inj (placed.trans placed'.symm))
    have size : units = n.natAbs * Double.unitsPerOne := by
      have sizes := congrArg Int.natAbs place
      rwa [Double.natAbs_signed, Int.natAbs_mul, Int.natAbs_natCast] at sizes
    have sign : Double.signed negative n.natAbs = n := by
      rw [size, Double.signed_mul] at place
      exact mul_right_cancel₀ (Int.natCast_ne_zero.mpr Double.unitsPerOne_pos.ne') place
    have whole : Double.toInt? (.finite negative units) = some n := by
      rw [Double.toInt?, size, Nat.mul_mod_left, Nat.mul_div_cancel _ Double.unitsPerOne_pos, sign]
      rfl
    rw [normalize, whole]

theorem normalize_eq_of_eq (same : a.eq b = true) : a.normalize = b.normalize := by
  cases a with
  | int m =>
    cases b with
    | int n => exact congrArg int (eq_of_beq ((eq_int m n).symm.trans same))
    | float d => exact (normalize_float_of_eq_int ((eq_comm _ _).trans same)).symm
  | float c =>
    cases b with
    | int n => exact normalize_float_of_eq_int same
    | float d =>
      by_cases apart : ∀ negative, d ≠ .finite negative 0
      · rw [eq_of_eq_float same apart]
      · -- Both zeros are in the place of the integer.
        obtain ⟨negative, zero⟩ := not_forall_not.mp apart
        have place : (float d).place? = (int 0).place? := by
          rw [zero, place?_int, Int.zero_mul]
          exact congrArg (fun units => some (0, units)) (Double.signed_zero negative)
        obtain ⟨p, placed, placed'⟩ := eq_iff.mp same
        rw [normalize_float_of_eq_int (eq_of_place placed (place.symm.trans placed')),
          normalize_float_of_eq_int (eq_of_place placed' (place.symm.trans placed'))]

end Number

end Questionnaire
