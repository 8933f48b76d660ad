import Mathlib.Algebra.Order.Field.Basic
import Mathlib.Algebra.Order.Field.Rat
import Mathlib.Data.Nat.Cast.Order.Field
import Mathlib.Tactic.FieldSimp
import Mathlib.Tactic.Linarith
import Mathlib.Tactic.NormNum
import Mathlib.Tactic.Positivity
import Questionnaire.Number.Double

/-!
# How far rounding goes

A ratio is rounded to a multiple of the spacing around it, so it moves by half of that at most.  The spacing is one
unit, or no more than the 2^52nd part of the ratio.
-/
namespace Questionnaire.Double

/-! ## Units -/

/-- Rounding to a whole number moves a ratio by one half at most. -/
theorem abs_roundHalfEven_sub_le (num : Nat) {den : Nat} (positive : 0 < den) :
    |(roundHalfEven num den : ℚ) - num / den| ≤ 1 / 2 := by
  have positive' : (0 : ℚ) < den := by exact_mod_cast positive
  have value : (num : ℚ) / den = (num / den : Nat) + (num % den : Nat) / den := by
    have split : (num : ℚ) = (num / den : Nat) * den + (num % den : Nat) := by
      exact_mod_cast (Nat.div_add_mod' num den).symm
    rw [← mul_div_cancel_right₀ ((num / den : Nat) : ℚ) positive'.ne', ← add_div, ← split]
  have less : ((num % den : Nat) : ℚ) / den < 1 := by
    rw [div_lt_one positive']
    exact_mod_cast Nat.mod_lt num positive
  have least : 0 ≤ ((num % den : Nat) : ℚ) / den := by positivity
  rw [value, roundHalfEven]
  split
  · rename_i down
    have near : ((num % den : Nat) : ℚ) / den ≤ 1 / 2 := by
      rw [div_le_iff₀ positive']
      have : 2 * (num % den) ≤ den := by
        simp only [Bool.or_eq_true, decide_eq_true_eq, Bool.and_eq_true, beq_iff_eq] at down
        omega
      have : 2 * ((num % den : Nat) : ℚ) ≤ den := by exact_mod_cast this
      linarith
    rw [abs_le]
    constructor <;> linarith
  · rename_i up
    have far : 1 / 2 ≤ ((num % den : Nat) : ℚ) / den := by
      rw [le_div_iff₀ positive']
      have : den ≤ 2 * (num % den) := by
        simp only [Bool.or_eq_true, decide_eq_true_eq, Bool.and_eq_true, beq_iff_eq, not_or] at up
        omega
      have : (den : ℚ) ≤ 2 * ((num % den : Nat) : ℚ) := by exact_mod_cast this
      linarith
    push_cast
    rw [abs_le]
    constructor <;> linarith

theorem roundHalfEven_le {num den k : Nat} (positive : 0 < den) (most : num ≤ k * den) : roundHalfEven num den ≤ k := by
  have positive' : (0 : ℚ) < den := by exact_mod_cast positive
  have near := (abs_le.mp (abs_roundHalfEven_sub_le num positive)).2
  have most : (num : ℚ) / den ≤ k := by
    rw [div_le_iff₀ positive']
    exact_mod_cast most
  have less : (roundHalfEven num den : ℚ) < (k + 1 : Nat) := by
    push_cast
    linarith
  exact Nat.lt_succ_iff.mp (Nat.cast_lt.mp less)

theorem spacing_pos (units : Nat) : 0 < spacing units := Nat.pow_pos (by decide)

theorem spacing_eq_one_or (units : Nat) : spacing units = 1 ∨ 2 ^ 52 * spacing units ≤ units := by
  by_cases small : units.log2 ≤ 52
  · left
    rw [spacing, Nat.sub_eq_zero_of_le small]
  · right
    have nonzero : units ≠ 0 := by
      rintro rfl
      exact small (by decide)
    calc 2 ^ 52 * spacing units = 2 ^ units.log2 := by
          rw [spacing, Nat.pow_eq, ← Nat.pow_add, Nat.add_sub_cancel' (Nat.le_of_not_le small)]
      _ ≤ units := Nat.log2_self_le nonzero

theorem spacing_le {units : Nat} (nonzero : units ≠ 0) : spacing units ≤ units := by
  rcases spacing_eq_one_or units with one | small
  · rw [one]
    exact Nat.one_le_iff_ne_zero.mpr nonzero
  · omega

theorem nearestUnits_pos {units : Nat} (nonzero : units ≠ 0) : 0 < nearestUnits units 1 := by
  have gap : 0 < spacing units := spacing_pos units
  have whole : 0 < units / spacing units := Nat.div_pos (spacing_le nonzero) gap
  rw [nearestUnits, Nat.div_one, Nat.one_mul]
  refine Nat.mul_pos ?_ gap
  unfold roundHalfEven
  extract_lets quotient twice
  split
  · exact whole
  · exact Nat.succ_pos _

/-- Rounding to a double moves a ratio by its 2^53rd part at most, or by half a unit. -/
theorem abs_nearestUnits_sub_le (num : Nat) {den : Nat} (positive : 0 < den) :
    |(nearestUnits num den : ℚ) - num / den| ≤ num / den / 2 ^ 53 + 1 / 2 := by
  have positive' : (0 : ℚ) < den := by exact_mod_cast positive
  have ratio : (0 : ℚ) ≤ num / den := by positivity
  rw [nearestUnits]
  have gap_pos := spacing_pos (num / den)
  have gap_le := spacing_eq_one_or (num / den)
  generalize spacing (num / den) = gap at gap_pos gap_le
  have gap_pos' : (0 : ℚ) < gap := by exact_mod_cast gap_pos
  have near := abs_roundHalfEven_sub_le num (Nat.mul_pos positive gap_pos)
  have scaled : |((roundHalfEven num (den * gap) * gap : Nat) : ℚ) - num / den| ≤ gap / 2 := by
    have moved : ((roundHalfEven num (den * gap) * gap : Nat) : ℚ) - num / den =
        (roundHalfEven num (den * gap) - num / (den * gap : Nat)) * gap := by
      push_cast
      field_simp
    rw [moved, abs_mul, abs_of_pos gap_pos']
    have := mul_le_mul_of_nonneg_right near gap_pos'.le
    linarith
  refine scaled.trans ?_
  rcases gap_le with rfl | small
  · push_cast
    have : (0 : ℚ) ≤ num / den / 2 ^ 53 := by positivity
    linarith
  · have small' : (2 ^ 52 * gap : ℚ) ≤ num / den := by
      have floor : ((num / den : Nat) : ℚ) ≤ num / den := Nat.cast_div_le
      have : ((2 ^ 52 * gap : Nat) : ℚ) ≤ ((num / den : Nat) : ℚ) := by exact_mod_cast small
      push_cast at this
      exact this.trans floor
    have : (gap : ℚ) / 2 ≤ num / den / 2 ^ 53 := by
      rw [le_div_iff₀ (by positivity)]
      linarith
    linarith

/-! ## Doubles from above -/

/-- What a number of a given size may become in rounding. -/
def rounded (x : ℚ) : ℚ := (1 + 1 / 2 ^ 53) * x + 1 / 2

/-- One and the limit of doubles are powers of two, which are too large to be looked into: their exponents stand
apart. -/
theorem exists_powers : ∃ k, k = 1074 ∧ unitsPerOne = 2 ^ k ∧ unitLimit = 2 ^ (k + 1024) :=
  ⟨unitsPerOne.log2, by decide +kernel⟩

theorem unitsPerOne_pos : 0 < unitsPerOne := by
  obtain ⟨k, -, one, -⟩ := exists_powers
  rw [one]
  exact Nat.two_pow_pos k

theorem unitLimit_pos : 0 < unitLimit := by
  obtain ⟨k, -, -, limit⟩ := exists_powers
  rw [limit]
  exact Nat.two_pow_pos _

theorem one_le_unitsPerOne : (1 : ℚ) ≤ unitsPerOne := Nat.one_le_cast.mpr unitsPerOne_pos

theorem unitLimit_ge : 2 ^ 100 * (unitsPerOne : ℚ) ≤ unitLimit := by
  obtain ⟨k, -, one, limit⟩ := exists_powers
  have powers : 2 ^ 100 * 2 ^ k ≤ 2 ^ (k + 1024) := by
    rw [← Nat.pow_add]
    exact Nat.pow_le_pow_right (by decide) (by omega)
  rw [one, limit]
  exact_mod_cast powers

theorem exists_ofUnits {num den : Nat} (positive : 0 < den) {x : ℚ} (size : (num : ℚ) / den ≤ x * unitsPerOne)
    (range : rounded x < 2 ^ 100) (negative : Bool) :
    ∃ units, ofUnits negative num den = finite negative units ∧ (units : ℚ) ≤ rounded x * unitsPerOne := by
  have near := (abs_le.mp (abs_nearestUnits_sub_le num positive)).2
  have one := one_le_unitsPerOne
  have bound : (nearestUnits num den : ℚ) ≤ rounded x * unitsPerOne := by
    rw [rounded]
    linarith
  have finite : nearestUnits num den < unitLimit := by
    have : (nearestUnits num den : ℚ) < unitLimit := by
      refine bound.trans_lt (lt_of_lt_of_le ?_ unitLimit_ge)
      exact mul_lt_mul_of_pos_right range (by linarith)
    exact_mod_cast this
  exact ⟨_, by rw [ofUnits, if_pos finite], bound⟩

theorem exists_ofRatio {num den : Nat} (positive : 0 < den) {x : ℚ} (size : (num : ℚ) / den ≤ x)
    (range : rounded x < 2 ^ 100) (negative : Bool) :
    ∃ units, ofRatio negative num den = finite negative units ∧ (units : ℚ) ≤ rounded x * unitsPerOne := by
  have counted : ((unitsPerOne * num : Nat) : ℚ) / den ≤ x * unitsPerOne := by
    rw [Nat.cast_mul, mul_div_assoc, mul_comm]
    exact mul_le_mul_of_nonneg_right size (Nat.cast_nonneg unitsPerOne)
  rw [ofRatio]
  exact exists_ofUnits positive counted range negative

theorem ofUnits_of_many {num : Nat} (many : 2 * unitLimit ≤ num) (negative : Bool) :
    ofUnits negative num 1 = infinity negative := by
  have near := (abs_le.mp (abs_nearestUnits_sub_le num one_pos)).1
  have many' : 2 * (unitLimit : ℚ) ≤ num := by exact_mod_cast many
  have one := one_le_unitsPerOne
  have limit := unitLimit_ge
  have great : (unitLimit : ℚ) ≤ nearestUnits num 1 := by
    rw [Nat.cast_one, div_one] at near
    linarith
  rw [ofUnits, if_neg (Nat.not_lt.mpr (Nat.cast_le.mp great))]

/-- A finite double is the nearest one. -/
theorem units_of_ofUnits {negative other : Bool} {num den units : Nat}
    (h : ofUnits negative num den = finite other units) : nearestUnits num den = units := by
  unfold ofUnits at h
  generalize nearestUnits num den = nearest at h ⊢
  extract_lets nearest' at h
  split at h
  · injection h
  · cases h

/-- A double that is not above a rational. -/
inductive AtMost (x : ℚ) : Double → Prop
  | infinity : AtMost x (.infinity true)
  | finite {negative : Bool} {units : Nat} : (signed negative units : ℚ) ≤ x * unitsPerOne →
      AtMost x (.finite negative units)

theorem AtMost.mono {d : Double} {x y : ℚ} (bound : d.AtMost x) (less : x ≤ y) : d.AtMost y := by
  cases bound with
  | infinity => exact .infinity
  | finite bound => exact .finite (bound.trans (mul_le_mul_of_nonneg_right less (Nat.cast_nonneg _)))

theorem signed_le (negative : Bool) (units : Nat) : (signed negative units : ℚ) ≤ units := by
  cases negative with
  | false => exact le_of_eq (Int.cast_natCast units)
  | true =>
    rw [signed, if_pos rfl, Int.cast_neg, Int.cast_natCast]
    have : (0 : ℚ) ≤ units := Nat.cast_nonneg units
    linarith

theorem AtMost.ofUnits {num den : Nat} (positive : 0 < den) {x : ℚ} (size : (num : ℚ) / den ≤ x * unitsPerOne)
    (range : rounded x < 2 ^ 100) (negative : Bool) : AtMost (rounded x) (ofUnits negative num den) := by
  obtain ⟨units, value, bound⟩ := exists_ofUnits positive size range negative
  rw [value]
  exact .finite ((signed_le negative units).trans bound)

theorem AtMost.ofRatio {num den : Nat} (positive : 0 < den) {x : ℚ} (size : (num : ℚ) / den ≤ x)
    (range : rounded x < 2 ^ 100) (negative : Bool) : AtMost (rounded x) (ofRatio negative num den) := by
  obtain ⟨units, value, bound⟩ := exists_ofRatio positive size range negative
  rw [value]
  exact .finite ((signed_le negative units).trans bound)

theorem AtMost.ofUnits_negative {x : ℚ} (least : 0 ≤ x) (num den : Nat) : AtMost x (Double.ofUnits true num den) := by
  rw [Double.ofUnits]
  split
  · refine .finite ?_
    rw [signed, if_pos rfl, Int.cast_neg, Int.cast_natCast]
    have : (0 : ℚ) ≤ nearestUnits num den := Nat.cast_nonneg _
    have := mul_nonneg least (zero_le_one.trans one_le_unitsPerOne)
    linarith
  · exact .infinity

/-- The sum of two doubles is not above the rounded sum of what they are not above. -/
theorem AtMost.add {a b : Double} {x y : ℚ} (first : a.AtMost x) (second : b.AtMost y) (least : 0 ≤ x + y)
    (range : rounded (x + y) < 2 ^ 100) : (a.add b).AtMost (rounded (x + y)) := by
  have least' : 0 ≤ rounded (x + y) := by
    rw [rounded]
    positivity
  cases first with
  | infinity => cases second <;> exact .infinity
  | @finite s u first =>
    cases second with
    | infinity => exact .infinity
    | @finite t v second =>
      have total : ((signed s u + signed t v : Int) : ℚ) ≤ (x + y) * unitsPerOne := by
        push_cast
        linarith
      rw [Double.add]
      generalize signed s u + signed t v = sum at total
      split
      · refine .finite ((signed_le _ _).trans ?_)
        rw [Nat.cast_zero]
        exact mul_nonneg least' (zero_le_one.trans one_le_unitsPerOne)
      · by_cases negative : sum < 0
        · rw [decide_eq_true negative]
          exact AtMost.ofUnits_negative least' _ _
        · have size : ((sum.natAbs : Nat) : ℚ) / (1 : Nat) ≤ (x + y) * unitsPerOne := by
            rw [Nat.cast_natAbs, abs_of_nonneg (Int.not_lt.mp negative), Nat.cast_one, div_one]
            exact total
          exact AtMost.ofUnits one_pos size range _

theorem AtMost.mul {u v : Nat} {x y : ℚ} (first : (u : ℚ) ≤ x * unitsPerOne) (second : (v : ℚ) ≤ y * unitsPerOne)
    (range : rounded (x * y) < 2 ^ 100) : ((Double.finite false u).mul (.finite false v)).AtMost (rounded (x * y)) := by
  have one := one_le_unitsPerOne
  have size : ((u * v : Nat) : ℚ) / unitsPerOne ≤ x * y * unitsPerOne := by
    rw [div_le_iff₀ (by linarith)]
    push_cast
    have := mul_le_mul first second (Nat.cast_nonneg v) ((Nat.cast_nonneg u).trans first)
    linarith
  rw [Double.mul]
  exact AtMost.ofUnits unitsPerOne_pos size range _

theorem toNat_truncate (negative : Bool) (units : Nat) :
    ((finite negative units).truncate?.getD 0).toNat = if negative then 0 else units / unitsPerOne := by
  rw [truncate?, Option.getD_some]
  cases negative with
  | true =>
    rw [signed, if_pos rfl]
    exact Int.toNat_neg_natCast _
  | false => rfl

/-- The whole part of a double is not above what the double is not above. -/
theorem AtMost.truncate {d : Double} {x : ℚ} (bound : d.AtMost x) (least : 0 ≤ x) :
    (((d.truncate?.getD 0).toNat : Nat) : ℚ) ≤ x := by
  cases bound with
  | infinity => simpa [truncate?] using least
  | @finite negative units bound =>
    rw [toNat_truncate]
    cases negative with
    | true => simpa using least
    | false =>
      have one := one_le_unitsPerOne
      have bound : (units : ℚ) ≤ x * unitsPerOne := bound
      exact Nat.cast_div_le.trans ((div_le_iff₀ (by linarith)).mpr bound)

end Questionnaire.Double
