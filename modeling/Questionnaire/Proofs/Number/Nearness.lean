import Questionnaire.Proofs.Number.Comparison
import Questionnaire.Proofs.Number.Logarithm

/-!
# How close the logarithms of integers are

The logarithm of an integer beyond the range of doubles is put together from parts: the logarithm of its leading binary
digits, and their number times the logarithm of two.  Each part is rounded, and the first is only looked at for being
between minus two thirds and one third.  That is enough: up to 2^40 binary digits the sum is less than one off.
-/
namespace Questionnaire

/-! ## Doubles from both sides -/

namespace Double

/-- A finite double that is no farther than `e` from a rational. -/
def Near (d : Double) (x e : ℚ) : Prop :=
  ∃ negative units, d = .finite negative units ∧ |(signed negative units : ℚ) / unitsPerOne - x| ≤ e

/-- How far rounding may move a number of some size. -/
def slip (size : ℚ) : ℚ := (size + 1) / 2 ^ 53

theorem slip_mono {a b : ℚ} (less : a ≤ b) : slip a ≤ slip b := by
  unfold slip
  gcongr

theorem slip_nonneg {a : ℚ} (least : 0 ≤ a) : 0 ≤ slip a := by
  unfold slip
  positivity

variable {d : Double} {x e : ℚ}

theorem Near.mono {e' : ℚ} (near : d.Near x e) (less : e ≤ e') : d.Near x e' := by
  obtain ⟨negative, units, value, bound⟩ := near
  exact ⟨negative, units, value, bound.trans less⟩

/-- What is near one rational is near another, by so much less. -/
theorem Near.shift {y : ℚ} (near : d.Near x e) : d.Near y (e + |x - y|) := by
  obtain ⟨negative, units, value, bound⟩ := near
  exact ⟨negative, units, value, (abs_sub_le _ x _).trans (add_le_add_left bound _)⟩

theorem two_pow_le_unitsPerOne : (2 ^ 53 : ℚ) ≤ unitsPerOne := by
  obtain ⟨k, places, power, -⟩ := exists_powers
  have less : 2 ^ 53 ≤ 2 ^ k := Nat.pow_le_pow_right (by decide) (by omega)
  rw [power]
  exact_mod_cast less

theorem sign_natAbs_div (n : Int) (den : ℚ) :
    (if decide (n < 0) then -((n.natAbs : ℚ) / den) else n.natAbs / den) = n / den := by
  rw [Nat.cast_natAbs]
  by_cases negative : n < 0
  · rw [decide_eq_true negative, if_pos rfl, abs_of_neg negative, Int.cast_neg, neg_div, neg_neg]
  · rw [decide_eq_false negative, if_neg Bool.false_ne_true, abs_of_nonneg (Int.not_lt.mp negative)]

/-- A sign on both sides does not change how far apart they are. -/
theorem abs_signed_sub (negative : Bool) (n : Nat) (y : ℚ) :
    |(signed negative n : ℚ) - (if negative then -y else y)| = |(n : ℚ) - y| := by
  cases negative with
  | true =>
    rw [signed, if_pos rfl, if_pos rfl, Int.cast_neg, Int.cast_natCast, neg_sub_neg]
    exact abs_sub_comm _ _
  | false => rw [signed, if_neg Bool.false_ne_true, if_neg Bool.false_ne_true, Int.cast_natCast]

/-- One rounding, of a number that is counted in units. -/
theorem near_ofUnits {num den : Nat} (positive : 0 < den) {negative : Bool}
    (value : (if negative then -((num : ℚ) / den) else num / den) = x * unitsPerOne) (range : |x| < 2 ^ 99) :
    (ofUnits negative num den).Near x (slip |x|) := by
  have positive' : (0 : ℚ) < unitsPerOne := Nat.cast_pos.mpr unitsPerOne_pos
  have many := two_pow_le_unitsPerOne
  have limit := unitLimit_ge
  have least : (0 : ℚ) ≤ num / den := div_nonneg (Nat.cast_nonneg num) (Nat.cast_nonneg den)
  have near := abs_nearestUnits_sub_le num positive
  unfold Near
  -- the number of units in one is too large to be looked into
  generalize (unitsPerOne : ℚ) = one at value positive' many limit ⊢
  have size : (num : ℚ) / den = |x| * one := by
    rw [← abs_of_pos positive', ← abs_mul, ← value]
    cases negative with
    | true => rw [if_pos rfl, abs_neg, abs_of_nonneg least]
    | false => rw [if_neg Bool.false_ne_true, abs_of_nonneg least]
  have moved : |(signed negative (nearestUnits num den) : ℚ) - x * one| = |(nearestUnits num den : ℚ) - num / den| := by
    rw [← value]
    exact abs_signed_sub negative _ _
  have finite : nearestUnits num den < unitLimit := by
    have below := (abs_le.mp near).2
    rw [size] at below
    have room : |x| * one < 2 ^ 99 * one := mul_lt_mul_of_pos_right range positive'
    have less : (nearestUnits num den : ℚ) < unitLimit := by
      refine lt_of_lt_of_le ?_ limit
      linarith
    exact_mod_cast less
  refine ⟨negative, nearestUnits num den, by rw [ofUnits, if_pos finite], ?_⟩
  have whole : (signed negative (nearestUnits num den) : ℚ) / one - x =
      (signed negative (nearestUnits num den) - x * one) / one := by
    rw [sub_div, mul_div_cancel_right₀ _ positive'.ne']
  rw [whole, abs_div, abs_of_pos positive', moved, div_le_iff₀ positive', slip]
  refine near.trans ?_
  rw [size]
  linarith

theorem near_ofRatio {num den : Nat} (positive : 0 < den) {negative : Bool}
    (value : (if negative then -((num : ℚ) / den) else num / den) = x) (range : |x| < 2 ^ 99) :
    (ofRatio negative num den).Near x (slip |x|) := by
  refine near_ofUnits positive ?_ range
  rw [← value, Nat.cast_mul, mul_div_assoc]
  split <;> ring

theorem abs_le_of_near {p y f : ℚ} (near : |p - y| ≤ f) : |p| ≤ |y| + f := by
  have way := abs_sub_abs_le_abs_sub p y
  linarith

/-- The sum of two doubles is off by what they are off, and by one rounding. -/
theorem Near.add {c : Double} {y f : ℚ} (first : d.Near x e) (second : c.Near y f)
    (range : |x + y| + (e + f) < 2 ^ 99) :
    (d.add c).Near (x + y) (e + f + slip (|x + y| + (e + f))) := by
  obtain ⟨s, u, rfl, bound⟩ := first
  obtain ⟨t, v, rfl, bound'⟩ := second
  have positive : (0 : ℚ) < unitsPerOne := Nat.cast_pos.mpr unitsPerOne_pos
  rw [Double.add]
  generalize total : signed s u + signed t v = sum
  have off : |(sum : ℚ) / unitsPerOne - (x + y)| ≤ e + f := by
    have parts : (sum : ℚ) / unitsPerOne - (x + y) =
        ((signed s u : ℚ) / unitsPerOne - x) + ((signed t v : ℚ) / unitsPerOne - y) := by
      rw [← total, Int.cast_add, add_div]
      ring
    rw [parts]
    exact (abs_add_le _ _).trans (add_le_add bound bound')
  have size := abs_le_of_near off
  split
  · rename_i zero
    refine ⟨_, _, rfl, ?_⟩
    rw [beq_iff_eq.mp zero, Int.cast_zero, zero_div] at off size
    rw [signed_zero, Int.cast_zero, zero_div]
    exact off.trans (le_add_of_nonneg_right (slip_nonneg ((abs_nonneg _).trans size)))
  · have value : (if decide (sum < 0) then -((sum.natAbs : ℚ) / (1 : Nat)) else sum.natAbs / (1 : Nat)) =
        (sum : ℚ) / unitsPerOne * unitsPerOne := by
      rw [sign_natAbs_div, div_mul_cancel₀ _ positive.ne', Nat.cast_one, div_one]
    have rounded := near_ofUnits one_pos value (size.trans_lt range)
    refine rounded.shift.mono ?_
    have := slip_mono size
    linarith

/-- The product of two doubles is off by what each is off times the other, and by one rounding. -/
theorem Near.mul {c : Double} {y f : ℚ} (first : d.Near x e) (second : c.Near y f)
    (range : |x * y| + (e * (|y| + f) + |x| * f) < 2 ^ 99) :
    (d.mul c).Near (x * y) (e * (|y| + f) + |x| * f + slip (|x * y| + (e * (|y| + f) + |x| * f))) := by
  obtain ⟨s, u, rfl, bound⟩ := first
  obtain ⟨t, v, rfl, bound'⟩ := second
  have positive : (0 : ℚ) < unitsPerOne := Nat.cast_pos.mpr unitsPerOne_pos
  have size' := abs_le_of_near bound'
  have value : (if s != t then -(((u * v : Nat) : ℚ) / unitsPerOne) else ((u * v : Nat) : ℚ) / unitsPerOne) =
      (signed s u : ℚ) / unitsPerOne * ((signed t v : ℚ) / unitsPerOne) * unitsPerOne := by
    rw [mul_assoc, div_mul_cancel₀ _ positive.ne']
    generalize (unitsPerOne : ℚ) = one
    cases s <;> cases t <;> simp [signed] <;> ring
  generalize (signed s u : ℚ) / unitsPerOne = p at bound value
  generalize (signed t v : ℚ) / unitsPerOne = q at bound' size' value
  have off : |p * q - x * y| ≤ e * (|y| + f) + |x| * f := by
    have parts : p * q - x * y = (p - x) * q + x * (q - y) := by ring
    rw [parts]
    refine (abs_add_le _ _).trans ?_
    rw [abs_mul, abs_mul]
    exact add_le_add (mul_le_mul bound size' (abs_nonneg _) ((abs_nonneg _).trans bound))
      (mul_le_mul_of_nonneg_left bound' (abs_nonneg _))
  have size := abs_le_of_near off
  have rounded := near_ofUnits unitsPerOne_pos value (size.trans_lt range)
  refine rounded.shift.mono ?_
  have := slip_mono size
  linarith

end Double

/-! ## Logarithms from both sides -/

namespace Logarithm

open Double (Near slip unitsPerOne)

/-- The quotient of the exponents is a convergent to the decimal logarithm of two, not below it. -/
theorem two_pow_le : Nat.pow 2 6107016 ≤ Nat.pow 10 1838395 := by decide +kernel

/-- The logarithm of what is between one quarter and two is between minus two thirds and one third. -/
theorem ofUnits_near {units : Nat} (least : 1072 ≤ units.log2) (most : units.log2 ≤ 1074) :
    (ofUnits units).Near (-1 / 6) (1 / 2 + slip 1) := by
  have nonzero : units ≠ 0 := by
    rintro rfl
    rw [Nat.log2_zero] at least
    omega
  have factor : 4 * ratio units (Nat.pow 2 units.log2) ≤ 3 * scale := by
    refine ratio_le (Nat.log2_self_le nonzero) ?_ (Nat.pow_pos (by decide))
    rw [Nat.mul_comm]
    exact Nat.lt_log2_self.le
  have doubling : 4 * two ≤ 3 * scale := ratio_le (by decide) (by decide) (by decide)
  have natural_ten := constants.1
  have positive : 0 < ten := by
    have := scale_pos
    omega
  rw [ofUnits]
  generalize ratio units (Nat.pow 2 units.log2) = above at factor
  generalize hn : (above : Int) + ((units.log2 : Int) - 1074) * two = natural
  have bounds : -(2 * ten) ≤ 3 * natural ∧ 3 * natural ≤ ten := by
    obtain same | same | same : units.log2 = 1072 ∨ units.log2 = 1073 ∨ units.log2 = 1074 := by omega
    all_goals
      rw [same] at hn
      omega
  have positive' : (0 : ℚ) < ten := Nat.cast_pos.mpr positive
  have lower : -(2 / 3) ≤ (natural : ℚ) / ten := by
    rw [le_div_iff₀ positive']
    have : -(2 * ten : ℚ) ≤ 3 * natural := by exact_mod_cast bounds.1
    linarith
  have upper : (natural : ℚ) / ten ≤ 1 / 3 := by
    rw [div_le_iff₀ positive']
    have : (3 * natural : ℚ) ≤ ten := by exact_mod_cast bounds.2
    linarith
  have size : |(natural : ℚ) / ten| ≤ 1 := abs_le.mpr ⟨by linarith, by linarith⟩
  have rounded := Double.near_ofRatio positive (Double.sign_natAbs_div natural ten) (size.trans_lt (by norm_num))
  refine rounded.shift.mono ?_
  have middle : |(natural : ℚ) / ten - -1 / 6| ≤ 1 / 2 := abs_le.mpr ⟨by linarith, by linarith⟩
  have := Double.slip_mono size
  linarith

theorem lt_exponent_split (n : Nat) : n.log2 < (split n).2 := by
  rw [split]
  split
  · exact Nat.lt_succ_of_lt (Nat.lt_succ_self _)
  · exact Nat.lt_succ_self _

/-- The leading 53 binary digits of an integer are not rounded down by more than a half. -/
theorem pow_le_leading_roundHalfEven {n : Nat} (many : 52 ≤ n.log2) :
    (2 ^ 52 : ℚ) - 1 / 2 ≤ Double.roundHalfEven n (Nat.pow 2 (n.log2 + 1 - 53)) := by
  have nonzero : n ≠ 0 := by
    rintro rfl
    rw [Nat.log2_zero] at many
    omega
  have places : n.log2 = 52 + (n.log2 + 1 - 53) := by omega
  have low : 2 ^ 52 * 2 ^ (n.log2 + 1 - 53) ≤ n := by
    rw [← Nat.pow_add, ← places]
    exact Nat.log2_self_le nonzero
  have positive : 0 < Nat.pow 2 (n.log2 + 1 - 53) := Nat.pow_pos (by decide)
  have near := (abs_le.mp (Double.abs_roundHalfEven_sub_le n positive)).1
  have ratio : (2 ^ 52 : ℚ) ≤ n / (Nat.pow 2 (n.log2 + 1 - 53) : Nat) := by
    rw [le_div_iff₀ (Nat.cast_pos.mpr positive)]
    exact_mod_cast low
  linarith

theorem le_log2_of_quarter {units : Nat} (quarter : (1 / 4 : ℚ) ≤ units / unitsPerOne) : 1072 ≤ units.log2 := by
  obtain ⟨k, place, power, -⟩ := Double.exists_powers
  have digits : 2 ^ (k - 2) * 2 ^ 2 = 2 ^ k := by rw [← Nat.pow_add, Nat.sub_add_cancel (by omega)]
  have many : 2 ^ (k - 2) ≤ units := by
    rw [power, le_div_iff₀ (by positivity), ← digits] at quarter
    push_cast at quarter
    have : (2 ^ (k - 2) : ℚ) ≤ units := by linarith
    exact_mod_cast this
  have nonzero : units ≠ 0 := by
    have := Nat.two_pow_pos (k - 2)
    omega
  have := (Nat.le_log2 nonzero).mpr many
  omega

/-- The leading binary digits of an integer are those of a double that is not less than one quarter. -/
theorem le_log2_of_split {n units exponent : Nat} (many : 52 ≤ n.log2)
    (parts : split n = (.finite false units, exponent)) : 1072 ≤ units.log2 := by
  rw [split] at parts
  split at parts
  · have half : Double.half = .finite false units := (Prod.mk.inj parts).1
    have places : 1072 ≤ 1073 := by decide
    unfold Double.half at half
    generalize 1073 = place at half places
    cases half
    exact places.trans_eq (log2_pow place).symm
  · have low := pow_le_leading_roundHalfEven many
    have high := roundHalfEven_leading_le n
    have value := (Prod.mk.inj parts).1
    generalize Double.roundHalfEven n (Nat.pow 2 (n.log2 + 1 - 53)) = mantissa at low high value
    have low' : (1 / 3 : ℚ) ≤ mantissa / (Nat.pow 2 53 : Nat) := by
      rw [Nat.pow_eq, Nat.cast_pow, le_div_iff₀ (by positivity)]
      norm_num at low ⊢
      linarith
    have high' : (mantissa : ℚ) / (Nat.pow 2 53 : Nat) ≤ 1 :=
      (div_le_one (Nat.cast_pos.mpr (Nat.pow_pos (by decide)))).mpr (Nat.cast_le.mpr high)
    generalize ratio : (mantissa : ℚ) / (Nat.pow 2 53 : Nat) = x at low' high'
    have size : |x| ≤ 1 := abs_le.mpr ⟨by linarith, high'⟩
    have rounded : (Double.ofRatio false mantissa (Nat.pow 2 53)).Near x (slip |x|) :=
      Double.near_ofRatio (Nat.pow_pos (by decide)) ((if_neg Bool.false_ne_true).trans ratio)
        (size.trans_lt (by norm_num))
    obtain ⟨negative, units', same, near⟩ := rounded
    cases value.symm.trans same
    have signed : (Double.signed false units : ℚ) = units := Int.cast_natCast units
    rw [signed] at near
    have below := (abs_le.mp near).1
    have slipped : slip |x| ≤ 1 / 12 := (Double.slip_mono size).trans (by norm_num [slip])
    exact le_log2_of_quarter (by linarith)

/-- The logarithm of two is this double, without any rounding. -/
theorem two_near : (ofUnits (2 * unitsPerOne)).Near (twoDigits / 2 ^ 54) 0 := by
  refine ⟨false, twoUnits, constants.2.1, ?_⟩
  obtain ⟨k, place, power, -⟩ := Double.exists_powers
  have places : 1020 + 54 = k := place.symm
  have signed : (Double.signed false twoUnits : ℚ) = twoUnits := Int.cast_natCast twoUnits
  rw [signed, power, ← places]
  unfold twoUnits
  generalize 1020 = place
  rw [Nat.pow_eq, Nat.pow_add]
  push_cast
  rw [mul_comm (2 ^ place : ℚ), mul_div_mul_right _ _ (by positivity)]
  norm_num

theorem le_log2_of_many {n : Nat} (many : digitBound ≤ n) : 52 ≤ n.log2 := by
  obtain ⟨k, -, -, limit⟩ := Double.exists_powers
  have great : 2 ^ (k + 1024) ≤ n := limit ▸ unitLimit_le_digitBound.trans many
  have nonzero : n ≠ 0 := by
    have := Nat.two_pow_pos (k + 1024)
    omega
  have := (Nat.le_log2 nonzero).mpr great
  omega

/-- Up to the greatest logarithm that is looked at here, rounding moves little. -/
theorem slip_greatest : slip (2 ^ 40) ≤ 2 / 3 * (1 / 2 ^ 12) := by norm_num [slip]

/-- What the number of binary digits adds to a logarithm. -/
theorem count_mul_near {exponent : Nat} (few : exponent ≤ 2 ^ 40 + 1) :
    |(twoDigits / 2 ^ 54 : ℚ) * exponent| ≤ 1 / 3 * (2 ^ 40 + 1) ∧
      ((ofUnits (2 * unitsPerOne)).mul (Double.ofRatio false exponent 1)).Near
        (twoDigits / 2 ^ 54 * exponent) (1 / 2 ^ 12) := by
  have size : |(exponent : ℚ)| ≤ 2 ^ 40 + 1 := by
    rw [Nat.abs_cast]
    exact_mod_cast few
  have counted : (Double.ofRatio false exponent 1).Near exponent (1 / 2 ^ 12) := by
    have exact : (if false then -((exponent : ℚ) / (1 : Nat)) else exponent / (1 : Nat)) = exponent := by
      rw [if_neg Bool.false_ne_true, Nat.cast_one, div_one]
    refine (Double.near_ofRatio one_pos exact (size.trans_lt (by norm_num))).mono ?_
    exact (Double.slip_mono size).trans (by norm_num [slip])
  have third : |(twoDigits / 2 ^ 54 : ℚ)| ≤ 1 / 3 := by norm_num [twoDigits]
  have times : |(twoDigits / 2 ^ 54 : ℚ) * exponent| ≤ 1 / 3 * (2 ^ 40 + 1) := by
    rw [abs_mul]
    exact mul_le_mul third size (abs_nonneg _) (by norm_num)
  have rounding := slip_greatest
  have off : 0 * (|(exponent : ℚ)| + 1 / 2 ^ 12) + |(twoDigits / 2 ^ 54 : ℚ)| * (1 / 2 ^ 12) ≤
      1 / 3 * (1 / 2 ^ 12) := by
    rw [zero_mul, zero_add]
    linarith
  have total : |(twoDigits / 2 ^ 54 : ℚ) * exponent| +
      (0 * (|(exponent : ℚ)| + 1 / 2 ^ 12) + |(twoDigits / 2 ^ 54 : ℚ)| * (1 / 2 ^ 12)) ≤ 2 ^ 40 := by linarith
  refine ⟨times, (two_near.mul counted (by linarith)).mono ?_⟩
  have := Double.slip_mono total
  linarith

/-- The logarithm of an integer beyond the range of doubles, from both sides. -/
theorem ofNat_near {n : Nat} (many : digitBound ≤ n) (bits : n.log2 < 2 ^ 40) :
    ∃ exponent : Nat, n.log2 + 1 ≤ exponent ∧ exponent ≤ n.log2 + 2 ∧
      (ofNat n).Near (-1 / 6 + twoDigits / 2 ^ 54 * exponent) (1 / 2 + 1 / 2 ^ 10) := by
  obtain ⟨units, exponent, parts, small, few⟩ := exists_split n
  have great := le_log2_of_split (le_log2_of_many many) parts
  have more : n.log2 < exponent := by simpa only [parts] using lt_exponent_split n
  refine ⟨exponent, more, few, ?_⟩
  have mantissa : (ofDouble (.finite false units)).Near (-1 / 6) (1 / 2 + slip 1) := by
    have nonzero : ¬ (units == 0) = true := by
      rintro zero
      rw [beq_iff_eq.mp zero, Nat.log2_zero] at great
      omega
    rw [ofDouble, if_neg nonzero]
    exact ofUnits_near great small
  have room : exponent ≤ 2 ^ 40 + 1 := by omega
  obtain ⟨times, product⟩ := count_mul_near room
  have little : slip 1 ≤ 1 / 2 ^ 12 := by norm_num [slip]
  have rounding := slip_greatest
  have sum : |(-1 / 6 : ℚ) + twoDigits / 2 ^ 54 * exponent| + (1 / 2 + slip 1 + 1 / 2 ^ 12) ≤ 2 ^ 40 := by
    have way := abs_add_le (-1 / 6 : ℚ) (twoDigits / 2 ^ 54 * exponent)
    have sixth : |(-1 / 6 : ℚ)| = 1 / 6 := by norm_num
    linarith
  have log : ofNat n =
      (ofDouble (.finite false units)).add ((ofUnits (2 * unitsPerOne)).mul (Double.ofRatio false exponent 1)) := by
    unfold ofNat
    rw [ofInt?_eq_none many, parts]
  rw [log]
  refine (mantissa.add product (by linarith)).mono ?_
  have := Double.slip_mono sum
  linarith

theorem le_mul_logb {p q : Nat} (powers : Nat.pow 10 p ≤ Nat.pow 2 q) : (p : ℝ) ≤ q * Real.logb 10 2 := by
  have powers : (10 : ℝ) ^ p ≤ 2 ^ q := by exact_mod_cast powers
  rw [← Real.logb_pow, Real.le_logb_iff_rpow_le (by norm_num) (by positivity), Real.rpow_natCast]
  exact powers

theorem mul_logb_le {p q : Nat} (powers : Nat.pow 2 q ≤ Nat.pow 10 p) : q * Real.logb 10 2 ≤ (p : ℝ) := by
  have powers : (2 : ℝ) ^ q ≤ 10 ^ p := by exact_mod_cast powers
  rw [← Real.logb_pow, Real.logb_le_iff_le_rpow (by norm_num) (by positivity), Real.rpow_natCast]
  exact powers

/-- The decimal logarithm of two between two convergents. -/
theorem logb_two : (1936274 / 6432163 : ℝ) ≤ Real.logb 10 2 ∧ Real.logb 10 2 ≤ 1838395 / 6107016 := by
  constructor
  · rw [div_le_iff₀' (by norm_num)]
    exact_mod_cast le_mul_logb constants.2.2
  · rw [le_div_iff₀' (by norm_num)]
    exact_mod_cast mul_logb_le two_pow_le

/-- The logarithm of an integer between what its binary digits come to and what one more comes to. -/
theorem logb_between {n : Nat} (nonzero : n ≠ 0) : n.log2 * Real.logb 10 2 ≤ Real.logb 10 n ∧
    Real.logb 10 n ≤ (n.log2 + 1 : Nat) * Real.logb 10 2 := by
  constructor
  · rw [← Real.logb_pow]
    refine Real.logb_le_logb_of_le (by norm_num) (by positivity) ?_
    exact_mod_cast Nat.log2_self_le nonzero
  · rw [← Real.logb_pow]
    refine Real.logb_le_logb_of_le (by norm_num) (Nat.cast_pos.mpr (Nat.pos_of_ne_zero nonzero)) ?_
    exact_mod_cast Nat.lt_log2_self.le

/-- Below 2^40 binary digits logarithms are close. -/
theorem close_of_bits {n : Nat} (many : digitBound ≤ n) (bits : n.log2 < 2 ^ 40) : Close n := by
  obtain ⟨exponent, least, most, negative, units, value, near⟩ := ofNat_near many bits
  refine ⟨negative, units, value, ?_⟩
  have nonzero : n ≠ 0 := by
    rintro rfl
    have := le_log2_of_many many
    rw [Nat.log2_zero] at this
    omega
  obtain ⟨below, above⟩ := logb_two
  obtain ⟨low, high⟩ := logb_between nonzero
  generalize unitsPerOne = one at near ⊢
  have near : ((|(Double.signed negative units : ℚ) / one - (-1 / 6 + twoDigits / 2 ^ 54 * exponent)| : ℚ) : ℝ) ≤
      ((1 / 2 + 1 / 2 ^ 10 : ℚ) : ℝ) := Rat.cast_le.mpr near
  push_cast at near
  generalize (Double.signed negative units : ℝ) / one = y at near ⊢
  generalize n.log2 = binary at least most bits low high
  have least : (binary + 1 : ℝ) ≤ exponent := by exact_mod_cast least
  have most : (exponent : ℝ) ≤ binary + 2 := by exact_mod_cast most
  have bits : (binary : ℝ) < 2 ^ 40 := by exact_mod_cast bits
  have few := mul_le_mul_of_nonneg_left below (Nat.cast_nonneg binary : (0 : ℝ) ≤ binary)
  have many := mul_le_mul_of_nonneg_left above (Nat.cast_nonneg binary : (0 : ℝ) ≤ binary)
  push_cast at high
  rw [add_mul, one_mul] at high
  obtain ⟨lower, upper⟩ := abs_le.mp near
  norm_num [twoDigits] at lower upper
  rw [abs_lt]
  constructor
  · linarith
  · linarith

end Logarithm

end Questionnaire
