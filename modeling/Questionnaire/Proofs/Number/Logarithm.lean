import Mathlib.Analysis.SpecialFunctions.Log.Base
import Questionnaire.Number.Logarithm
import Questionnaire.Proofs.Number.Rounding

/-!
# Logarithms of integers from above

The text of an integer of too many digits begins with the digits that are left of it after as many are cut off as its
decimal logarithm says, less sixteen.  The sixteen make up for what the logarithm may be too large: it is taken in
fixed point and then rounded four times.  Up to 2^50 binary digits that is less than ten, so a digit is always left.
For longer integers the roundings add up to more, and a digit is left if the logarithm is close.
-/
namespace Questionnaire.Logarithm

open Double (AtMost rounded unitsPerOne)

/-! ## In fixed point -/

theorem scale_pos : 0 < scale := by
  unfold scale
  exact Nat.two_pow_pos 256

theorem oddSeries_le {square : Nat} (small : 9 * square ≤ scale) (terms k power : Nat) :
    8 * oddSeries square terms k power ≤ 9 * power := by
  induction terms generalizing k power with
  | zero =>
    rw [oddSeries]
    exact Nat.zero_le _
  | succ terms ih =>
    have first : power / k ≤ power := Nat.div_le_self power k
    have next : 9 * (power * square / scale) ≤ power := by
      calc 9 * (power * square / scale) ≤ 9 * (power * square) / scale := Nat.mul_div_le_mul_div_assoc 9 _ _
        _ = power * (9 * square) / scale := by rw [Nat.mul_left_comm]
        _ ≤ power * scale / scale := Nat.div_le_div_right (Nat.mul_le_mul_left power small)
        _ = power := Nat.mul_div_cancel power scale_pos
    have rest := ih (k + 2) (power * square / scale)
    rw [oddSeries]
    omega

/-- The logarithm of a factor between one and two is three quarters at most. -/
theorem ratio_le {num den : Nat} (least : den ≤ num) (most : num ≤ 2 * den) (positive : 0 < den) :
    4 * ratio num den ≤ 3 * scale := by
  rw [ratio]
  generalize hz : (num - den) * scale / (num + den) = z
  have third : 3 * z ≤ scale := by
    rw [← hz]
    calc 3 * ((num - den) * scale / (num + den)) ≤ 3 * ((num - den) * scale) / (num + den) :=
          Nat.mul_div_le_mul_div_assoc 3 _ _
      _ = (3 * (num - den)) * scale / (num + den) := by rw [Nat.mul_assoc]
      _ ≤ (num + den) * scale / (num + den) := Nat.div_le_div_right (Nat.mul_le_mul_right scale (by omega))
      _ = scale := Nat.mul_div_cancel_left scale (by omega)
  have ninth : 9 * (z * z / scale) ≤ scale := by
    calc 9 * (z * z / scale) ≤ 9 * (z * z) / scale := Nat.mul_div_le_mul_div_assoc 9 _ _
      _ = 3 * z * (3 * z) / scale := by rw [Nat.mul_mul_mul_comm]
      _ ≤ scale * scale / scale := Nat.div_le_div_right (Nat.mul_le_mul third third)
      _ = scale := Nat.mul_div_cancel scale scale_pos
  have sum := oddSeries_le ninth 90 1 z
  omega

/-! ## As doubles -/

/-- The logarithm of two as a double: its leading digits, which are the 54 behind the point, and its units. -/
def twoDigits : Nat := 0x134413509F79FF

def twoUnits : Nat := twoDigits * Nat.pow 2 1020

/-- The natural logarithm of ten is nine quarters at least, the decimal logarithm of two is this double, and the
quotient of the exponents below is a convergent to it, not above it. -/
theorem constants : 9 * scale ≤ 4 * ten ∧ ofUnits (2 * unitsPerOne) = .finite false twoUnits ∧
    Nat.pow 10 1936274 ≤ Nat.pow 2 6432163 := by
  decide +kernel

/-- The logarithm of what is less than two is one at most, whatever rounding does. -/
theorem ofUnits_atMost {units : Nat} (nonzero : units ≠ 0) (small : units.log2 ≤ 1074) : (ofUnits units).AtMost 1 := by
  have factor : 4 * ratio units (Nat.pow 2 units.log2) ≤ 3 * scale := by
    refine ratio_le (Nat.log2_self_le nonzero) ?_ (Nat.pow_pos (by decide))
    rw [Nat.mul_comm]
    exact Nat.lt_log2_self.le
  have below : ((units.log2 : Int) - 1074) * two ≤ 0 := Int.mul_nonpos_of_nonpos_of_nonneg (by omega) (by omega)
  rw [ofUnits]
  generalize hn : (ratio units (Nat.pow 2 units.log2) : Int) + ((units.log2 : Int) - 1074) * two = natural
  by_cases negative : natural < 0
  · rw [decide_eq_true negative]
    exact AtMost.ofUnits_negative zero_le_one _ _
  · have least := constants.1
    have one := scale_pos
    have third : 3 * natural.natAbs ≤ ten := by omega
    have third' : (3 * natural.natAbs : ℚ) ≤ ten := by exact_mod_cast third
    have positive : 0 < ten := by omega
    have size : (natural.natAbs : ℚ) / ten ≤ 1 / 3 := by
      rw [div_le_iff₀ (Nat.cast_pos.mpr positive)]
      linarith
    exact (AtMost.ofRatio positive size (by norm_num [rounded]) _).mono (by norm_num [rounded])

theorem ofDouble_atMost {negative : Bool} {units : Nat} (small : units.log2 ≤ 1074) :
    (ofDouble (.finite negative units)).AtMost 1 := by
  rw [ofDouble]
  split
  · exact .infinity
  · rename_i nonzero
    exact ofUnits_atMost (by simpa using nonzero) small

theorem log2_pow (n : Nat) : (Nat.pow 2 n).log2 = n := Nat.log2_two_pow

theorem log2_le_of_lt {units k : Nat} (less : units < 2 * 2 ^ k) : units.log2 ≤ k := by
  by_cases zero : units = 0
  · rw [zero, Nat.log2_zero]
    exact Nat.zero_le k
  · rw [← Nat.pow_succ'] at less
    exact Nat.lt_succ_iff.mp ((Nat.log2_lt zero).mpr less)

theorem roundHalfEven_leading_le (n : Nat) :
    Double.roundHalfEven n (Nat.pow 2 (n.log2 + 1 - 53)) ≤ Nat.pow 2 53 := by
  refine Double.roundHalfEven_le (Nat.pow_pos (by decide)) (Nat.lt_log2_self.le.trans ?_)
  rw [Nat.pow_eq, Nat.pow_eq, ← Nat.pow_add]
  exact Nat.pow_le_pow_right (by decide) (by omega)

theorem exists_ofRatio_of_mantissa {mantissa : Nat} (most : mantissa ≤ Nat.pow 2 53) :
    ∃ units, Double.ofRatio false mantissa (Nat.pow 2 53) = .finite false units ∧ units.log2 ≤ 1074 := by
  have size : (mantissa : ℚ) / (Nat.pow 2 53 : Nat) ≤ 1 := by
    have positive : (0 : ℚ) < (Nat.pow 2 53 : Nat) := Nat.cast_pos.mpr (by decide)
    exact (div_le_one positive).mpr (Nat.cast_le.mpr most)
  obtain ⟨units, value, bound⟩ :=
    Double.exists_ofRatio (Nat.pow_pos (by decide)) size (by norm_num [rounded]) false
  have one := Double.one_le_unitsPerOne
  have less : (units : ℚ) < (2 * unitsPerOne : Nat) := by
    rw [rounded] at bound
    push_cast
    linarith
  have less : units < 2 * unitsPerOne := Nat.cast_lt.mp less
  obtain ⟨k, rfl, power, -⟩ := Double.exists_powers
  exact ⟨units, value, log2_le_of_lt (power ▸ less)⟩

/-- The leading binary digits of an integer are those of a double less than two. -/
theorem exists_split (n : Nat) : ∃ units exponent, split n = (.finite false units, exponent) ∧ units.log2 ≤ 1074 ∧
    exponent ≤ n.log2 + 2 := by
  rw [split]
  by_cases up : Double.roundHalfEven n (Nat.pow 2 (n.log2 + 1 - 53)) = Nat.pow 2 53
  · rw [if_pos (beq_iff_eq.mpr up)]
    have half : 1073 ≤ 1074 := by decide
    unfold Double.half
    generalize 1073 = exponent at half ⊢
    exact ⟨_, _, rfl, (log2_pow exponent).trans_le half, Nat.le_refl _⟩
  · rw [if_neg (mt beq_iff_eq.mp up)]
    obtain ⟨units, value, top⟩ := exists_ofRatio_of_mantissa (roundHalfEven_leading_le n)
    exact ⟨units, n.log2 + 1, by rw [value], top, by omega⟩

theorem unitLimit_le_digitBound : Double.unitLimit ≤ digitBound := by
  obtain ⟨k, exponent, -, limit⟩ := Double.exists_powers
  have exponents : k + 1024 ≤ digitLimit := by
    rw [exponent]
    decide
  unfold digitBound
  generalize digitLimit = places at exponents ⊢
  rw [limit]
  exact (Nat.pow_le_pow_left (by decide) _).trans (Nat.pow_le_pow_right (by decide) exponents)

theorem ofInt?_eq_none {n : Nat} (many : digitBound ≤ n) : Double.ofInt? n = none := by
  have two : 2 ≤ unitsPerOne := by
    obtain ⟨k, exponent, power, -⟩ := Double.exists_powers
    rw [power]
    exact Nat.le_self_pow (by omega) 2
  have great : 2 * Double.unitLimit ≤ unitsPerOne * n := Nat.mul_le_mul two (unitLimit_le_digitBound.trans many)
  have infinite (negative : Bool) : Double.ofRatio negative n 1 = .infinity negative := by
    rw [Double.ofRatio]
    exact Double.ofUnits_of_many great negative
  unfold Double.ofInt?
  rw [Int.natAbs_natCast, infinite]

theorem mul_pow_le (m exponent : Nat) (most : exponent + 54 ≤ 1074) :
    ((m * Nat.pow 2 exponent : Nat) : ℚ) ≤ m / 2 ^ 54 * unitsPerOne := by
  have less : 2 ^ exponent * 2 ^ 54 ≤ unitsPerOne := by
    obtain ⟨k, places, power, -⟩ := Double.exists_powers
    rw [power, ← Nat.pow_add]
    exact Nat.pow_le_pow_right (by decide) (places ▸ most)
  have less' : (2 ^ exponent : ℚ) * 2 ^ 54 ≤ unitsPerOne := by exact_mod_cast less
  rw [div_mul_eq_mul_div, le_div_iff₀ (by positivity), Nat.pow_eq, Nat.cast_mul, Nat.cast_pow, mul_assoc]
  exact mul_le_mul_of_nonneg_left less' (Nat.cast_nonneg m)

theorem twoUnits_le : (twoUnits : ℚ) ≤ twoDigits / 2 ^ 54 * unitsPerOne := by
  have places : 1020 + 54 ≤ 1074 := by decide
  unfold twoUnits
  generalize 1020 = exponent at places ⊢
  exact mul_pow_le twoDigits exponent places

/-- The number of decimal places to the left of an integer's first digit, as far as its logarithm tells. -/
def leading (n : Nat) : Nat := ((ofNat n).truncate?.getD 0).toNat

theorem pow_le_pow_of_mul_le {p q a b : Nat} (positive : q ≠ 0) (powers : Nat.pow 10 p ≤ Nat.pow 2 q)
    (less : a * q ≤ p * b) : 10 ^ a ≤ 2 ^ b := by
  refine (Nat.pow_le_pow_iff_left positive).mp ?_
  calc (10 ^ a) ^ q = 10 ^ (a * q) := (Nat.pow_mul 10 a q).symm
    _ ≤ 10 ^ (p * b) := Nat.pow_le_pow_right (by decide) less
    _ = (10 ^ p) ^ b := Nat.pow_mul 10 p b
    _ ≤ (2 ^ q) ^ b := Nat.pow_le_pow_left powers b
    _ = (2 ^ b) ^ q := Nat.pow_right_comm 2 q b

/-- How large the logarithm of an integer of some binary digits may come out: the digits are counted as a double, times
the logarithm of two, and a double up to one is added. -/
def roof (bits : ℚ) : ℚ := rounded (1 + rounded (twoDigits / 2 ^ 54 * rounded (bits + 2)))

/-- The logarithm of an integer beyond the range of doubles, from above. -/
theorem leading_le {n : Nat} (many : digitBound ≤ n) (bits : n.log2 < 2 ^ 50) : (leading n : ℚ) ≤ roof n.log2 := by
  obtain ⟨units, exponent, parts, small, few⟩ := exists_split n
  have bits' : (n.log2 : ℚ) < 2 ^ 50 := by exact_mod_cast bits
  have size : (exponent : ℚ) / (1 : Nat) ≤ n.log2 + 2 := by
    rw [Nat.cast_one, div_one]
    exact_mod_cast few
  obtain ⟨counted, value, count⟩ := Double.exists_ofRatio one_pos size (by rw [rounded]; linarith) false
  have product := AtMost.mul twoUnits_le count (by norm_num [rounded, twoDigits]; linarith)
  have mantissa : (ofDouble (.finite false units)).AtMost 1 := ofDouble_atMost small
  have sum := mantissa.add product (by norm_num [rounded, twoDigits]; linarith)
    (by norm_num [rounded, twoDigits]; linarith)
  have log : ofNat n =
      (ofDouble (.finite false units)).add ((ofUnits (2 * unitsPerOne)).mul (Double.ofRatio false exponent 1)) := by
    unfold ofNat
    rw [ofInt?_eq_none many, parts]
  rw [leading, log, constants.2.1, value]
  exact sum.truncate (by norm_num [rounded, twoDigits]; linarith)

theorem leading_mul_le {n : Nat} (many : digitBound ≤ n) (bits : n.log2 < 2 ^ 50) :
    (leading n - 16) * 6432163 ≤ 1936274 * n.log2 := by
  have most := leading_le many bits
  have bits : (n.log2 : ℚ) < 2 ^ 50 := by exact_mod_cast bits
  generalize leading n = digits at most ⊢
  generalize n.log2 = binary at most bits ⊢
  rcases Nat.le_total digits 16 with few | more
  · rw [Nat.sub_eq_zero_of_le few, Nat.zero_mul]
    exact Nat.zero_le _
  · norm_num [roof, rounded, twoDigits] at most
    have cast : (((digits - 16) * 6432163 : Nat) : ℚ) ≤ ((1936274 * binary : Nat) : ℚ) := by
      push_cast [more]
      linarith
    exact Nat.cast_le.mp cast

/-- The decimal logarithm of an integer is less than one off. -/
def Close (n : Nat) : Prop :=
  ∃ negative units, ofNat n = .finite negative units ∧
    |(Double.signed negative units : ℝ) / unitsPerOne - Real.logb 10 n| < 1

theorem pow_leading_le_of_close {n : Nat} (positive : 0 < n) (close : Close n) : 10 ^ (leading n - 1) ≤ n := by
  obtain ⟨negative, units, value, near⟩ := close
  have above := (abs_lt.mp near).2
  have whole : leading n = if negative then 0 else units / unitsPerOne := by
    rw [leading, value, Double.toNat_truncate]
  rcases Nat.eq_zero_or_pos (leading n) with none | some
  · rw [none]
    exact positive
  · cases negative with
    | true => cases some.ne' whole
    | false =>
      have log : (leading n : ℝ) ≤ units / unitsPerOne := by
        rw [whole]
        exact Nat.cast_div_le
      have power : (10 : ℝ) ^ (leading n - 1) < n := by
        rw [← Real.rpow_natCast, ← Real.lt_logb_iff_rpow_lt (by norm_num) (Nat.cast_pos.mpr positive)]
        have signed : (Double.signed false units : ℝ) = units := Int.cast_natCast units
        rw [signed] at above
        push_cast [some]
        linarith
      exact_mod_cast power.le

/-- As many decimal places as the logarithm of an integer says, less sixteen, are not more than the integer has. -/
theorem pow_leading_le {n : Nat} (many : digitBound ≤ n) (close : 2 ^ 50 ≤ n.log2 → Close n) :
    10 ^ (leading n - 16) ≤ n := by
  have positive : 0 < n := by
    have limit := Double.unitLimit_pos
    have great := unitLimit_le_digitBound.trans many
    omega
  rcases Nat.lt_or_ge n.log2 (2 ^ 50) with bits | bits
  · exact (pow_le_pow_of_mul_le (by decide) constants.2.2 (leading_mul_le many bits)).trans
      (Nat.log2_self_le positive.ne')
  · refine (Nat.pow_le_pow_right (by decide) ?_).trans (pow_leading_le_of_close positive (close bits))
    omega

end Questionnaire.Logarithm
