import Mathlib.Data.List.DropRight
import Questionnaire.Proofs.Number.Nearness
import Questionnaire.Proofs.Number.Written
import Questionnaire.Value.Coercion

/-!
# The leading digits of an integer

An integer of too many digits is written by its leading digits and a power of ten.  How many places are cut off is taken
from its logarithm, which may be off; what the cut leaves is counted afterwards, so the exponent is right all the same.
A logarithm that is less than one off leaves sixteen to eighteen digits.
-/
namespace Questionnaire

/-! ## Places cut off -/

/-- Without some of its last places an integer has as many digits less, and they are its leading ones. -/
theorem decimalDigits_div_pow {n k : Nat} (left : 10 ^ k ≤ n) :
    (decimalDigits (n / 10 ^ k)).toList <+: (decimalDigits n).toList ∧
      (decimalDigits (n / 10 ^ k)).toList.length + k = digitCount n := by
  rw [digitCount, ← String.length_toList]
  induction k with
  | zero => simp
  | succ k ih =>
    have next : n / 10 ^ (k + 1) = n / 10 ^ k / 10 := by rw [Nat.pow_succ, Nat.div_div_eq_div_mul]
    have ten : 10 ≤ n / 10 ^ k := by
      rw [Nat.le_div_iff_mul_le (Nat.pow_pos (by decide)), Nat.mul_comm, ← Nat.pow_succ]
      exact left
    have last : (decimalDigits (n / 10 ^ k)).toList =
        (decimalDigits (n / 10 ^ k / 10)).toList ++ [(n / 10 ^ k % 10).digitChar] := by
      simp only [Numeral.toList_decimalDigits]
      exact Nat.toDigits_of_base_le (by decide) ten
    obtain ⟨front, count⟩ := ih ((Nat.pow_le_pow_right (by decide) (Nat.le_succ k)).trans left)
    rw [last] at front count
    rw [next]
    refine ⟨(List.prefix_append _ _).trans front, ?_⟩
    rw [← count, List.length_append, List.length_singleton]
    omega

theorem digitCount_le_iff {n k : Nat} (positive : 0 < k) : digitCount n ≤ k ↔ n < 10 ^ k := by
  rw [digitCount, ← String.length_toList, Numeral.toList_decimalDigits]
  exact Nat.length_toDigits_le_iff (by decide) positive

theorem lt_digitCount_iff {n : Nat} : digitLimit < digitCount n ↔ digitBound ≤ n := by
  have positive : 0 < digitLimit := by decide
  unfold digitBound
  generalize digitLimit = limit at positive ⊢
  rw [← Nat.not_le, digitCount_le_iff positive, Nat.not_lt, Nat.pow_eq]

/-! ## Zeros at the end -/

/-- Digits are written without the zeros at their end; of nothing but zeros one is written, and of nothing too. -/
inductive Trimmed : List Char → List Char → Prop
  | zeros (k : Nat) : Trimmed (List.replicate k '0') ['0']
  | digits (front : List Char) {last : Char} (k : Nat) : last ≠ '0' →
      Trimmed (front ++ [last] ++ List.replicate k '0') (front ++ [last])

theorem trimmed_mantissaTail (first : Char) (tail : List Char) : Trimmed tail (mantissaTail (first :: tail)) := by
  let isZero : Char → Bool := (· == '0')
  have zeros : tail.rtakeWhile isZero = List.replicate (tail.rtakeWhile isZero).length '0' :=
    List.eq_replicate_of_mem fun c mem => beq_iff_eq.mp (List.mem_rtakeWhile_imp (p := isZero) mem)
  have parts : tail.rdropWhile isZero ++ tail.rtakeWhile isZero = tail := List.rdropWhile_append_rtakeWhile
  rw [zeros] at parts
  show Trimmed tail (if (tail.rdropWhile isZero).isEmpty then ['0'] else tail.rdropWhile isZero)
  rcases List.eq_nil_or_concat' (tail.rdropWhile isZero) with none | ⟨front, last, some⟩
  · rw [none, List.nil_append] at parts
    rw [none, ← parts]
    exact .zeros _
  · have nonzero : last ≠ '0' := by
      have last_not := List.rdropWhile_last_not isZero tail (by simp [some])
      simpa [some, isZero] using last_not
    rw [some] at parts
    rw [some, if_neg (by simp), ← parts]
    exact .digits front _ nonzero

/-! ## How many places are cut off -/

namespace Logarithm

/-- The counterpart of `pow_leading_le_of_close`: a close logarithm is not much too small either. -/
theorem lt_pow_leading_of_close {n : Nat} (many : 10 ^ 2 ≤ n) (close : Close n) : n < 10 ^ (leading n + 2) := by
  obtain ⟨negative, units, value, near⟩ := close
  have below := (abs_lt.mp near).1
  have positive : (0 : ℝ) < n := by
    have : 0 < n := by omega
    exact_mod_cast this
  have two : (2 : ℝ) ≤ Real.logb 10 n := by
    rw [Real.le_logb_iff_rpow_le (by norm_num) positive]
    exact_mod_cast many
  have one : (0 : ℝ) < Double.unitsPerOne := Nat.cast_pos.mpr Double.unitsPerOne_pos
  cases negative with
  | true =>
    -- a negative logarithm would be more than two off
    have sign : (Double.signed true units : ℝ) / Double.unitsPerOne ≤ 0 := by
      rw [Double.signed, if_pos rfl, Int.cast_neg, Int.cast_natCast]
      exact div_nonpos_of_nonpos_of_nonneg (neg_nonpos.mpr (Nat.cast_nonneg units)) one.le
    linarith
  | false =>
    have whole : leading n = units / Double.unitsPerOne := by
      rw [leading, value, Double.toNat_truncate, if_neg Bool.false_ne_true]
    have floor : (units : ℝ) / Double.unitsPerOne < leading n + 1 := by
      rw [whole, div_lt_iff₀ one]
      exact_mod_cast (Nat.div_lt_iff_lt_mul Double.unitsPerOne_pos).mp (Nat.lt_succ_self (units / Double.unitsPerOne))
    have signed : (Double.signed false units : ℝ) = units := Int.cast_natCast units
    rw [signed] at below
    have power : (n : ℝ) < (10 : ℝ) ^ (leading n + 2) := by
      rw [← Real.rpow_natCast, ← Real.logb_lt_iff_lt_rpow (by norm_num) positive]
      push_cast
      linarith
    exact_mod_cast power

/-- As many places to the left of the first digit as a close logarithm says: none less than there are, and two less
than the count of digits at least. -/
theorem leading_of_close {n : Nat} (many : digitBound ≤ n) (close : Close n) :
    leading n ≤ digitCount n ∧ digitCount n ≤ leading n + 2 := by
  have limit : digitLimit < digitCount n := lt_digitCount_iff.mpr many
  have value : digitLimit = 4300 := rfl
  have hundred : 10 ^ 2 ≤ n := by
    rw [← Nat.not_lt, ← digitCount_le_iff (by decide)]
    omega
  have least := pow_leading_le_of_close (Nat.lt_of_lt_of_le (by decide) hundred) close
  have most := (digitCount_le_iff (Nat.succ_pos _)).mpr (lt_pow_leading_of_close hundred close)
  refine ⟨?_, most⟩
  rcases Nat.eq_zero_or_pos (leading n - 1) with few | positive
  · omega
  · have := Numeral.lt_digitCount positive least
    omega

end Logarithm

/-! ## The text of an integer of too many digits -/

namespace Value

open Numeral (scientific)

/-- An integer of too many digits is written as its sign, its first digit, a point, more of its leading digits without
zeros at their end, and the exponent that makes up for the places behind the first.  The digits are cut off and not
rounded; they are sixteen to eighteen.  Of an integer of 2^40 binary digits and more it is assumed that its logarithm is
less than one off. -/
theorem great_integer_written {n : Int} (many : digitLimit < digitCount n.natAbs)
    (close : 2 ^ 40 ≤ n.natAbs.log2 → Logarithm.Close n.natAbs) :
    ∃ s first tail fraction exponent, (Value.int n).toText = .ok s ∧
      s.toList = (if n < 0 then ['-'] else []) ++ scientific first fraction exponent ∧
      exponent + 1 = digitCount n.natAbs ∧
      first :: tail <+: (decimalDigits n.natAbs).toList ∧ 15 ≤ tail.length ∧ tail.length ≤ 17 ∧
      Trimmed tail fraction := by
  have bound : digitBound ≤ n.natAbs := lt_digitCount_iff.mp many
  have near : Logarithm.Close n.natAbs := by
    rcases Nat.lt_or_ge n.natAbs.log2 (2 ^ 40) with bits | bits
    · exact Logarithm.close_of_bits bound bits
    · exact close bits
  have value : digitLimit = 4300 := rfl
  obtain ⟨few, more⟩ := Logarithm.leading_of_close bound near
  generalize cut : Logarithm.leading n.natAbs - 16 = shift
  have left : 10 ^ shift ≤ n.natAbs := by
    rw [← Nat.not_lt, ← digitCount_le_iff (by omega)]
    omega
  obtain ⟨front, count⟩ := decimalDigits_div_pow left
  obtain ⟨first, tail, digits⟩ := List.exists_cons_of_ne_nil (Numeral.decimalDigits_ne_nil (n.natAbs / 10 ^ shift))
  rw [digits] at front count
  rw [List.length_cons] at count
  refine ⟨integerText n, first, tail, mantissaTail (first :: tail), shift + tail.length, rfl,
    toList_integerText (Nat.not_lt.mpr bound) cut digits, ?_, front, ?_, ?_, trimmed_mantissaTail first tail⟩
  all_goals omega

/-- Just below a power of ten, where the logarithm is rounded to the next one. -/
theorem integerText_nines : integerText (-(Nat.pow 10 5000 - 1 : Nat)) = "-9.999999999999999e+4999" := by
  have many : ¬ (-(Nat.pow 10 5000 - 1 : Nat) : Int).natAbs < digitBound := by decide +kernel
  have cut : Logarithm.leading (-(Nat.pow 10 5000 - 1 : Nat) : Int).natAbs - 16 = 4984 := by decide +kernel
  have digits : (decimalDigits ((-(Nat.pow 10 5000 - 1 : Nat) : Int).natAbs / 10 ^ 4984)).toList =
      '9' :: List.replicate 15 '9' := by
    rw [Numeral.toList_decimalDigits]
    decide +kernel
  rw [← String.toList_inj, toList_integerText many cut digits]
  decide +kernel

/-- Sixteen digits are left of five thousand nines; none is rounded up, and the exponent is not either. -/
theorem nines_written :
    ∃ first tail fraction exponent,
      "-9.999999999999999e+4999".toList = '-' :: scientific first fraction exponent ∧
      exponent + 1 = digitCount (Nat.pow 10 5000 - 1) ∧
      first :: tail <+: (decimalDigits (Nat.pow 10 5000 - 1)).toList ∧ 15 ≤ tail.length ∧ tail.length ≤ 17 ∧
      Trimmed tail fraction := by
  have value : (-(Nat.pow 10 5000 - 1 : Nat) : Int).natAbs = Nat.pow 10 5000 - 1 := by
    rw [Int.natAbs_neg, Int.natAbs_natCast]
  have many : digitLimit < digitCount (-(Nat.pow 10 5000 - 1 : Nat) : Int).natAbs :=
    lt_digitCount_iff.mpr (by decide +kernel)
  have bits : ¬ 2 ^ 40 ≤ (-(Nat.pow 10 5000 - 1 : Nat) : Int).natAbs.log2 := by decide +kernel
  obtain ⟨s, first, tail, fraction, exponent, written, form, rest⟩ :=
    great_integer_written many fun great => absurd great bits
  have text : s = "-9.999999999999999e+4999" := (Except.ok.inj written).symm.trans integerText_nines
  have negative : (-(Nat.pow 10 5000 - 1 : Nat) : Int) < 0 := by decide +kernel
  rw [value] at rest
  rw [text, if_pos negative] at form
  exact ⟨first, tail, fraction, exponent, form, rest⟩

end Value

end Questionnaire
