import Mathlib
import Questionnaire.Expr.Parser
import Questionnaire.Proofs.Number.Exactness
import Questionnaire.Proofs.Outcome
import Questionnaire.Expr.Evaluation

/-!
# Calculations with whole numbers

Remainders, quotients and rounding go through doubles.  They come out as whole numbers again, namely as what the same
calculation gives for the whole numbers nearest to the operands, or to the result.  So they are exact for whole numbers
that a double holds, except that rounding also adds a half, for which odd numbers of 53 binary digits have no room.
-/
namespace Questionnaire

open Double (nearest? Representable Crowded halfUp of_nearest?)

theorem Value.int_inj {m n : Int} : Value.int m = .int n ↔ m = n :=
  ⟨fun same => Number.int.inj (Value.number.inj same), congrArg Value.int⟩

/-! ## Remainders and quotients -/

namespace Arithmetic

variable {a b q r s : Int}

/-- An operator on two whole numbers; no text is joined. -/
theorem apply_wholes (op : Arithmetic) (a b : Int) : op.apply (.int a) (.int b) =
    do return .number (← inRange (.operatorRange op.symbol) (op.onNumbers (.int a) (.int b))).normalize := by
  cases op <;> rfl

theorem isZero_int (nonzero : b ≠ 0) : (Number.int b).isZero = false := by
  rw [Number.isZero, Number.eq_int, beq_eq_false_iff_ne]
  exact nonzero

/-- A quotient or remainder that is there, or too large, is given or reported. -/
theorem apply_of_outcome {op : Arithmetic} {outcome : Except Fault Number}
    (runs : op.onNumbers (.int a) (.int b) = liftFault outcome) :
    (∀ n, Number.normalize <$> outcome = .ok n → op.apply (.int a) (.int b) = .ok (.number n)) ∧
    (outcome = .error .overflow → op.apply (.int a) (.int b) = .error (.error (.operatorRange op.symbol))) := by
  rw [apply_wholes, runs]
  constructor
  · intro n given
    cases outcome with
    | ok m =>
      obtain rfl := Except.ok.inj given
      rfl
    | error fault => cases given
  · rintro rfl
    rfl

theorem modulo_wholes (nonzero : b ≠ 0) : Arithmetic.modulo.apply (.int a) (.int b) =
    match nearest? a, nearest? b with
    | some r, some s => .ok (.int (r.tmod s))
    | _, _ => .error (.error (.operatorRange "%")) := by
  have runs : Arithmetic.modulo.onNumbers (.int a) (.int b) = liftFault ((Number.int a).mod (.int b)) := by
    rw [onNumbers, isZero_int nonzero]
    rfl
  obtain ⟨given, beyond⟩ := apply_of_outcome runs
  cases first : nearest? a with
  | none => exact beyond (Number.mod_int_of_none (Or.inl first))
  | some r =>
    cases second : nearest? b with
    | none => exact beyond (Number.mod_int_of_none (Or.inr second))
    | some s => exact given _ (Number.mod_int first second nonzero)

theorem divide_wholes (nonzero : b ≠ 0) (q : Int) : Arithmetic.divide.apply (.int (b * q)) (.int b) =
    match nearest? q with
    | some r => .ok (.int r)
    | none => .error (.error (.operatorRange "/")) := by
  have runs : Arithmetic.divide.onNumbers (.int (b * q)) (.int b) = liftFault ((Number.int (b * q)).div (.int b)) := by
    rw [onNumbers, isZero_int nonzero]
    rfl
  obtain ⟨given, beyond⟩ := apply_of_outcome runs
  have quotient := Number.div_int (q := q) nonzero
  cases found : nearest? q with
  | none =>
    rw [found] at quotient
    exact beyond (Outcome.map_eq_error.mp quotient)
  | some r =>
    rw [found] at quotient
    exact given _ quotient

end Arithmetic

namespace Expr

variable {c : Context} {x y : Expr} {a b n : Int}

theorem evaluate_arithmetic {op : Arithmetic} {v w : Value} (first : evaluate c x = .ok v)
    (second : evaluate c y = .ok w) : evaluate c (.binary (.arithmetic op) x y) = op.apply v w := by
  rw [evaluate, first, second]
  rfl

/-- Remainders of whole numbers are those of the whole numbers nearest to them, with the sign of the dividend; so they
are exact if doubles hold both operands.  A quotient without a remainder is the whole number nearest to the exact one,
and exact if and only if a double holds that.  No value is given where a double would be infinite. -/
theorem whole_quotients (first : evaluate c x = .ok (.int a)) (second : evaluate c y = .ok (.int b))
    (nonzero : b ≠ 0) :
    (evaluate c (.binary (.arithmetic .modulo) x y) =
      match nearest? a, nearest? b with
      | some r, some s => .ok (.int (r.tmod s))
      | _, _ => .error (.error (.operatorRange "%"))) ∧
    (Representable a.natAbs → Representable b.natAbs →
      ∀ v, evaluate c (.binary (.arithmetic .modulo) x y) = .ok v → v = .int (a - b * a.tdiv b)) ∧
    (b ∣ a →
      evaluate c (.binary (.arithmetic .divide) x y) =
        match nearest? (a / b) with
        | some r => .ok (.int r)
        | none => .error (.error (.operatorRange "/"))) ∧
    (b ∣ a → ∀ v, evaluate c (.binary (.arithmetic .divide) x y) = .ok v →
      (v = .int (a / b) ↔ Representable (a / b).natAbs)) := by
  rw [evaluate_arithmetic first second, evaluate_arithmetic first second, Arithmetic.modulo_wholes nonzero]
  refine ⟨rfl, ?remainder, ?quotient, ?exact⟩
  case remainder =>
    intro dividend divisor v given
    cases nearest : nearest? a with
    | none => simp [nearest] at given
    | some r =>
      cases nearest' : nearest? b with
      | none => simp [nearest, nearest'] at given
      | some s =>
        rw [nearest, nearest'] at given
        obtain rfl := Except.ok.inj given
        rw [(Double.eq_of_nearest? nearest).mpr dividend, (Double.eq_of_nearest? nearest').mpr divisor, Int.tmod_def]
  case quotient =>
    rintro ⟨q, rfl⟩
    rw [Arithmetic.divide_wholes nonzero, Int.mul_ediv_cancel_left q nonzero]
  case exact =>
    rintro ⟨q, rfl⟩ v given
    rw [Arithmetic.divide_wholes nonzero] at given
    rw [Int.mul_ediv_cancel_left q nonzero]
    cases nearest : nearest? q with
    | none => simp [nearest] at given
    | some r =>
      rw [nearest] at given
      obtain rfl := Except.ok.inj given
      rw [Value.int_inj, Double.eq_of_nearest? nearest]

end Expr

namespace Calculation

/-- What two answers are calculated with. -/
def context (a b : Int) : Context :=
  ⟨[(.text "a", .int a), (.text "b", .int b)], ⟨2024, 6, 15⟩, Library.standard⟩

theorem first (a b : Int) : Expr.evaluate (context a b) (.reference "a") = .ok (.int a) := rfl

theorem second (a b : Int) : Expr.evaluate (context a b) (.reference "b") = .ok (.int b) := rfl

def remainder : Expr := .binary (.arithmetic .modulo) (.reference "a") (.reference "b")

def quotient : Expr := .binary (.arithmetic .divide) (.reference "a") (.reference "b")

theorem read : Expr.ofText "{a} % {b}" = .ok remainder ∧ Expr.ofText "{a} / {b}" = .ok quotient := by
  constructor <;> cbv

end Calculation

namespace Expr

/-- The remainder of a great negative power of two is exact, and has its sign. -/
theorem power_remainder : evaluate (Calculation.context (-2 ^ 60) 7) Calculation.remainder = .ok (.int (-1)) ∧
    (-2 ^ 60 - 7 * (-2 ^ 60 : Int).tdiv 7) = -1 := by
  have dividend : Representable (-2 ^ 60 : Int).natAbs := ⟨1, 60, by decide, by decide⟩
  have divisor : Representable (7 : Int).natAbs := Double.representable_of_le (by decide)
  obtain ⟨outcome, exact, -⟩ := whole_quotients (Calculation.first (-2 ^ 60) 7) (Calculation.second (-2 ^ 60) 7)
    (by decide)
  have nearest : nearest? (-2 ^ 60) = some (-2 ^ 60) := by decide +kernel
  have nearest' : nearest? 7 = some 7 := by decide +kernel
  rw [nearest, nearest'] at outcome
  exact ⟨outcome, (Value.int_inj.mp (exact dividend divisor _ outcome)).symm⟩

/-- An odd number of 54 binary digits has an even remainder, and its quotient by one is its neighbour. -/
theorem odd_remainder_lost :
    Expr.ofText "{a} % {b}" = .ok Calculation.remainder ∧ Expr.ofText "{a} / {b}" = .ok Calculation.quotient ∧
    evaluate (Calculation.context (2 ^ 53 + 1) 2) Calculation.remainder = .ok (.int 0) ∧
    (2 ^ 53 + 1 - 2 * (2 ^ 53 + 1 : Int).tdiv 2 : Int) = 1 ∧
    evaluate (Calculation.context (2 ^ 53 + 1) 1) Calculation.quotient = .ok (.int (2 ^ 53)) ∧
    (1 : Int) ∣ 2 ^ 53 + 1 ∧ ((2 ^ 53 + 1) / 1 : Int) = 2 ^ 53 + 1 := by
  have odd : nearest? (2 ^ 53 + 1) = some (2 ^ 53) := by decide +kernel
  have two : nearest? 2 = some 2 := by decide +kernel
  have remainder := Arithmetic.modulo_wholes (a := 2 ^ 53 + 1) (b := 2) (by decide)
  have quotient := Arithmetic.divide_wholes (b := 1) (by decide) (2 ^ 53 + 1)
  rw [odd, two] at remainder
  rw [odd, Int.one_mul] at quotient
  refine ⟨Calculation.read.1, Calculation.read.2, ?_, by decide, ?_, Int.one_dvd _, Int.ediv_one _⟩
  · exact (evaluate_arithmetic (Calculation.first _ _) (Calculation.second _ _)).trans remainder
  · exact (evaluate_arithmetic (Calculation.first _ _) (Calculation.second _ _)).trans quotient

end Expr

/-! ## Rounding -/

namespace Rounding

variable {n r : Int}

theorem toDouble_one : (Number.int 1).toDouble = .ok (.finite false Double.unitsPerOne) := by
  have one : nearest? 1 = some 1 := by decide +kernel
  rw [Number.toDouble_int one, Int.natAbs_one, Nat.mul_one]
  rfl

/-- Whether a double comes before zero is a matter of its sign. -/
theorem zero_le_finite (negative : Bool) (units : Nat) :
    (Number.int 0).le (.float (.finite negative units)) = decide (0 ≤ Double.signed negative units) := by
  rw [Number.le, Number.place?_int, Int.zero_mul]
  simp [Number.place?]

theorem zero_le_signed_mul {k : Nat} (positive : 0 < k) (negative : Bool) (m : Nat) :
    0 ≤ Double.signed negative (k * m) ↔ 0 ≤ Double.signed negative m := by
  cases negative with
  | false => exact iff_of_true (Int.natCast_nonneg _) (Int.natCast_nonneg _)
  | true =>
    show 0 ≤ -((k * m : Nat) : Int) ↔ 0 ≤ -(m : Int)
    have same : k * m = 0 ↔ m = 0 := by simp [positive.ne']
    omega

/-- The steps of rounding, each with what it gives. -/
theorem toScale_of_steps {v scale : Number} {x y d : Double} {size : Nat} (value : v.toDouble = .ok x)
    (factor : scale.toDouble = .ok y) (product : x.mul y = d)
    (cut : (d.abs.add Double.half).floorMagnitude? = some size) :
    toScale v scale = Number.normalize <$>
      (Number.int (if (Number.int 0).le (.float d) then (size : Int) else -size)).div scale := by
  unfold toScale
  rw [value, factor]
  simp only [bind, Except.bind, product, cut]
  cases (Number.int 0).le (.float d) with
  | true => cases (Number.int size).div scale <;> rfl
  | false => cases (Number.int (-size)).div scale <;> rfl

theorem sign_mul_halfUp (r : Int) :
    (if 0 ≤ r then (halfUp r.natAbs : Int) else -halfUp r.natAbs) = r.sign * halfUp r.natAbs := by
  rcases lt_trichotomy r 0 with negative | rfl | positive
  · rw [if_neg (Int.not_le.mpr negative), Int.sign_eq_neg_one_of_neg negative, Int.neg_one_mul]
  · rfl
  · rw [if_pos positive.le, Int.sign_eq_one_of_pos positive, Int.one_mul]

theorem natAbs_sign_mul_halfUp (r : Int) : (r.sign * halfUp r.natAbs).natAbs = halfUp r.natAbs := by
  rw [← sign_mul_halfUp]
  split_ifs
  · exact Int.natAbs_natCast _
  · rw [Int.natAbs_neg, Int.natAbs_natCast]

/-- The number itself comes out if a double holds it and has room for the half, and only then. -/
theorem sign_mul_halfUp_eq_iff (h : nearest? n = some r) :
    r.sign * halfUp r.natAbs = n ↔ Representable n.natAbs ∧ ¬ Crowded n.natAbs := by
  have size := (of_nearest? h).2.2.1
  constructor
  · intro same
    have same : halfUp r.natAbs = n.natAbs := by
      rw [← natAbs_sign_mul_halfUp, same]
    have whole : Representable r.natAbs := size ▸ Double.representable_nearestUnits _
    have whole : Representable n.natAbs := same ▸ whole.halfUp
    rw [size, whole.nearestUnits_eq] at same
    refine ⟨whole, fun crowded => ?_⟩
    rw [halfUp, if_pos crowded] at same
    omega
  · rintro ⟨whole, room⟩
    obtain rfl := (Double.eq_of_nearest? h).mpr whole
    have kept : halfUp r.natAbs = r.natAbs := if_neg room
    rw [kept, Int.sign_mul_natAbs]

/-- Rounding to whole numbers: of the whole number nearest to the operand, with a half added to its magnitude. -/
theorem toScale_one (h : nearest? n = some r) :
    toScale (.int n) (.int 1) = .ok (.int (r.sign * halfUp r.natAbs)) := by
  obtain ⟨-, sign, size, range⟩ := of_nearest? h
  have whole : Representable r.natAbs := size ▸ Double.representable_nearestUnits _
  have signs : (0 ≤ Double.signed (n < 0) (Double.unitsPerOne * r.natAbs)) ↔ 0 ≤ r := by
    rw [zero_le_signed_mul Double.unitsPerOne_pos, ← sign]
  have back : nearest? (r.sign * halfUp r.natAbs) = some (r.sign * halfUp r.natAbs) := by
    refine Double.nearest?_of_representable ?_ ?_
    · rw [natAbs_sign_mul_halfUp]
      exact whole.halfUp
    · rw [natAbs_sign_mul_halfUp]
      exact Double.halfUp_lt range
  have quotient := Number.div_int (b := 1) (q := r.sign * halfUp r.natAbs) (by decide)
  rw [back, Int.one_mul] at quotient
  rw [toScale_of_steps (Number.toDouble_int h) toDouble_one (Double.mul_one whole range _)
    (Double.floorMagnitude?_add_half whole range), zero_le_finite]
  simp only [signs, decide_eq_true_eq, sign_mul_halfUp]
  exact quotient

theorem toScale_one_of_none (h : nearest? n = none) : toScale (.int n) (.int 1) = .error .overflow := by
  unfold toScale
  rw [Number.toDouble_int_of_none h]
  rfl

/-- Rounding to no places is rounding to the scale of one. -/
theorem round_number (m : Number) : round (.number m) (.int 0) =
    match toScale m (.int 1) with
    | .ok r => .ok (.number r)
    | .error _ => .error (.error (.callRange "round")) := by
  have unit : scale 0 = .ok (.int 1) := rfl
  have places : (Value.int 0).toNumber = .ok (.int 0) := rfl
  unfold round
  rw [places]
  simp only [bind, Except.bind, liftFault, Number.truncate, unit, Value.toNumber, Value.isDefined]
  cases toScale m (.int 1) <;> rfl

/-- Rounding a whole number fails only where a double would be infinite, which is reported. -/
theorem round_whole (n : Int) : round (.int n) (.int 0) =
    match nearest? n with
    | some r => .ok (.int (r.sign * halfUp r.natAbs))
    | none => .error (.error (.callRange "round")) := by
  refine (round_number (.int n)).trans ?_
  cases found : nearest? n with
  | none => rw [toScale_one_of_none found]
  | some r =>
    rw [toScale_one found]
    rfl

end Rounding

namespace Expr

variable {c : Context} {x : Expr} {n : Int}

theorem evaluate_round (known : c.functions.find? "round" = some Builtin.round.function) {v : Value}
    (value : evaluate c x = .ok v) :
    evaluate c (.call "round" [x]) = inRange (.callRange "round") (Rounding.round v (.int 0)) := by
  have found : c.functions.require "round" = .ok Builtin.round.function := by
    rw [Library.require, known]
  rw [evaluate, Context.call, found, outcomes, outcomes, value]
  rfl

theorem evaluate_round_whole (known : c.functions.find? "round" = some Builtin.round.function)
    (value : evaluate c x = .ok (.int n)) : evaluate c (.call "round" [x]) =
      match nearest? n with
      | some r => .ok (.int (r.sign * halfUp r.natAbs))
      | none => .error (.error (.callRange "round")) := by
  rw [evaluate_round known value, Rounding.round_whole]
  cases nearest? n <;> rfl

/-- Rounding a whole number gives the whole number nearest to it, with a half added to the magnitude; and it gives the
number itself if and only if a double holds it and has room for the half, as it has not for an odd number of 53 binary
digits.  No value is given where a double would be infinite. -/
theorem round_keeps_wholes (known : c.functions.find? "round" = some Builtin.round.function)
    (value : evaluate c x = .ok (.int n)) :
    (evaluate c (.call "round" [x]) =
      match nearest? n with
      | some r => .ok (.int (r.sign * halfUp r.natAbs))
      | none => .error (.error (.callRange "round"))) ∧
    ∀ v, evaluate c (.call "round" [x]) = .ok v →
      (v = .int n ↔ Representable n.natAbs ∧ ¬ Crowded n.natAbs) := by
  have outcome := evaluate_round_whole known value
  refine ⟨outcome, ?_⟩
  intro v given
  rw [outcome] at given
  cases nearest : nearest? n with
  | none => simp [nearest] at given
  | some r =>
    rw [nearest] at given
    obtain rfl := Except.ok.inj given
    rw [Value.int_inj, Rounding.sign_mul_halfUp_eq_iff nearest]

end Expr

namespace Calculation

theorem known (a b : Int) : (context a b).functions.find? "round" = some Builtin.round.function := by
  show Library.standard.find? "round" = _
  decide +kernel

end Calculation

namespace Expr

/-- An even number of 53 binary digits is its own rounding. -/
theorem even_rounds_to_itself :
    evaluate (Calculation.context (-(2 ^ 52 + 2)) 0) (.call "round" [.reference "a"]) = .ok (.int (-(2 ^ 52 + 2))) := by
  obtain ⟨outcome, exact⟩ := round_keeps_wholes (Calculation.known _ _) (Calculation.first (-(2 ^ 52 + 2)) 0)
  have nearest : nearest? (-(2 ^ 52 + 2)) = some (-(2 ^ 52 + 2)) := by decide +kernel
  rw [nearest] at outcome
  have whole : Representable (-(2 ^ 52 + 2) : Int).natAbs := Double.representable_of_le (by decide)
  have room : ¬ Crowded (-(2 ^ 52 + 2) : Int).natAbs := by
    rintro ⟨-, -, odd⟩
    exact absurd odd (by decide)
  exact outcome.trans (congrArg Except.ok ((exact _ outcome).mpr ⟨whole, room⟩))

/-- An odd one is not: it is rounded away from zero. -/
theorem odd_rounds_up :
    evaluate (Calculation.context (2 ^ 52 + 1) 0) (.call "round" [.reference "a"]) = .ok (.int (2 ^ 52 + 2)) := by
  have nearest : nearest? (2 ^ 52 + 1) = some (2 ^ 52 + 1) := by decide +kernel
  have rounded : (2 ^ 52 + 1 : Int).sign * halfUp (2 ^ 52 + 1 : Int).natAbs = 2 ^ 52 + 2 := by decide
  have outcome := evaluate_round_whole (Calculation.known _ _) (Calculation.first (2 ^ 52 + 1) 0)
  rw [nearest] at outcome
  exact outcome.trans (congrArg Except.ok (congrArg Value.int rounded))

end Expr

end Questionnaire
