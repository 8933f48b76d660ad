import Questionnaire.Proofs.Number.Comparison

/-!
# Whole numbers as doubles

A double holds a whole number exactly if 53 binary digits and zeros behind them write it.  Any other whole number
becomes a neighbour of that kind.  So remainders and quotients of whole numbers, which go through doubles, are those of
the neighbours.
-/
namespace Questionnaire.Double

/-! ## Scaling -/

theorem roundHalfEven_mul_left {k : Nat} (positive : 0 < k) (num den : Nat) :
    roundHalfEven (k * num) (k * den) = roundHalfEven num den := by
  have quotient : k * num / (k * den) = num / den := Nat.mul_div_mul_left num den positive
  have twice : 2 * (k * num % (k * den)) = k * (2 * (num % den)) := by
    rw [Nat.mul_mod_mul_left, Nat.mul_left_comm]
  have same : (k * (2 * (num % den)) == k * den) = (2 * (num % den) == den) := by
    rw [Bool.eq_iff_iff, beq_iff_eq, beq_iff_eq, Nat.mul_right_inj positive.ne']
  simp only [roundHalfEven, quotient, twice, same, Nat.mul_lt_mul_left positive]

theorem roundHalfEven_mul_right {den : Nat} (positive : 0 < den) (m : Nat) : roundHalfEven (m * den) den = m := by
  simp [roundHalfEven, Nat.mul_div_cancel m positive, positive]

theorem nearestUnits_mul_left {k : Nat} (positive : 0 < k) (num den : Nat) :
    nearestUnits (k * num) (k * den) = nearestUnits num den := by
  simp only [nearestUnits, Nat.mul_div_mul_left num den positive, Nat.mul_assoc, roundHalfEven_mul_left positive]

theorem log2_pow_mul {n : Nat} (nonzero : n ≠ 0) (j : Nat) : (2 ^ j * n).log2 = n.log2 + j := by
  induction j with
  | zero => rw [Nat.pow_zero, Nat.one_mul, Nat.add_zero]
  | succ j ih =>
    rw [Nat.pow_succ', Nat.mul_assoc, Nat.log2_two_mul (Nat.mul_ne_zero (Nat.two_pow_pos j).ne' nonzero), ih,
      Nat.add_assoc]

/-! ## Whole numbers that a double holds -/

/-- 53 binary digits with zeros behind them. -/
def Representable (n : Nat) : Prop := ∃ m k, m < 2 ^ 53 ∧ n = m * 2 ^ k

theorem representable_of_le {n : Nat} (small : n ≤ 2 ^ 53) : Representable n := by
  rcases Nat.lt_or_eq_of_le small with less | rfl
  · exact ⟨n, 0, less, (Nat.mul_one n).symm⟩
  · exact ⟨1, 53, by decide, (Nat.one_mul _).symm⟩

theorem Representable.pow_mul {n : Nat} (h : Representable n) (j : Nat) : Representable (2 ^ j * n) := by
  obtain ⟨m, k, small, rfl⟩ := h
  exact ⟨m, j + k, small, by rw [Nat.pow_add, Nat.mul_left_comm]⟩

/-- Such a number is a multiple of the distance to its neighbours. -/
theorem Representable.spacing_dvd {n : Nat} (h : Representable n) : spacing n ∣ n := by
  obtain ⟨m, k, small, rfl⟩ := h
  rcases Nat.eq_zero_or_pos m with rfl | positive
  · rw [Nat.zero_mul]
    exact Nat.dvd_zero _
  · have nonzero : m * 2 ^ k ≠ 0 := Nat.mul_ne_zero positive.ne' (Nat.two_pow_pos k).ne'
    have bits : (m * 2 ^ k).log2 < 53 + k := by
      rw [Nat.log2_lt nonzero, Nat.pow_add]
      exact Nat.mul_lt_mul_of_pos_right small (Nat.two_pow_pos k)
    exact Nat.dvd_mul_left_of_dvd (Nat.pow_dvd_pow 2 (by omega)) m

theorem nearestUnits_of_dvd {n : Nat} (h : spacing n ∣ n) : nearestUnits n 1 = n := by
  obtain ⟨m, same⟩ := h
  rw [nearestUnits, Nat.div_one, Nat.one_mul]
  nth_rewrite 1 [same]
  rw [Nat.mul_comm (spacing n) m, roundHalfEven_mul_right (spacing_pos n), Nat.mul_comm m, ← same]

theorem Representable.nearestUnits_eq {n : Nat} (h : Representable n) : nearestUnits n 1 = n :=
  nearestUnits_of_dvd h.spacing_dvd

/-- The neighbour that a whole number becomes is such a number. -/
theorem representable_nearestUnits (n : Nat) : Representable (nearestUnits n 1) := by
  have most : n ≤ 2 ^ 53 * spacing n :=
    calc n ≤ 2 ^ (n.log2 + 1) := Nat.lt_log2_self.le
      _ ≤ 2 ^ (53 + (n.log2 - 52)) := Nat.pow_le_pow_right (by decide) (by omega)
      _ = 2 ^ 53 * spacing n := Nat.pow_add ..
  have digits := representable_of_le (roundHalfEven_le (spacing_pos n) most)
  rw [nearestUnits, Nat.div_one, Nat.one_mul, Nat.mul_comm]
  exact digits.pow_mul (n.log2 - 52)

theorem representable_iff {n : Nat} : Representable n ↔ nearestUnits n 1 = n :=
  ⟨Representable.nearestUnits_eq, fun same => same ▸ representable_nearestUnits n⟩

theorem lt_of_not_representable {n : Nat} (h : ¬ Representable n) : 2 ^ 53 < n :=
  Nat.not_le.mp (mt representable_of_le h)

/-- A power of two makes no difference to rounding. -/
theorem nearestUnits_pow_mul (j n : Nat) : nearestUnits (2 ^ j * n) 1 = 2 ^ j * nearestUnits n 1 := by
  by_cases h : Representable n
  · rw [h.nearestUnits_eq, (h.pow_mul j).nearestUnits_eq]
  · have great := lt_of_not_representable h
    have nonzero : n ≠ 0 := by omega
    have bits : 53 ≤ n.log2 := (Nat.le_log2 nonzero).mpr great.le
    have gap : spacing (2 ^ j * n) = 2 ^ j * spacing n := by
      rw [spacing, log2_pow_mul nonzero, Nat.add_comm, Nat.add_sub_assoc (by omega)]
      exact Nat.pow_add ..
    simp only [nearestUnits, Nat.div_one, Nat.one_mul, gap, roundHalfEven_mul_left (Nat.two_pow_pos j)]
    rw [Nat.mul_left_comm]

/-! ## Adding one half -/

theorem log2_succ_two_mul {n : Nat} (nonzero : n ≠ 0) : (2 * n + 1).log2 = n.log2 + 1 := by
  have least := Nat.log2_self_le nonzero
  have most := Nat.lt_log2_self (n := n)
  rw [Nat.log2_eq_iff (by omega), Nat.pow_succ, Nat.pow_succ 2 (n.log2 + 1)]
  omega

/-- The odd numbers that take all 53 binary digits. -/
def Crowded (n : Nat) : Prop := 2 ^ 52 < n ∧ n < 2 ^ 53 ∧ n % 2 = 1

instance : DecidablePred Crowded := fun n => inferInstanceAs (Decidable (2 ^ 52 < n ∧ n < 2 ^ 53 ∧ n % 2 = 1))

/-- What becomes of a whole number by adding a half and cutting the fraction off: a crowded one has no room for the
half, and is rounded up. -/
def halfUp (n : Nat) : Nat := if Crowded n then n + 1 else n

/-- With 53 binary digits the half lies in the middle between two neighbours, and the even one is taken. -/
theorem roundHalfEven_middle (n : Nat) : roundHalfEven (2 * n + 1) 2 = if n % 2 = 1 then n + 1 else n := by
  have quotient : (2 * n + 1) / 2 = n := by omega
  have twice : 2 * ((2 * n + 1) % 2) = 2 := by omega
  simp only [roundHalfEven, quotient, twice]
  rcases Nat.mod_two_eq_zero_or_one n with even | odd
  · simp [even]
  · simp [odd]

/-- With more digits the half is less than half of the distance to the neighbour. -/
theorem roundHalfEven_close {m gap : Nat} (wide : 2 < gap) : roundHalfEven (m * gap + 1) gap = m := by
  have positive : 0 < gap := by omega
  have quotient : (m * gap + 1) / gap = m := by
    rw [Nat.add_comm, Nat.add_mul_div_right _ _ positive, Nat.div_eq_of_lt (by omega), Nat.zero_add]
  have rest : (m * gap + 1) % gap = 1 := by
    rw [Nat.add_comm, Nat.add_mul_mod_self_right, Nat.mod_eq_of_lt (by omega)]
  rw [roundHalfEven, quotient, rest]
  simp [wide]

theorem nearestUnits_succ_two_mul {n : Nat} (h : Representable n) : nearestUnits (2 * n + 1) 1 / 2 = halfUp n := by
  rcases Nat.lt_or_ge n (2 ^ 52) with small | wide
  · have room : Representable (2 * n + 1) := representable_of_le (by omega)
    rw [room.nearestUnits_eq, halfUp, if_neg fun crowded => by have := crowded.1; omega]
    omega
  have nonzero : n ≠ 0 := by omega
  rcases Nat.lt_or_ge n (2 ^ 53) with last | great
  · have bits : n.log2 = 52 := (Nat.log2_eq_iff nonzero).mpr ⟨wide, last⟩
    have gap : spacing (2 * n + 1) = 2 := by
      rw [spacing, log2_succ_two_mul nonzero, bits]
    have crowded : Crowded n ↔ n % 2 = 1 := ⟨fun crowded => crowded.2.2, fun odd => ⟨by omega, last, odd⟩⟩
    rw [nearestUnits, Nat.div_one, Nat.one_mul, gap, Nat.mul_div_cancel _ (by decide), roundHalfEven_middle, halfUp]
    simp only [crowded]
  · have bits : 53 ≤ n.log2 := (Nat.le_log2 nonzero).mpr great
    have gap : spacing (2 * n + 1) = 2 * spacing n := by
      rw [spacing, spacing, log2_succ_two_mul nonzero, Nat.succ_sub (by omega)]
      exact Nat.pow_succ'
    have wide : 2 ≤ spacing n := by
      show 2 ^ 1 ≤ 2 ^ (n.log2 - 52)
      exact Nat.pow_le_pow_right (by decide) (by omega)
    obtain ⟨m, same⟩ := h.spacing_dvd
    have split : 2 * n + 1 = m * (2 * spacing n) + 1 := by
      rw [Nat.mul_left_comm, Nat.mul_comm m, ← same]
    rw [nearestUnits, Nat.div_one, Nat.one_mul, gap, split, roundHalfEven_close (by omega), halfUp,
      if_neg fun crowded => by have := crowded.2.1; omega]
    omega

/-! ## Integers as doubles -/

theorem ofRatio_mul_left {k : Nat} (positive : 0 < k) (negative : Bool) (num den : Nat) :
    ofRatio negative (k * num) (k * den) = ofRatio negative num den := by
  rw [ofRatio, ofUnits, Nat.mul_left_comm, nearestUnits_mul_left positive, ofRatio, ofUnits]

/-- The first whole number that is too large to be finite as a double. -/
def wholeLimit : Nat := Nat.pow 2 1024

theorem unitLimit_eq : unitLimit = unitsPerOne * wholeLimit := by decide +kernel

theorem nearestUnits_whole (n : Nat) : nearestUnits (unitsPerOne * n) 1 = unitsPerOne * nearestUnits n 1 := by
  obtain ⟨k, -, one, -⟩ := exists_powers
  rw [one, nearestUnits_pow_mul]

theorem ofRatio_whole (negative : Bool) (n : Nat) : ofRatio negative n 1 =
    if nearestUnits n 1 < wholeLimit then finite negative (unitsPerOne * nearestUnits n 1) else infinity negative := by
  rw [ofRatio, ofUnits, nearestUnits_whole, unitLimit_eq]
  simp only [Nat.mul_lt_mul_left unitsPerOne_pos]

theorem toInt?_whole (negative : Bool) (n : Nat) :
    toInt? (finite negative (unitsPerOne * n)) = some (signed negative n) := by
  rw [toInt?, Nat.mul_mod_right, Nat.mul_div_cancel_left n unitsPerOne_pos]
  rfl

theorem signed_natAbs (n : Int) : signed (n < 0) n.natAbs = n := by
  unfold signed
  split_ifs with negative
  all_goals
    simp only [decide_eq_true_eq] at negative
    omega

/-- The whole number that the double nearest to an integer stands for; none where that is infinite. -/
def nearest? (n : Int) : Option Int := (ofInt? n).bind toInt?

theorem ofInt?_of_lt {n : Int} (range : nearestUnits n.natAbs 1 < wholeLimit) :
    ofInt? n = some (finite (n < 0) (unitsPerOne * nearestUnits n.natAbs 1)) := by
  have found := (ofRatio_whole (n < 0) n.natAbs).trans (if_pos range)
  unfold ofInt?
  rw [found]

theorem ofInt?_of_ge {n : Int} (beyond : ¬ nearestUnits n.natAbs 1 < wholeLimit) : ofInt? n = none := by
  have found := (ofRatio_whole (n < 0) n.natAbs).trans (if_neg beyond)
  unfold ofInt?
  rw [found]

theorem nearest?_of_lt {n : Int} (range : nearestUnits n.natAbs 1 < wholeLimit) :
    nearest? n = some (signed (n < 0) (nearestUnits n.natAbs 1)) := by
  rw [nearest?, ofInt?_of_lt range, Option.bind_some, toInt?_whole]

theorem nearest?_of_ge {n : Int} (beyond : ¬ nearestUnits n.natAbs 1 < wholeLimit) : nearest? n = none := by
  rw [nearest?, ofInt?_of_ge beyond, Option.bind_none]

variable {n r : Int}

/-- What is known of the whole number nearest to an integer. -/
theorem of_nearest? (h : nearest? n = some r) :
    ofInt? n = some (finite (n < 0) (unitsPerOne * r.natAbs)) ∧ r = signed (n < 0) r.natAbs ∧
      r.natAbs = nearestUnits n.natAbs 1 ∧ r.natAbs < wholeLimit := by
  by_cases range : nearestUnits n.natAbs 1 < wholeLimit
  · rw [nearest?_of_lt range] at h
    obtain rfl := Option.some.inj h
    rw [natAbs_signed]
    exact ⟨ofInt?_of_lt range, rfl, rfl, range⟩
  · rw [nearest?_of_ge range] at h
    cases h

theorem ofInt?_of_nearest?_none (h : nearest? n = none) : ofInt? n = none := by
  by_cases range : nearestUnits n.natAbs 1 < wholeLimit
  · rw [nearest?_of_lt range] at h
    cases h
  · exact ofInt?_of_ge range

theorem nearest?_of_representable (whole : Representable n.natAbs) (range : n.natAbs < wholeLimit) :
    nearest? n = some n := by
  have same := whole.nearestUnits_eq
  rw [nearest?_of_lt (by rwa [same]), same, signed_natAbs]

/-- A whole number that a double holds is its own nearest one. -/
theorem eq_of_nearest? (h : nearest? n = some r) : r = n ↔ Representable n.natAbs := by
  obtain ⟨-, sign, size, -⟩ := of_nearest? h
  rw [representable_iff, ← size]
  constructor
  · rintro rfl
    rfl
  · intro same
    rw [sign, same, signed_natAbs]

theorem ne_zero_of_nearest? (h : nearest? n = some r) (nonzero : n ≠ 0) : r ≠ 0 := by
  have positive := nearestUnits_pos (Int.natAbs_ne_zero.mpr nonzero)
  have size := (of_nearest? h).2.2.1
  rintro rfl
  omega

theorem signed_mod (negative : Bool) (u : Nat) (s : Int) :
    signed negative (u % s.natAbs) = (signed negative u).tmod s := by
  have apart : ((u % s.natAbs : Nat) : Int) = (u : Int).tmod s := by
    rw [Int.ofNat_tmod]
    rcases Int.natAbs_eq s with same | same
    · rw [← same]
    · nth_rewrite 2 [same]
      rw [Int.tmod_neg]
  cases negative with
  | false => exact apart
  | true =>
    show -((u % s.natAbs : Nat) : Int) = (-(u : Int)).tmod s
    rw [apart, Int.neg_tmod]

/-! ### A half added to a double -/

theorem two_pow_lt_wholeLimit : 2 ^ 53 < wholeLimit := by decide +kernel

theorem halfUp_lt {m : Nat} (range : m < wholeLimit) : halfUp m < wholeLimit := by
  have room := two_pow_lt_wholeLimit
  unfold halfUp
  split_ifs with crowded
  · have last := crowded.2.1
    omega
  · exact range

theorem Representable.halfUp {m : Nat} (whole : Representable m) : Representable (halfUp m) := by
  unfold Double.halfUp
  split_ifs with crowded
  · exact representable_of_le crowded.2.1
  · exact whole

/-- One half is the power of two that is half of one in units. -/
theorem exists_half : ∃ j, unitsPerOne = 2 * 2 ^ j ∧ half = finite false (2 ^ j) :=
  ⟨unitsPerOne.log2 - 1, by decide +kernel⟩

theorem mul_one {m : Nat} (whole : Representable m) (range : m < wholeLimit) (negative : Bool) :
    (finite negative (unitsPerOne * m)).mul (finite false unitsPerOne) = finite negative (unitsPerOne * m) := by
  have units : nearestUnits (unitsPerOne * m * unitsPerOne) unitsPerOne = unitsPerOne * m := by
    have cancelled := nearestUnits_mul_left unitsPerOne_pos (unitsPerOne * m) 1
    rwa [Nat.mul_one, Nat.mul_comm unitsPerOne (unitsPerOne * m), nearestUnits_whole, whole.nearestUnits_eq]
      at cancelled
  have less : unitsPerOne * m < unitLimit := by
    rw [unitLimit_eq]
    exact Nat.mul_lt_mul_of_pos_left range unitsPerOne_pos
  rw [mul, Bool.bne_false, ofUnits, units, if_pos less]

theorem add_of_pos {v : Nat} (positive : 0 < v) (u : Nat) :
    (finite false u).add (finite false v) = ofUnits false (u + v) 1 := by
  have total : signed false u + signed false v = ((u + v : Nat) : Int) := rfl
  have nonzero : (((u + v : Nat) : Int) == 0) = false := beq_eq_false_iff_ne.mpr (by omega)
  have sign : decide (((u + v : Nat) : Int) < 0) = false := decide_eq_false (by omega)
  unfold add
  simp only [total, nonzero, sign, Bool.false_eq_true, if_false, Int.natAbs_natCast]

/-- Of a whole number with a half added, rounded, and cut to a whole number. -/
theorem floorMagnitude?_add_half {m : Nat} (whole : Representable m) (range : m < wholeLimit) :
    ((finite false (unitsPerOne * m)).add half).floorMagnitude? = some (halfUp m) := by
  obtain ⟨j, one, half⟩ := exists_half
  have sum : unitsPerOne * m + 2 ^ j = 2 ^ j * (2 * m + 1) := by
    rw [one, Nat.mul_add, Nat.mul_one, Nat.mul_comm 2, Nat.mul_assoc]
  have cut := nearestUnits_succ_two_mul whole
  have below : nearestUnits (2 * m + 1) 1 < 2 * wholeLimit := by
    have most := halfUp_lt range
    omega
  have less : 2 ^ j * nearestUnits (2 * m + 1) 1 < unitLimit := by
    rw [unitLimit_eq, one, Nat.mul_comm 2 (2 ^ j), Nat.mul_assoc]
    exact Nat.mul_lt_mul_of_pos_left below (Nat.two_pow_pos j)
  rw [half, add_of_pos (Nat.two_pow_pos j), sum, ofUnits, nearestUnits_pow_mul, if_pos less, floorMagnitude?, one,
    Nat.mul_comm 2 (2 ^ j), Nat.mul_div_mul_left _ _ (Nat.two_pow_pos j), cut]

end Questionnaire.Double

namespace Questionnaire.Number

open Double (nearest? of_nearest?)

variable {a b q r s : Int}

theorem toDouble_int (h : nearest? a = some r) :
    (int a).toDouble = .ok (.finite (a < 0) (Double.unitsPerOne * r.natAbs)) := by
  unfold toDouble
  dsimp only
  rw [(of_nearest? h).1]

theorem toDouble_int_of_none (h : nearest? a = none) : (int a).toDouble = .error .overflow := by
  unfold toDouble
  dsimp only
  rw [Double.ofInt?_of_nearest?_none h]

theorem normalize_whole (negative : Bool) (n : Nat) :
    (float (.finite negative (Double.unitsPerOne * n))).normalize = int (Double.signed negative n) := by
  rw [normalize, Double.toInt?_whole]

/-- The remainder of two integers is that of the whole numbers nearest to them. -/
theorem mod_int (first : nearest? a = some r) (second : nearest? b = some s) (nonzero : b ≠ 0) :
    normalize <$> (int a).mod (int b) = .ok (int (r.tmod s)) := by
  have some : s ≠ 0 := Double.ne_zero_of_nearest? second nonzero
  have divisor : (Double.unitsPerOne * s.natAbs == 0) = false :=
    beq_eq_false_iff_ne.mpr (Nat.mul_ne_zero Double.unitsPerOne_pos.ne' (Int.natAbs_ne_zero.mpr some))
  have whole : (float (.finite (a < 0) (Double.unitsPerOne * r.natAbs % (Double.unitsPerOne * s.natAbs)))).normalize =
      int (r.tmod s) := by
    rw [Nat.mul_mod_mul_left, normalize_whole, Double.signed_mod, ← (of_nearest? first).2.1]
  rw [mod, toDouble_int first, toDouble_int second]
  simp only [bind, Except.bind, Double.remainder?, divisor]
  exact congrArg Except.ok whole

theorem mod_int_of_none (h : nearest? a = none ∨ nearest? b = none) : (int a).mod (int b) = .error .overflow := by
  rcases h with first | second
  · rw [mod, toDouble_int_of_none first]
    rfl
  · cases first : nearest? a with
    | none =>
      rw [mod, toDouble_int_of_none first]
      rfl
    | some r =>
      rw [mod, toDouble_int first, toDouble_int_of_none second]
      rfl

/-- The sign of a quotient, as the signs of dividend and divisor give it. -/
theorem sign_quotient (nonzero : b ≠ 0) (some : q ≠ 0) :
    (decide (b * q < 0) != decide (b < 0)) = decide (q < 0) := by
  rcases lt_or_gt_of_ne nonzero with negative | positive
  · rcases lt_or_gt_of_ne some with negative' | positive'
    · simp [negative, negative', (Int.mul_pos_of_neg_of_neg negative negative').not_gt]
    · simp [negative, positive'.not_gt, Int.mul_neg_of_neg_of_pos negative positive']
  · rcases lt_or_gt_of_ne some with negative' | positive'
    · simp [positive.not_gt, negative', Int.mul_neg_of_pos_of_neg positive negative']
    · simp [positive.not_gt, positive'.not_gt, (Int.mul_pos positive positive').not_gt]

/-- The quotient of an integer by one that divides it is the whole number nearest to the exact quotient. -/
theorem div_int (nonzero : b ≠ 0) : normalize <$> (int (b * q)).div (int b) =
    match nearest? q with
    | some r => .ok (int r)
    | none => .error .overflow := by
  have ratio : Double.ofRatio (decide (b * q < 0) != decide (b < 0)) (b * q).natAbs b.natAbs =
      Double.ofRatio (decide (b * q < 0) != decide (b < 0)) q.natAbs 1 := by
    have counted := Double.ofRatio_mul_left (Int.natAbs_pos.mpr nonzero) (decide (b * q < 0) != decide (b < 0))
      q.natAbs 1
    rwa [Nat.mul_one, ← Int.natAbs_mul] at counted
  unfold div
  dsimp only
  rw [ratio]
  by_cases range : Double.nearestUnits q.natAbs 1 < Double.wholeLimit
  · rw [(Double.ofRatio_whole _ _).trans (if_pos range), Double.nearest?_of_lt range]
    refine congrArg Except.ok ((normalize_whole _ _).trans (congrArg int ?_))
    by_cases some : q = 0
    · have zero : Double.nearestUnits q.natAbs 1 = 0 := by
        rw [some]
        exact (Double.representable_of_le (by decide)).nearestUnits_eq
      rw [zero, Double.signed_zero, Double.signed_zero]
    · rw [sign_quotient nonzero some]
  · rw [(Double.ofRatio_whole _ _).trans (if_neg range), Double.nearest?_of_ge range]
    rfl

end Questionnaire.Number
