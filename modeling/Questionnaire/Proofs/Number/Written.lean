import Questionnaire.Proofs.Number.Comparison
import Questionnaire.Proofs.Number.Logarithm
import Questionnaire.Proofs.Number.Numerals

/-!
# Numbers and their texts

What the text of a number writes, if it writes a number at all, is equal to it.  An integer of few digits and a double
without a fraction are written as whole numbers and read as them; a double with a fraction has a point or an exponent
in its text and is read as a double.  An infinity has no text that writes a number, and an integer of too many digits
has none either: its text has an exponent, and as a double it is infinite.
-/
namespace Questionnaire

open Numeral

/-! ## Doubles -/

namespace Double

theorem plain_replicate (n : Nat) : ∀ c ∈ List.replicate n '0', Plain c := fun c mem => by
  rw [List.eq_of_mem_replicate mem]
  decide

theorem plain_decimalDigits (n : Nat) : ∀ c ∈ (decimalDigits n).toList, Plain c := fun _ mem =>
  .inl (isDigit_of_mem_decimalDigits mem)

theorem marked_exponentText (e : Int) : Marked (exponentText e).toList := by
  have digits : ∀ c ∈ (if (decimalDigits e.natAbs).length < 2 then "0" ++ decimalDigits e.natAbs
      else decimalDigits e.natAbs).toList, Plain c := by
    split
    · rw [String.toList_append]
      exact List.forall_mem_append.mpr ⟨plain_replicate 1, plain_decimalDigits _⟩
    · exact plain_decimalDigits _
  unfold exponentText
  rw [String.toList_append]
  split <;> exact ⟨List.forall_mem_append.mpr ⟨plain_of_all (by decide), digits⟩, 'e', by simp, by decide⟩

/-- Digits are laid out with a point between them or an exponent behind them. -/
theorem marked_layout {digits : List Char} (all : ∀ c ∈ digits, c.isDigit = true) (e : Int) :
    Marked (layout digits e).toList := by
  have plain : ∀ c ∈ digits, Plain c := fun c mem => .inl (all c mem)
  have zero : Plain '0' := by decide
  have point : Plain '.' := by decide
  have front (n : Nat) : ∀ c ∈ digits.take n, Plain c := fun c mem => plain c (List.mem_of_mem_take mem)
  have back (n : Nat) : ∀ c ∈ digits.drop n, Plain c := fun c mem => plain c (List.mem_of_mem_drop mem)
  unfold layout
  split
  · split
    · rw [String.toList_ofList]
      refine ⟨?_, '.', by simp, by decide⟩
      simp only [List.forall_mem_cons, List.forall_mem_append]
      exact ⟨zero, point, plain_replicate _, plain⟩
    · rw [String.toList_ofList]
      refine ⟨?_, '.', by simp, by decide⟩
      simp only [List.forall_mem_cons, List.forall_mem_append]
      refine ⟨⟨front _, plain_replicate _⟩, point, ?_⟩
      split
      · exact plain_replicate 1
      · exact back _
  · rw [String.toList_append, String.toList_ofList]
    refine (marked_exponentText e).append (List.forall_mem_append.mpr ⟨front 1, ?_⟩)
    split
    · exact List.forall_mem_nil _
    · exact List.forall_mem_cons.mpr ⟨point, back 1⟩

theorem isDigit_of_mem_shortest {units : Nat} {c : Char} (mem : c ∈ (shortest units).1) : c.isDigit = true := by
  unfold shortest at mem
  have mem := List.mem_reverse.mp mem
  exact isDigit_of_mem_decimalDigits (List.mem_reverse.mp ((List.dropWhile_sublist _).subset mem))

theorem marked_text (negative : Bool) (units : Nat) : Marked (text (.finite negative units)).toList := by
  have body : Marked (if units == 0 then "0.0" else layout (shortest units).1 (shortest units).2).toList := by
    split
    · exact ⟨plain_of_all (by decide), '.', by decide, by decide⟩
    · exact marked_layout (fun _ => isDigit_of_mem_shortest) _
  unfold text
  dsimp only
  split
  · rw [String.toList_append]
    exact body.append (plain_of_all (by decide))
  · exact body

end Double

/-! ## Integers of too many digits -/

namespace Numeral

/-- A magnitude in scientific form: one digit, a point, more digits, and an exponent. -/
def scientific (first : Char) (rest : List Char) (exponent : Nat) : List Char :=
  first :: '.' :: (rest ++ 'e' :: '+' :: (decimalDigits exponent).toList)

variable {first : Char} {rest : List Char}

theorem marked_scientific (digit : first.isDigit = true) (all : ∀ c ∈ rest, c.isDigit = true) (exponent : Nat) :
    Marked (scientific first rest exponent) := by
  refine ⟨?_, '.', by simp [scientific], by decide⟩
  simp only [scientific, List.forall_mem_cons, List.forall_mem_append]
  exact ⟨.inl digit, by decide, fun c mem => .inl (all c mem), by decide, by decide, Double.plain_decimalDigits exponent⟩

/-- Digits behind others make a number greater than that many places do. -/
theorem mul_pow_le_foldl (cs : List Char) (n : Nat) :
    n * 10 ^ cs.length ≤ cs.foldl (fun n c => 10 * n + (Text.digitValue? c).getD 0) n := by
  induction cs generalizing n with
  | nil => simp
  | cons c tail ih =>
    calc n * 10 ^ (c :: tail).length = 10 * n * 10 ^ tail.length := by
          rw [List.length_cons, Nat.pow_succ]
          ring
      _ ≤ (10 * n + (Text.digitValue? c).getD 0) * 10 ^ tail.length := Nat.mul_le_mul_right _ (Nat.le_add_right _ _)
      _ ≤ _ := ih _

theorem pow_le_digitsValue (digit : first.isDigit = true) (leading : first ≠ '0') :
    10 ^ rest.length ≤ Text.digitsValue (first :: rest) := by
  have positive : 1 ≤ (Text.digitValue? first).getD 0 := by
    rw [(digit_of_isDigit digit).1, Option.getD_some]
    have apart : first.toNat ≠ '0'.toNat := fun same => leading (Char.toNat_inj.mp same)
    have least : '0'.toNat ≤ first.toNat := (toNat_of_isDigit digit).1
    omega
  have front := mul_pow_le_foldl rest (10 * 0 + (Text.digitValue? first).getD 0)
  calc 10 ^ rest.length = 1 * 10 ^ rest.length := (Nat.one_mul _).symm
    _ ≤ (10 * 0 + (Text.digitValue? first).getD 0) * 10 ^ rest.length := Nat.mul_le_mul_right _ (by omega)
    _ ≤ Text.digitsValue (first :: rest) := front

theorem lt_digitCount {n k : Nat} (positive : 0 < k) (great : 10 ^ k ≤ n) : k < digitCount n := by
  rw [digitCount, ← String.length_toList, toList_decimalDigits]
  exact Nat.not_le.mp fun short => Nat.not_lt.mpr great ((Nat.length_toDigits_le_iff (by decide) positive).mp short)

theorem exponent?_decimalDigits (n : Nat) : exponent? ('e' :: '+' :: (decimalDigits n).toList) = some (n : Int) := by
  have all : (decimalDigits n).toList.all Text.isDigit = true :=
    List.all_eq_true.mpr fun c mem => isDigit_of_isDigit (isDigit_of_mem_decimalDigits mem)
  have nonempty := decimalDigits_ne_nil n
  have value := digitsValue_decimalDigits n
  generalize (decimalDigits n).toList = ds at all nonempty value ⊢
  simp [exponent?, splitSign, nonempty, all, value]

/-- What is too large for a double in scientific form is infinite. -/
theorem magnitude?_scientific (negative : Bool) (digit : first.isDigit = true) (leading : first ≠ '0')
    (all : ∀ c ∈ rest, c.isDigit = true) (some : rest ≠ []) {exponent : Nat} (great : 310 < exponent) :
    magnitude? negative (scientific first rest exponent) = Option.some (.infinity negative) := by
  have digits : ∀ c ∈ rest, Text.isDigit c = true := fun c mem => isDigit_of_isDigit (all c mem)
  have places : 10 ^ rest.length ≤ Text.digitsValue (first :: rest) := pow_le_digitsValue digit leading
  have count := lt_digitCount (List.length_pos_iff.mpr some) places
  have value : Double.ofDecimal negative (Text.digitsValue (first :: rest)) (exponent - rest.length) =
      .infinity negative := by
    have nonzero : Text.digitsValue (first :: rest) ≠ 0 := fun zero => by
      rw [zero] at places
      exact absurd places (Nat.not_le.mpr (Nat.pow_pos (by decide)))
    rw [Double.ofDecimal, if_neg (mt beq_iff_eq.mp nonzero), if_pos (by omega)]
  have point : Text.isDigit '.' = false := by decide
  have letter : ¬ Text.isDigit 'e' = true := by decide
  have whole : (scientific first rest exponent).takeWhile Text.isDigit = [first] := by
    simp [scientific, isDigit_of_isDigit digit, point]
  have behind : (scientific first rest exponent).dropWhile Text.isDigit =
      '.' :: (rest ++ 'e' :: '+' :: (decimalDigits exponent).toList) := by
    simp [scientific, isDigit_of_isDigit digit, point]
  have fraction : (rest ++ 'e' :: '+' :: (decimalDigits exponent).toList).takeWhile Text.isDigit = rest := by
    rw [List.takeWhile_append_of_pos digits, List.takeWhile_cons_of_neg letter, List.append_nil]
  have behind' : (rest ++ 'e' :: '+' :: (decimalDigits exponent).toList).dropWhile Text.isDigit =
      'e' :: '+' :: (decimalDigits exponent).toList := by
    rw [List.dropWhile_append_of_pos digits, List.dropWhile_cons_of_neg letter]
  simp only [magnitude?, whole, behind, fraction, behind', exponent?_decimalDigits]
  simpa using value

theorem double?_scientific (negative : Bool) (digit : first.isDigit = true) (leading : first ≠ '0')
    (all : ∀ c ∈ rest, c.isDigit = true) (some : rest ≠ []) {exponent : Nat} (great : 310 < exponent) :
    double? ((if negative then ['-'] else []) ++ scientific first rest exponent) =
      Option.some (.infinity negative) := by
  have sign : splitSign ((if negative then ['-'] else []) ++ scientific first rest exponent) =
      (negative, scientific first rest exponent) := by
    cases negative with
    | true => rfl
    | false =>
      have apart := (digit_of_isDigit digit).2.2
      rw [if_neg Bool.false_ne_true, List.nil_append, scientific, splitSign.eq_def]
      split
      · rename_i same
        cases same
        exact absurd apart (by decide)
      · rename_i same
        cases same
        exact absurd apart (by decide)
      · rfl
  have marked : Marked ((if negative then ['-'] else []) ++ scientific first rest exponent) :=
    (marked_scientific digit all exponent).append (plain_of_all (by cases negative <;> decide))
  have none : '_' ∉ (if negative then ['-'] else []) ++ scientific first rest exponent :=
    fun mem => (marked.plain _ mem).apart.2 rfl
  have word {c : Char} {tail : List Char} (letter : c.isDigit = false) :
      (String.ofList ((scientific first rest exponent).map Char.toLower) == String.ofList (c :: tail)) = false := by
    refine beq_eq_false_iff_ne.mpr fun same => ?_
    have same := List.cons.inj (String.ofList_injective same)
    rw [← same.1, toLower_of_isDigit digit, digit] at letter
    cases letter
  have infinite := magnitude?_scientific negative digit leading all some great
  rw [double?, dropUnderscores?_of_not_mem none]
  have inf : "inf" = String.ofList ['i', 'n', 'f'] := rfl
  have infinity : "infinity" = String.ofList ['i', 'n', 'f', 'i', 'n', 'i', 't', 'y'] := rfl
  have nan : "nan" = String.ofList ['n', 'a', 'n'] := rfl
  simp only [Option.bind_eq_bind, Option.bind_some, sign, inf, infinity, nan]
  rw [word (by decide), word (by decide), word (by decide)]
  exact infinite

end Numeral

/-- The digits of a mantissa behind its point: zeros at the end are left out, but one digit stays. -/
def mantissaTail (digits : List Char) : List Char :=
  if ((digits.drop 1).reverse.dropWhile (· == '0')).reverse.isEmpty then ['0']
  else ((digits.drop 1).reverse.dropWhile (· == '0')).reverse

theorem mantissaTail_ne_nil (digits : List Char) : mantissaTail digits ≠ [] := by
  unfold mantissaTail
  split
  · exact List.cons_ne_nil _ _
  · rename_i some
    simpa using some

theorem isDigit_of_mem_mantissaTail {digits : List Char} (all : ∀ c ∈ digits, c.isDigit = true) :
    ∀ c ∈ mantissaTail digits, c.isDigit = true := by
  intro c mem
  unfold mantissaTail at mem
  split at mem
  · cases List.mem_singleton.mp mem
    decide
  · have mem := List.mem_reverse.mp ((List.dropWhile_sublist _).subset (List.mem_reverse.mp mem))
    exact all c (List.mem_of_mem_drop mem)

/-- The text of an integer of too many digits: what is left of its digits in scientific form. -/
theorem toList_integerText {n : Int} (many : ¬ n.natAbs < digitBound) {shift : Nat} {first : Char} {digits : List Char}
    (cut : Logarithm.leading n.natAbs - 16 = shift)
    (left : (decimalDigits (n.natAbs / 10 ^ shift)).toList = first :: digits) :
    (integerText n).toList = (if n < 0 then ['-'] else []) ++
      scientific first (mantissaTail (first :: digits)) (shift + digits.length) := by
  have none : integerText? n = none := by
    unfold integerText?
    rw [if_neg many]
  have sign : (if n < 0 then "-" else "").toList = if n < 0 then ['-'] else [] := by split <;> rfl
  unfold Logarithm.leading at cut
  unfold integerText
  rw [none]
  simp only [cut, Nat.pow_eq, left]
  have tail : (if ((List.drop 1 (first :: digits)).reverse.dropWhile (· == '0')).reverse.isEmpty = true then "0" else
      String.ofList ((List.drop 1 (first :: digits)).reverse.dropWhile (· == '0')).reverse).toList =
        mantissaTail (first :: digits) := by
    unfold mantissaTail
    split
    · rfl
    · exact String.toList_ofList
  have exponent : shift + (first :: digits).length - 1 = shift + digits.length := rfl
  simp only [String.toList_append, sign, tail, exponent, String.toList_ofList, List.take_succ_cons, List.take_zero,
    scientific]
  simp

/-- An integer of too many digits is written in scientific form, if a digit is left of it. -/
theorem exists_scientific {n : Int} (many : ¬ n.natAbs < digitBound)
    (left : 10 ^ (Logarithm.leading n.natAbs - 16) ≤ n.natAbs) :
    ∃ first rest exponent, (integerText n).toList = (if n < 0 then ['-'] else []) ++ scientific first rest exponent ∧
      first.isDigit = true ∧ first ≠ '0' ∧ (∀ c ∈ rest, c.isDigit = true) ∧ rest ≠ [] ∧ digitLimit ≤ exponent := by
  generalize cut : Logarithm.leading n.natAbs - 16 = shift at left
  have positive : n.natAbs / 10 ^ shift ≠ 0 := (Nat.div_pos left (Nat.pow_pos (by decide))).ne'
  obtain ⟨first, digits, some⟩ := List.exists_cons_of_ne_nil (decimalDigits_ne_nil (n.natAbs / 10 ^ shift))
  have all : ∀ c ∈ first :: digits, c.isDigit = true := some ▸ fun _ => isDigit_of_mem_decimalDigits
  refine ⟨first, mantissaTail (first :: digits), shift + digits.length, toList_integerText many cut some,
    all first List.mem_cons_self, ?_, isDigit_of_mem_mantissaTail all, mantissaTail_ne_nil _, ?_⟩
  · rintro rfl
    exact positive (eq_zero_of_head (by rw [← toList_decimalDigits, some]; rfl))
  · have short : n.natAbs / 10 ^ shift < 10 ^ (digits.length + 1) := by
      rw [← Nat.length_toDigits_le_iff (by decide) (Nat.succ_pos _), ← toList_decimalDigits, some]
      exact Nat.le_refl _
    have less : n.natAbs < 10 ^ (digits.length + 1 + shift) := by
      rw [Nat.pow_add]
      exact (Nat.div_lt_iff_lt_mul (Nat.pow_pos (by decide))).mp short
    have great := (Nat.not_lt.mp many).trans_lt less
    unfold digitBound at great
    generalize digitLimit = limit at great ⊢
    have := (Nat.pow_lt_pow_iff_right (by decide)).mp great
    omega

/-! ## What a text writes -/

namespace Number

theorem ofText?_of_finite {s : String} (marked : Marked s.toList) {negative : Bool} {units : Nat}
    (read : Numeral.double? s.toList = some (.finite negative units)) :
    ofText? s = some (float (.finite negative units)) := by
  simp only [ofText?, strip_of_plain marked.plain, marked.integer?_eq_none, read]

theorem ofText?_of_infinity {s : String} (marked : Marked s.toList) {negative : Bool}
    (read : Numeral.double? s.toList = some (.infinity negative)) : ofText? s = none := by
  simp only [ofText?, strip_of_plain marked.plain, marked.integer?_eq_none, read]

theorem ofText?_of_integer {s : String} {k : Int} (plain : ∀ c ∈ s.toList, Plain c)
    (read : Numeral.integer? s.toList = some k) : ofText? s = some (int k) := by
  simp only [ofText?, strip_of_plain plain, read]

theorem plain_integerText {k : Int} {s : String} (h : integerText? k = some s) : ∀ c ∈ s.toList, Plain c := by
  unfold integerText? at h
  split at h
  · cases h
    split
    · rw [String.toList_append]
      exact List.forall_mem_append.mpr ⟨plain_of_all (by decide), Double.plain_decimalDigits _⟩
    · exact Double.plain_decimalDigits _
  · cases h

/-- A decimal is rounded to a double within the range of doubles. -/
theorem lt_of_ofDecimal {negative sign : Bool} {digits units : Nat} {exponent : Int}
    (value : Double.ofDecimal negative digits exponent = .finite sign units) : units < Double.unitLimit := by
  have positive := Double.unitLimit_pos
  unfold Double.ofDecimal at value
  split at value
  · cases value
    exact positive
  · dsimp only at value
    split at value
    · cases value
    · split at value
      · cases value
        exact positive
      · rw [Double.ofRatio, Double.ofUnits] at value
        split at value
        · rename_i finite
          cases value
          exact finite
        · cases value

theorem exists_ofDecimal {negative : Bool} {cs : List Char} {d : Double} (read : magnitude? negative cs = some d) :
    ∃ digits exponent, Double.ofDecimal negative digits exponent = d := by
  rw [magnitude?] at read
  split at read
  all_goals
    split at read
    · cases read
    · obtain ⟨_, -, read⟩ := Option.bind_eq_some_iff.mp read
      exact ⟨_, _, Option.some.inj read⟩

theorem lt_of_double? {cs : List Char} {negative : Bool} {units : Nat}
    (read : Numeral.double? cs = some (.finite negative units)) : units < Double.unitLimit := by
  rw [Numeral.double?] at read
  obtain ⟨_, -, read⟩ := Option.bind_eq_some_iff.mp read
  dsimp only at read
  split at read
  · cases read
  · split at read
    · cases read
    · obtain ⟨_, _, value⟩ := exists_ofDecimal read
      exact lt_of_ofDecimal value

/-- A double without a fraction that a text writes is an integer of few digits. -/
theorem few_of_toInt? {d : Double} {k : Int} {cs : List Char} (read : Numeral.double? cs = some d)
    (whole : d.toInt? = some k) : k.natAbs < digitBound := by
  have range := Logarithm.unitLimit_le_digitBound
  cases d with
  | nan => cases whole
  | infinity negative => cases whole
  | finite negative units =>
    rw [Double.toInt?] at whole
    split at whole
    · cases whole
      rw [Double.natAbs_signed]
      exact (Nat.div_le_self _ _).trans_lt ((lt_of_double? read).trans_le range)
    · cases whole

/-- The text of an integer of few digits writes it, and that of any other integer writes no number. -/
theorem ofText?_integerText {k : Int}
    (close : ¬ k.natAbs < digitBound → 2 ^ 50 ≤ k.natAbs.log2 → Logarithm.Close k.natAbs) {m : Number}
    (read : ofText? (integerText k) = some m) : m = int k := by
  cases few : integerText? k with
  | some s =>
    have text : integerText k = s := by
      unfold integerText
      rw [few]
    rw [text, ofText?_of_integer (plain_integerText few) (integer?_integerText few)] at read
    exact (Option.some.inj read).symm
  | none =>
    have many : ¬ k.natAbs < digitBound := fun small => by
      unfold integerText? at few
      rw [if_pos small] at few
      cases few
    obtain ⟨first, rest, exponent, text, digit, leading, all, some, great⟩ :=
      exists_scientific many (Logarithm.pow_leading_le (Nat.not_lt.mp many) (close many))
    have sign : (if k < 0 then ['-'] else []) = if decide (k < 0) = true then ['-'] else [] := by simp
    rw [sign] at text
    have marked : Marked (integerText k).toList := by
      rw [text]
      exact (marked_scientific digit all exponent).append (plain_of_all (by split <;> decide))
    have infinite := double?_scientific (decide (k < 0)) digit leading all some
      (lt_of_lt_of_le (by decide : 310 < digitLimit) great)
    rw [← text] at infinite
    cases (ofText?_of_infinity marked infinite).symm.trans read

/-- What the text of a number writes is equal to it, if it writes a number. -/
theorem eq_of_ofText?_text {n m : Number} (reads : ∀ d, n = float d → Numeral.double? d.text.toList = some d)
    (close : ∀ k, n = int k → 2 ^ 50 ≤ k.natAbs.log2 → Logarithm.Close k.natAbs)
    (read : ofText? n.text = some m) : n.eq m = true := by
  cases n with
  | int k =>
    rw [ofText?_integerText (fun _ => close k rfl) read]
    exact eq_self (by rintro ⟨⟩)
  | float d =>
    have reads := reads d rfl
    cases whole : d.toInt? with
    | some k =>
      have normal : (float d).normalize = int k := by
        simp only [normalize, whole]
      have text : (float d).text = integerText k := by
        unfold text
        rw [normal]
      rw [text] at read
      rw [ofText?_integerText (fun many => absurd (few_of_toInt? reads whole) many) read, ← normal]
      exact eq_normalize (by rintro ⟨⟩; cases whole)
    | none =>
      have text : (float d).text = d.text := by
        simp only [text, normalize, whole]
      rw [text] at read
      cases d with
      | nan =>
        have none : ofText? (Double.text .nan) = none := rfl
        cases none.symm.trans read
      | infinity negative =>
        have none : ofText? (Double.text (.infinity negative)) = none := by cases negative <;> rfl
        cases none.symm.trans read
      | finite negative units =>
        cases (ofText?_of_finite (Double.marked_text negative units) reads).symm.trans read
        exact eq_self (by rintro ⟨⟩)

end Number

end Questionnaire
