import Mathlib.Data.String.Basic
import Questionnaire.Proofs.Value.Equality

/-!
# Equality and order of numbers and texts

Equality and the four relations are functions of their own, and each of them decides for itself whether two values are
compared as numbers or as texts.  They decide alike, so what they say fits together: of two numbers or texts that are
numbers, one is less than the other or they are equal, and never two of these at once.
-/
namespace Questionnaire

/-- The number that a text writes is one. -/
theorem Number.ne_nan_of_ofText? {s : String} {n : Number} (h : ofText? s = some n) : n ≠ .float .nan := by
  unfold ofText? at h
  dsimp only at h
  split at h
  · cases h
    rintro ⟨⟩
  · split at h
    · cases h
      rintro ⟨⟩
    · cases h

namespace Value

variable {l r : Value}

/-- Numbers and texts. -/
def isScalar : Value → Bool
  | number _ | text _ => true
  | _ => false

theorem isWords_of_isScalar (scalar : l.isScalar = true) : l.isWords = true ∧ l.isDefined = true := by
  cases l <;> simp_all [isScalar, isWords, isDefined]

theorem toText_of_isScalar (scalar : l.isScalar = true) : ∃ s, l.toText = .ok s := by
  cases l with
  | number n => exact ⟨n.text, rfl⟩
  | text s => exact ⟨s, rfl⟩
  | _ => cases scalar

/-- What two values are compared as is a number on each side, if the values themselves are. -/
theorem ne_nan_of_numericPair? {a b : Number} (pair : numericPair? l r = some (a, b)) (left : l ≠ .float .nan) :
    a ≠ .float .nan := by
  unfold numericPair? at pair
  split at pair
  · cases pair
    exact fun nan => left (congrArg number nan)
  · obtain ⟨_, -, same⟩ := Option.map_eq_some_iff.mp pair
    cases same
    exact fun nan => left (congrArg number nan)
  · obtain ⟨_, read, same⟩ := Option.map_eq_some_iff.mp pair
    cases same
    exact Number.ne_nan_of_ofText? read
  · cases pair

end Value

namespace Relation

open Value

variable {l r : Value}

theorem holds_of_pair (relation : Relation) {a b : Number} (left : l.isScalar = true) (right : r.isScalar = true)
    (pair : numericPair? l r = some (a, b)) : relation.holds l r = .ok (relation.onNumbers a b) := by
  rw [holds, (isWords_of_isScalar left).2, (isWords_of_isScalar right).2, pair]
  rfl

theorem holds_of_texts (relation : Relation) {s t : String} (left : l.isScalar = true) (right : r.isScalar = true)
    (none : numericPair? l r = none) (first : l.toText = .ok s) (second : r.toText = .ok t) :
    relation.holds l r = .ok (relation.onTexts s t) := by
  rw [holds, (isWords_of_isScalar left).2, (isWords_of_isScalar right).2, none]
  dsimp only
  rw [first, second]
  rfl

/-- What the language says of two values: whether the first is less than, equal to or greater than the second, and the
other two relations accordingly. -/
structure Verdict (l r : Value) (below same above : Bool) : Prop where
  less : Relation.less.holds l r = .ok below
  equal : l.equal r = .ok same
  greater : Relation.greater.holds l r = .ok above
  lessEqual : Relation.lessEqual.holds l r = .ok (below || same)
  greaterEqual : Relation.greaterEqual.holds l r = .ok (above || same)

theorem verdict_of_pair {a b : Number} (left : l.isScalar = true) (right : r.isScalar = true)
    (pair : numericPair? l r = some (a, b)) : Verdict l r (a.lt b) (a.eq b) (b.lt a) where
  less := holds_of_pair .less left right pair
  equal := equal_of_pair pair
  greater := holds_of_pair .greater left right pair
  lessEqual := by rw [holds_of_pair .lessEqual left right pair, onNumbers, Number.le_eq_lt_or_eq]
  greaterEqual := by rw [holds_of_pair .greaterEqual left right pair, onNumbers, Number.le_eq_lt_or_eq, Number.eq_comm]

theorem not_lt_text (s t : String) : (!decide (t < s)) = (decide (s < t) || s == t) := by
  rw [Bool.eq_iff_iff, Bool.not_eq_true', decide_eq_false_iff_not, Bool.or_eq_true, decide_eq_true_iff, beq_iff_eq]
  exact not_lt.trans le_iff_lt_or_eq

theorem verdict_of_texts {s t : String} (left : l.isScalar = true) (right : r.isScalar = true)
    (none : numericPair? l r = none) (first : l.toText = .ok s) (second : r.toText = .ok t) :
    Verdict l r (s < t) (s == t) (t < s) where
  less := holds_of_texts .less left right none first second
  equal := by
    have unlike : ∀ xs ys, l = sequence xs → r ≠ sequence ys := by
      rintro xs ys rfl
      cases left
    rw [equal_of_texts (isWords_of_isScalar left).1 (isWords_of_isScalar right).1 unlike none, sameText, first, second]
    rfl
  greater := holds_of_texts .greater left right none first second
  lessEqual := by
    rw [holds_of_texts .lessEqual left right none first second, onTexts, not_lt_text]
  greaterEqual := by
    rw [holds_of_texts .greaterEqual left right none first second, onTexts, not_lt_text, BEq.comm]

/-- Equality and the relations fit together on numbers and texts: they say the same of two values in both orders, and
of values that are numbers, if they are none, exactly one of less, equal and greater. -/
theorem relations_fit (left : l.isScalar = true) (right : r.isScalar = true) :
    ∃ below same above : Bool, Verdict l r below same above ∧ Verdict r l above same below ∧
      (l ≠ .float .nan → r ≠ .float .nan → [below, same, above].count true = 1) := by
  have swapped := numericPair?_swap l r
  cases pair : numericPair? l r with
  | some p =>
    obtain ⟨a, b⟩ := p
    rw [pair] at swapped
    refine ⟨a.lt b, a.eq b, b.lt a, verdict_of_pair left right pair, ?_, fun number number' => ?_⟩
    · rw [Number.eq_comm]
      exact verdict_of_pair right left swapped
    · exact Number.count_order (ne_nan_of_numericPair? pair number) (ne_nan_of_numericPair? swapped number')
  | none =>
    rw [pair] at swapped
    obtain ⟨s, first⟩ := toText_of_isScalar left
    obtain ⟨t, second⟩ := toText_of_isScalar right
    refine ⟨s < t, s == t, t < s, verdict_of_texts left right pair first second, ?_, fun _ _ => ?_⟩
    · rw [BEq.comm]
      exact verdict_of_texts right left swapped second first
    · rcases lt_trichotomy s t with before | rfl | behind
      · simp [before, before.not_gt, before.ne]
      · simp
      · simp [behind, behind.not_gt, behind.ne']

/-- An integer that no double holds, and a text that writes the double next below it. -/
theorem great_above_text :
    Relation.greater.holds (.int 9007199254740993) (.text "9007199254740992.0") = .ok true ∧
      (Value.int 9007199254740993).equal (.text "9007199254740992.0") = .ok false ∧
      Relation.lessEqual.holds (.text "9007199254740992.0") (.int 9007199254740993) = .ok true := by
  have pair : numericPair? (.int 9007199254740993) (.text "9007199254740992.0") =
      some (.int 9007199254740993, .float (.finite false (9007199254740992 * Double.unitsPerOne))) := by decide +kernel
  have greater : Relation.greater.holds (.int 9007199254740993) (.text "9007199254740992.0") = .ok true :=
    (holds_of_pair .greater rfl rfl pair).trans (by decide +kernel)
  obtain ⟨below, same, above, verdict, verdict', one⟩ :=
    relations_fit (l := .int 9007199254740993) (r := .text "9007199254740992.0") rfl rfl
  have one := one (by rintro ⟨⟩) (by rintro ⟨⟩)
  cases verdict.greater.symm.trans greater
  cases same with
  | true => cases below <;> cases one
  | false => exact ⟨greater, verdict.equal, verdict'.lessEqual⟩

end Relation

end Questionnaire
