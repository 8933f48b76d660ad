import Questionnaire.Proofs.Number.Written
import Questionnaire.Proofs.Value.Equality

/-!
# Values and their texts

A value that has a text is equal to it.  A number is compared with a text as a number where the text writes one, so
what its own text writes has to be equal to it; everywhere else the two are compared as texts, which are the same.
-/
namespace Questionnaire.Value

variable {v : Value} {s : String}

/-- A value that is not a structured one is equal to its text, in both orders.  Of a double it is assumed that its text
is read as the same double, and of an integer of 2^50 binary digits and more, that its logarithm is less than one
off. -/
theorem equal_toText (kind : v.kind ∈ [.boolean, .number, .text, .sequence]) (written : v.toText = .ok s)
    (reads : ∀ d, v = .float d → Numeral.double? d.text.toList = some d)
    (close : ∀ n, v = .int n → 2 ^ 50 ≤ n.natAbs.log2 → Logarithm.Close n.natAbs) :
    v.equal (.text s) = .ok true ∧ (Value.text s).equal v = .ok true := by
  have both (words : v.isWords = true) (forward : v.equal (.text s) = .ok true) :
      v.equal (.text s) = .ok true ∧ (Value.text s).equal v = .ok true :=
    ⟨forward, equal_comm_of_words words rfl (by rintro _ _ - ⟨⟩) forward⟩
  have texts (words : v.isWords = true) (none : numericPair? v (.text s) = none) : v.equal (.text s) = .ok true := by
    rw [equal_of_texts words rfl (by rintro _ _ - ⟨⟩) none]
    exact sameText_of_eq written rfl
  cases v with
  | undefined => exact absurd kind (by decide)
  | structured fields => exact absurd kind (by simp [Value.kind])
  | boolean b =>
    rw [toText] at written
    cases written
    have name : booleanEquals b (.text (if b then "true" else "false")) = true := by cases b <;> rfl
    exact ⟨by simp only [equal, name], by simp only [equal, name]⟩
  | text t => exact both rfl (texts rfl rfl)
  | sequence items => exact both rfl (texts rfl rfl)
  | number n =>
    refine both rfl ?_
    cases read : Number.ofText? s with
    | none => exact texts rfl (by rw [numericPair?, read, Option.map_none])
    | some m =>
      rw [toText] at written
      cases written
      have same : n.eq m = true := Number.eq_of_ofText?_text (fun d same => reads d (congrArg number same))
        (fun k same => close k (congrArg number same)) read
      rw [equal_of_pair (by rw [numericPair?, read, Option.map_some]), same]

theorem integerText_great : integerText (Nat.pow 10 5000 : Nat) = "1.0e+5000" := by
  have many : ¬ ((Nat.pow 10 5000 : Nat) : Int).natAbs < digitBound := by decide +kernel
  have cut : Logarithm.leading ((Nat.pow 10 5000 : Nat) : Int).natAbs - 16 = 4984 := by decide +kernel
  have digits : (decimalDigits (((Nat.pow 10 5000 : Nat) : Int).natAbs / 10 ^ 4984)).toList =
      '1' :: List.replicate 16 '0' := by
    rw [Numeral.toList_decimalDigits]
    decide +kernel
  rw [← String.toList_inj, toList_integerText many cut digits]
  decide +kernel

/-- An integer of five thousand digits, whose text writes no number, and the least double with a fraction. -/
theorem great_equal_toText :
    (Value.int (Nat.pow 10 5000 : Nat)).equal (.text "1.0e+5000") = .ok true ∧
      (Value.float (.finite false 1)).equal (.text "5e-324") = .ok true := by
  have great : (Value.int (Nat.pow 10 5000 : Nat)).toText = .ok "1.0e+5000" := congrArg Except.ok integerText_great
  have least : (Value.float (.finite false 1)).toText = .ok "5e-324" := by
    have text : Number.text (.float (.finite false 1)) = "5e-324" := by decide +kernel
    rw [float, toText, text]
  have read : Numeral.double? (Double.finite false 1).text.toList = some (.finite false 1) := by decide +kernel
  have bits : ¬ 2 ^ 50 ≤ ((Nat.pow 10 5000 : Nat) : Int).natAbs.log2 := by decide +kernel
  refine ⟨(equal_toText (by decide) great (by rintro _ ⟨⟩) ?_).1, (equal_toText (by decide) least ?_ (by rintro _ ⟨⟩)).1⟩
  · rintro n same many
    cases same
    exact absurd many bits
  · rintro d same
    cases same
    exact read

end Questionnaire.Value
