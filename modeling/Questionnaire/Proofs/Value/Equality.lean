import Questionnaire.Proofs.Legible
import Questionnaire.Proofs.Value.Proper

/-!
# Equality as a relation

Equality holds of two values in either order or in neither, and of each value and itself, unless what is no number is
in it.  Two sequences are gone through from both sides, so what their order changes is only which items are compared
first.  That can be told from outside in one way: items are compared as texts where they are of different kinds, and a
sequence that holds an object which cannot be written out has none.  One order may then find two items that differ
before it comes to that sequence, and the other order may not.
-/
namespace Questionnaire.Value

open Outcome (bind_eq_ok)

/-! ## The kinds of comparison -/

/-- Values that are compared as numbers or as texts. -/
def isWords : Value → Bool
  | number _ | text _ | sequence _ => true
  | _ => false

/-- The comparison of two values as texts. -/
def sameText (v w : Value) : Except Fault Bool := do
  let first ← v.toText
  return first == (← w.toText)

variable {v w : Value}

theorem numericPair?_swap (v w : Value) : numericPair? w v = (numericPair? v w).map Prod.swap := by
  cases v <;> cases w <;> simp [numericPair?, Function.comp_def]

theorem equal_words (words : v.isWords = true) (words' : w.isWords = true)
    (unlike : ∀ xs ys, v = sequence xs → w ≠ sequence ys) :
    v.equal w = match numericPair? v w with
      | some (a, b) => .ok (a.eq b)
      | none => sameText v w := by
  rw [equal.eq_def]
  split
  · cases words
  · cases words'
  · exact absurd rfl (unlike _ _ rfl)
  · cases words
  · cases words'
  · cases words
  · cases words'
  · rfl

theorem equal_of_pair {a b : Number} (pair : numericPair? v w = some (a, b)) : v.equal w = .ok (a.eq b) := by
  have words : v.isWords = true ∧ w.isWords = true ∧ ∀ xs ys, v = sequence xs → w ≠ sequence ys := by
    cases v <;> cases w <;> simp_all [numericPair?, isWords]
  rw [equal_words words.1 words.2.1 words.2.2, pair]

theorem equal_of_texts (words : v.isWords = true) (words' : w.isWords = true)
    (unlike : ∀ xs ys, v = sequence xs → w ≠ sequence ys) (none : numericPair? v w = none) :
    v.equal w = sameText v w := by
  rw [equal_words words words' unlike, none]

theorem sameText_of_eq {s : String} (first : v.toText = .ok s) (second : w.toText = .ok s) :
    sameText v w = .ok true := by
  unfold sameText
  rw [first, second]
  exact congrArg Except.ok BEq.rfl

theorem equal_sequences {xs ys : List Value} : (sequence xs).equal (sequence ys) = .ok true ↔
    eachFound xs ys = .ok true ∧ eachFound ys xs = .ok true := by
  rw [equal]
  constructor
  · intro h
    obtain ⟨all, forward, h⟩ := bind_eq_ok.mp h
    split at h
    · rename_i all
      exact ⟨all ▸ forward, h⟩
    · cases h
  · rintro ⟨forward, backward⟩
    rw [forward]
    exact backward

theorem found_of_equal {x y : Value} {rest : List Value} (same : x.equal y = .ok true) :
    found x (y :: rest) = .ok true := by
  rw [found, same]
  rfl

theorem found_of_unequal {x y : Value} {rest : List Value} (differs : x.equal y = .ok false) :
    found x (y :: rest) = found x rest := by
  rw [found, differs]
  rfl

theorem eachFound_of_found {x : Value} {rest ys : List Value} (first : found x ys = .ok true) :
    eachFound (x :: rest) ys = eachFound rest ys := by
  rw [eachFound, first]
  rfl

theorem eachFound_of_fails {x y : Value} {rest others : List Value} {f : Fault} (failed : x.equal y = .error f) :
    eachFound (x :: rest) (y :: others) = .error f := by
  rw [eachFound, found, failed]
  rfl

/-! ## Which value comes first -/

theorem sameText_comm {b : Bool} (h : sameText v w = .ok b) : sameText w v = .ok b := by
  unfold sameText at h ⊢
  obtain ⟨s, first, h⟩ := bind_eq_ok.mp h
  obtain ⟨t, second, h⟩ := bind_eq_ok.mp h
  rw [first, second]
  cases h
  exact congrArg Except.ok BEq.comm

theorem equal_comm_of_words (words : v.isWords = true) (words' : w.isWords = true)
    (unlike : ∀ xs ys, v = sequence xs → w ≠ sequence ys) {b : Bool} (h : v.equal w = .ok b) : w.equal v = .ok b := by
  have unlike' : ∀ ys xs, w = sequence ys → v ≠ sequence xs := fun ys xs here there => unlike xs ys there here
  have swapped := numericPair?_swap v w
  rw [equal_words words words' unlike] at h
  rw [equal_words words' words unlike', swapped]
  cases pair : numericPair? v w with
  | none =>
    rw [pair] at h
    exact sameText_comm h
  | some p =>
    rw [pair] at h
    exact (congrArg Except.ok (Number.eq_comm p.2 p.1)).trans h

/-- Values that are not two sequences compare alike in both orders. -/
theorem equal_comm_of_unlike (proper : v.Proper) (proper' : w.Proper)
    (unlike : ∀ xs ys, v = sequence xs → w ≠ sequence ys) {b : Bool} (h : v.equal w = .ok b) : w.equal v = .ok b := by
  by_cases words : v.isWords = true ∧ w.isWords = true
  · exact equal_comm_of_words words.1 words.2 unlike h
  · have alike := alike_comm proper proper'
    cases v <;> cases w <;> simp_all [equal, isDefined, isWords, booleanEquals, BEq.comm]

/-- Two values that are equal are equal in the other order too. -/
theorem equal_true_comm (proper : v.Proper) (proper' : w.Proper) (h : v.equal w = .ok true) : w.equal v = .ok true := by
  by_cases sequences : ∃ xs ys, v = sequence xs ∧ w = sequence ys
  · obtain ⟨xs, ys, rfl, rfl⟩ := sequences
    exact equal_sequences.mpr (equal_sequences.mp h).symm
  · exact equal_comm_of_unlike proper proper' (fun xs ys here there => sequences ⟨xs, ys, here, there⟩) h

/-! ## A value and itself -/

/-- Nowhere in a value is what is no number. -/
inductive NanFree : Value → Prop
  | undefined : NanFree .undefined
  | boolean (b : Bool) : NanFree (.boolean b)
  | number {n : Number} : n ≠ .float .nan → NanFree (.number n)
  | text (s : String) : NanFree (.text s)
  | sequence {items : List Value} : (∀ v ∈ items, NanFree v) → NanFree (.sequence items)
  | structured {fields : List (Key × Value)} : (∀ c ∈ fields, NanFree c.2) → NanFree (.structured fields)

/-- The search for an equal does not go past the value itself. -/
theorem found_self {ys : List Value} (mem : v ∈ ys) (self : v.equal v ≠ .ok false) : found v ys ≠ .ok false := by
  induction ys with
  | nil => cases mem
  | cons y rest ih =>
    intro h
    rw [found] at h
    obtain ⟨same, here, h⟩ := bind_eq_ok.mp h
    cases same with
    | true => cases h
    | false =>
      rcases List.mem_cons.mp mem with rfl | later
      · exact self here
      · exact ih later h

theorem eachFound_self {xs ys : List Value} (sub : xs ⊆ ys) (each : ∀ x ∈ xs, x.equal x ≠ .ok false) :
    eachFound xs ys ≠ .ok false := by
  induction xs with
  | nil =>
    rw [eachFound]
    rintro ⟨⟩
  | cons x rest ih =>
    intro h
    obtain ⟨mem, sub⟩ := List.cons_subset.mp sub
    obtain ⟨self, each⟩ := List.forall_mem_cons.mp each
    rw [eachFound] at h
    obtain ⟨same, here, h⟩ := bind_eq_ok.mp h
    cases same with
    | true => exact ih sub each h
    | false => exact found_self mem self here

/-- A value is never told apart from itself. -/
theorem equal_self (free : v.NanFree) (proper : v.Proper) : v.equal v ≠ .ok false := by
  induction free with
  | undefined => simp [equal, isDefined]
  | boolean b => simp [equal, booleanEquals]
  | @number n number =>
    rw [equal_of_pair rfl, Number.eq_self number]
    simp
  | text s =>
    rw [equal_of_texts rfl rfl (by rintro _ _ ⟨⟩) rfl, sameText_of_eq rfl rfl]
    simp
  | @sequence items _ ih =>
    cases proper with
    | sequence each =>
      have all : eachFound items items ≠ .ok false :=
        eachFound_self (List.Subset.refl _) fun x mem => ih x mem (each x mem)
      intro h
      rw [equal] at h
      obtain ⟨same, here, h⟩ := bind_eq_ok.mp h
      cases same with
      | true => exact all h
      | false => exact all here
  | structured =>
    rw [equal]
    · rw [alike_self proper]
      simp
    · rintro ⟨⟩

/-! ## Both together -/

theorem exists_equal (written : ¬ v.Unwritten) (written' : ¬ w.Unwritten) : ∃ b, v.equal w = .ok b := by
  cases h : v.equal w with
  | ok b => exact ⟨b, rfl⟩
  | error f => exact absurd (unwritten_of_equal h) (not_or.mpr ⟨written, written'⟩)

/-- Equality of values is symmetric: values that are equal are so in both orders, and if neither is a sequence without
a text, both orders have the same answer.  It is reflexive where there is no NaN. -/
theorem equal_symmetric_reflexive (proper : v.Proper) (proper' : w.Proper) :
    (v.equal w = .ok true ↔ w.equal v = .ok true) ∧
      (∀ a b, v.equal w = .ok a → w.equal v = .ok b → a = b) ∧
      (¬ v.Unwritten → ¬ w.Unwritten → ∃ b, v.equal w = .ok b ∧ w.equal v = .ok b) ∧
      (v.NanFree → v.equal v ≠ .ok false ∧ (¬ v.Unwritten → v.equal v = .ok true)) := by
  have comm : v.equal w = .ok true ↔ w.equal v = .ok true :=
    ⟨equal_true_comm proper proper', equal_true_comm proper' proper⟩
  have agree : ∀ a b, v.equal w = .ok a → w.equal v = .ok b → a = b := by
    intro a b forward backward
    rw [forward, backward, Except.ok.injEq, Except.ok.injEq] at comm
    exact Bool.eq_iff_iff.mpr comm
  refine ⟨comm, agree, fun written written' => ?_, fun free => ⟨equal_self free proper, fun written => ?_⟩⟩
  · obtain ⟨a, forward⟩ := exists_equal written written'
    obtain ⟨b, backward⟩ := exists_equal written' written
    obtain rfl := agree a b forward backward
    exact ⟨a, forward, backward⟩
  · obtain ⟨b, here⟩ := exists_equal written written
    cases b with
    | true => exact here
    | false => exact absurd here (equal_self free proper)

/-- A value as the one field of an object. -/
def field (v : Value) : Value := .structured [(.text "k", v)]

theorem proper_field (proper : v.Proper) : v.field.Proper :=
  .structured (List.pairwise_singleton _ _) (List.forall_mem_singleton.mpr proper)

theorem nanFree_field (free : v.NanFree) : v.field.NanFree := .structured (List.forall_mem_singleton.mpr free)

theorem proper_pair (first : v.Proper) (second : w.Proper) : (sequence [v, w]).Proper :=
  .sequence (List.forall_mem_cons.mpr ⟨first, List.forall_mem_singleton.mpr second⟩)

theorem nanFree_pair (first : v.NanFree) (second : w.NanFree) : (sequence [v, w]).NanFree :=
  .sequence (List.forall_mem_cons.mpr ⟨first, List.forall_mem_singleton.mpr second⟩)

theorem int_nanFree (n : Int) : (Value.int n).NanFree := .number (by rintro ⟨⟩)

/-- One mark as a number and one as a field, and the same marks the other way round as a boolean and a text. -/
def marks : Value := .sequence [.int 1, field (.int 1)]

def remarks : Value := .sequence [field (.boolean true), .text "1"]

theorem marks_equal :
    marks.equal remarks = .ok true ∧ remarks.equal marks = .ok true ∧ marks.equal marks = .ok true := by
  have number : (Value.int 1).Proper := .number _
  have object : (field (.int 1)).Proper := proper_field number
  have object' : (field (.boolean true)).Proper := proper_field (.boolean true)
  have written : ¬ marks.Unwritten := fun unwritten => by
    have legible : marks.legible = true := by decide +kernel
    cases unwritten.textless.2.symm.trans legible
  have words : (Value.int 1).equal (.text "1") = .ok true := (equal_of_pair rfl).trans (by decide +kernel)
  have words' : (Value.text "1").equal (.int 1) = .ok true := equal_true_comm number (.text "1") words
  have fields : (field (.int 1)).equal (field (.boolean true)) = .ok true := by
    simp [field, equal, int, alike, alikeFields, Table.find?_cons, numeric?, Number.alike_self]
  have fields' : (field (.boolean true)).equal (field (.int 1)) = .ok true := equal_true_comm object object' fields
  have apart : (Value.int 1).equal (field (.boolean true)) = .ok false := by simp [field, equal, int, alike, numeric?]
  have apart' : (field (.boolean true)).equal (.int 1) = .ok false :=
    equal_comm_of_unlike number object' (by rintro _ _ ⟨⟩) apart
  have equal : marks.equal remarks = .ok true := by
    refine equal_sequences.mpr ⟨?_, ?_⟩
    · rw [eachFound_of_found ((found_of_unequal apart).trans (found_of_equal words)),
        eachFound_of_found (found_of_equal fields), eachFound]
    · rw [eachFound_of_found ((found_of_unequal apart').trans (found_of_equal fields')),
        eachFound_of_found (found_of_equal words'), eachFound]
  obtain ⟨comm, -, -, self⟩ := equal_symmetric_reflexive (proper_pair number object) (proper_pair object' (.text "1"))
  exact ⟨equal, comm.mp equal, (self (nanFree_pair (int_nanFree 1) (nanFree_field (int_nanFree 1)))).2 written⟩

/-- A sequence with an object that holds an integer. -/
def ledger (n : Int) : Value := .sequence [field (.int n)]

theorem exactText_of_many {n : Int} (many : ¬ n.natAbs < digitBound) : exactText n = .error .badValue := by
  unfold exactText integerText?
  rw [if_neg many]

theorem toText_ledger {n : Int} (many : ¬ n.natAbs < digitBound) : (ledger n).toText = .error .badValue := by
  have number : Json.print (.int n) = .error .badValue := by
    rw [int, Json.print, Json.keyText]
    exact exactText_of_many many
  have object : Json.print (field (.int n)) = .error .badValue := by
    rw [field, Json.print, Json.printFields, Json.printFields, number]
    rfl
  rw [ledger, toText, toTexts, field, toText, ← field, object]
  rfl

theorem equal_ledger {n : Int} (many : ¬ n.natAbs < digitBound) :
    (ledger n).equal (.int 1) = .error .badValue ∧ (Value.int 1).equal (ledger n) = .error .badValue := by
  constructor
  · rw [ledger, equal_of_texts rfl rfl (by rintro _ _ - ⟨⟩) rfl, ← ledger, sameText, toText_ledger many]
    rfl
  · rw [ledger, equal_of_texts rfl rfl (by rintro _ _ ⟨⟩) rfl, ← ledger, sameText, toText_ledger many]
    rfl

/-- A sequence with such a sequence in it is not equal to itself: that one is compared with the first item as a text.
Nor is equality symmetric there: the one order finds first that 2 is missing, the other never gets so far. -/
theorem ledger_not_equal :
    ¬ (∀ v : Value, v.Proper → v.NanFree → v.equal v = .ok true) ∧
      (sequence [.int 2, ledger digitBound]).equal (sequence [.int 1]) = .ok false ∧
      (sequence [.int 1]).equal (sequence [.int 2, ledger digitBound]) = .error .badValue := by
  have many : ¬ (digitBound : Int).natAbs < digitBound := by
    rw [Int.natAbs_natCast]
    exact Nat.lt_irrefl _
  obtain ⟨failed, failed'⟩ := equal_ledger many
  have compared (m n : Int) : (Value.int m).equal (.int n) = .ok (m == n) :=
    (equal_of_pair rfl).trans (congrArg Except.ok (Number.eq_int m n))
  have one : (Value.int 1).equal (.int 1) = .ok true := compared 1 1
  have two : (Value.int 2).equal (.int 1) = .ok false := compared 2 1
  have two' : (Value.int 1).equal (.int 2) = .ok false := compared 1 2
  refine ⟨fun reflexive => ?_, ?_, ?_⟩
  · have proper (n : Int) : (ledger n).Proper := .sequence (List.forall_mem_singleton.mpr (proper_field (.number _)))
    have free (n : Int) : (ledger n).NanFree :=
      .sequence (List.forall_mem_singleton.mpr (nanFree_field (int_nanFree n)))
    have self := reflexive _ (proper_pair (.number (.int 1)) (proper digitBound))
      (nanFree_pair (int_nanFree 1) (free digitBound))
    rw [← int, equal, eachFound_of_found (found_of_equal one), eachFound_of_fails failed] at self
    cases self
  · rw [equal, eachFound, found_of_unequal two, found]
    rfl
  · rw [equal, eachFound, found_of_unequal two', found, failed']
    rfl

end Questionnaire.Value
