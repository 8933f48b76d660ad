import Questionnaire.Expr.Evaluation
import Questionnaire.Proofs.Legible
import Questionnaire.Proofs.Number.Rounding

/-!
# Where operations end by a fault

The operators and functions give a value or a failure that is reported, unless they balk at their operands.  They do so
in three ways: at the remainder of an infinite number, at rounding to a number of places that is no number, and at
operands that have to be written out and cannot be.  Numbers that grow beyond the range of doubles are no such case; a
failure that is reported stands for them.
-/
namespace Questionnaire

open Outcome (bind_eq_error map_eq_error liftFault_eq_fault liftFault_map_eq_fault)

/-! ### Arithmetic on numbers -/

namespace Double

/-- The double of an integer is the nearest one, and finite. -/
theorem ofRatio_of_ofInt? {n : Int} {d : Double} (h : ofInt? n = some d) :
    ofRatio (n < 0) n.natAbs 1 = d ∧ ∃ negative units, d = finite negative units := by
  unfold ofInt? at h
  split at h
  · rename_i negative units found
    have same := Option.some.inj h
    exact ⟨found.trans same, negative, units, same.symm⟩
  · cases h

/-- No integer but zero is rounded to zero. -/
theorem eq_zero_of_ofInt? {n : Int} {negative : Bool} (h : ofInt? n = some (finite negative 0)) : n = 0 := by
  by_contra nonzero
  have units : unitsPerOne * n.natAbs ≠ 0 :=
    Nat.mul_ne_zero (Nat.ne_of_gt unitsPerOne_pos) (Int.natAbs_ne_zero.mpr nonzero)
  have none := units_of_ofUnits (ofRatio_of_ofInt? h).1
  exact Nat.ne_of_gt (nearestUnits_pos units) none

end Double

namespace Number

theorem toDouble_error {a : Number} {f : Fault} (h : a.toDouble = .error f) : f = .overflow := by
  unfold toDouble at h
  split at h
  · split at h
    · cases h
    · cases h
      rfl
  · cases h

/-- A calculation with doubles of two numbers fails only if one of them is too large for a double. -/
theorem onDoubles_error {a b : Number} {rounded : Double → Double → Number} {f : Fault}
    (h : (do return rounded (← a.toDouble) (← b.toDouble) : Except Fault Number) = .error f) : f = .overflow := by
  rcases bind_eq_error.mp h with first | ⟨_, -, h⟩
  · exact toDouble_error first
  · rcases bind_eq_error.mp h with second | ⟨_, -, done⟩
    · exact toDouble_error second
    · cases done

theorem combine_error {exact : Int → Int → Int} {rounded : Double → Double → Double} {a b : Number} {f : Fault}
    (h : combine exact rounded a b = .error f) : f = .overflow := by
  unfold combine at h
  split at h
  · cases h
  · exact onDoubles_error h

theorem div_error {a b : Number} {f : Fault} (h : a.div b = .error f) : f = .overflow := by
  unfold div at h
  split at h
  · split at h
    · cases h
      rfl
    · cases h
  · exact onDoubles_error h

theorem eq_of_toDouble_infinity {a : Number} {negative : Bool} (h : a.toDouble = .ok (.infinity negative)) :
    a = float (.infinity negative) := by
  unfold toDouble at h
  split at h
  · split at h
    · rename_i found
      cases h
      obtain ⟨-, _, _, same⟩ := Double.ofRatio_of_ofInt? found
      cases same
    · cases h
  · cases h
    rfl

theorem isZero_of_toDouble {b : Number} {negative : Bool} (h : b.toDouble = .ok (.finite negative 0)) :
    b.isZero = true := by
  unfold toDouble at h
  split at h
  · split at h
    · rename_i found
      cases h
      rw [Double.eq_zero_of_ofInt? found, isZero, eq, place?, Int.zero_mul]
      rfl
    · cases h
  · cases h
    rw [isZero, eq, place?, place?, Int.zero_mul]
    cases negative <;> rfl

/-- Only infinite numbers have no remainder. -/
theorem mod_error {a b : Number} {f : Fault} (nonzero : b.isZero = false) (h : a.mod b = .error f) :
    f = .overflow ∨ ∃ negative, a = float (.infinity negative) := by
  rcases bind_eq_error.mp h with first | ⟨x, hx, h⟩
  · exact Or.inl (toDouble_error first)
  · rcases bind_eq_error.mp h with second | ⟨y, hy, h⟩
    · exact Or.inl (toDouble_error second)
    · split at h
      · cases h
      · rename_i none
        unfold Double.remainder? at none
        split at none
        case h_3 => exact Or.inr ⟨_, eq_of_toDouble_infinity hx⟩
        case h_5 =>
          split at none
          · rename_i zero
            rw [isZero_of_toDouble (beq_iff_eq.mp zero ▸ hy)] at nonzero
            cases nonzero
          · cases none
        all_goals cases none

theorem truncate_error {a : Number} {f : Fault} (h : a.truncate = .error f) : f = .overflow ∨ a = float .nan := by
  unfold truncate at h
  split at h
  · cases h
  · rename_i d
    split at h
    · cases h
    · rename_i none
      cases d with
      | nan => exact Or.inr rfl
      | infinity negative =>
        cases h
        exact Or.inl rfl
      | finite negative units => cases none

end Number

theorem inRange_fault {α : Type} {cause : EvalError} {x : Except Stop α} {f : Fault}
    (h : inRange cause x = .error (.fault f)) : x = .error (.fault f) ∧ f ≠ .overflow := by
  unfold inRange at h
  split at h
  · cases h
  · rename_i other
    refine ⟨h, ?_⟩
    rintro rfl
    exact other h

/-! ### Operators -/

namespace BinaryOp

/-- The operands at which an operator between two values balks. -/
inductive Balks : BinaryOp → Value → Value → Prop
  | remainder {negative : Bool} {w : Value} : Balks (.arithmetic .modulo) (.float (.infinity negative)) w
  | left {op : BinaryOp} {v w : Value} : v.Textless → Balks op v w
  | right {op : BinaryOp} {v w : Value} : w.Textless → Balks op v w

theorem Balks.of_textless {op : BinaryOp} {v w : Value} (h : v.Textless ∨ w.Textless) : Balks op v w :=
  h.elim .left .right

end BinaryOp

theorem UnaryOp.apply_fault {op : UnaryOp} {v : Value} {f : Fault} (h : op.apply v = .error (.fault f)) :
    op = .negate ∧ v.Textless := by
  cases op with
  | negate =>
    rcases bind_eq_error.mp h with failed | ⟨_, -, done⟩
    · exact ⟨rfl, Value.toNumber_fault failed⟩
    · cases done
  | not | empty | notEmpty => cases h

/-- The doubles that texts write are finite. -/
theorem Value.eq_of_toNumber {v : Value} {d : Double} (infinite : ∀ negative units, d ≠ .finite negative units)
    (h : v.toNumber = .ok (.float d)) : v = .float d := by
  have refused {x : Except Stop String} {cause : String → EvalError}
      (h : (do throw (.error (cause (← x))) : Except Stop Number) = .ok (.float d)) : False := by
    cases x <;> cases h
  unfold toNumber at h
  extract_lets refusal at h
  split at h
  · cases h
  · cases h
    rfl
  · split at h
    · rename_i found
      cases h
      unfold Number.ofText? at found
      extract_lets cs at found
      split at found
      · cases found
      · split at found
        · cases found
          exact absurd rfl (infinite _ _)
        · cases found
    · exact (refused h).elim
  · exact (refused h).elim

namespace Arithmetic

theorem raise_fault {a b : Number} {f : Fault} (h : raise a b = .error (.fault f)) : f = .overflow := by
  unfold raise at h
  split at h
  all_goals cases h
  rfl

theorem onNumbers_fault {op : Arithmetic} {a b : Number} {f : Fault} (h : op.onNumbers a b = .error (.fault f)) :
    f = .overflow ∨ op = .modulo ∧ ∃ negative, a = .float (.infinity negative) := by
  cases op with
  | add | subtract | multiply => exact Or.inl (Number.combine_error (liftFault_eq_fault.mp h))
  | divide =>
    unfold onNumbers at h
    simp only at h
    split at h
    · cases h
    · exact Or.inl (Number.div_error (liftFault_eq_fault.mp h))
  | modulo =>
    unfold onNumbers at h
    simp only at h
    split at h
    · cases h
    · rename_i nonzero
      exact (Number.mod_error (Bool.eq_false_iff.mpr nonzero) (liftFault_eq_fault.mp h)).imp id fun infinite => ⟨rfl, infinite⟩
  | power => exact Or.inl (raise_fault h)

theorem apply_fault {op : Arithmetic} {left right : Value} {f : Fault}
    (h : op.apply left right = .error (.fault f)) : BinaryOp.Balks (.arithmetic op) left right := by
  unfold apply at h
  split at h
  · rcases bind_eq_error.mp h with first | ⟨_, -, h⟩
    · exact .left (Value.toText_error (liftFault_eq_fault.mp first))
    · rcases bind_eq_error.mp h with second | ⟨_, -, done⟩
      · exact .right (Value.toText_error (liftFault_eq_fault.mp second))
      · cases done
  · rcases bind_eq_error.mp h with first | ⟨a, number, h⟩
    · exact .left (Value.toNumber_fault first)
    · rcases bind_eq_error.mp h with second | ⟨b, -, h⟩
      · exact .right (Value.toNumber_fault second)
      · rcases bind_eq_error.mp h with failed | ⟨_, -, done⟩
        · obtain ⟨failed, other⟩ := inRange_fault failed
          rcases onNumbers_fault failed with overflow | ⟨rfl, negative, rfl⟩
          · exact absurd overflow other
          · rw [Value.eq_of_toNumber (fun _ _ same => by cases same) number]
            exact .remainder
        · cases done

end Arithmetic

/-! ### Functions -/

theorem Search.foundIn_error {needle : Value} {items : List Value} {f : Fault}
    (h : Search.contains.foundIn needle items = .error f) : (∃ v ∈ items, v.Textless) ∨ needle.Textless := by
  induction items with
  | nil => cases h
  | cons item rest ih =>
    rw [Search.contains.foundIn] at h
    rcases bind_eq_error.mp h with failed | ⟨_, -, h⟩
    · exact (Value.equal_error failed).imp_left fun textless => ⟨item, List.mem_cons_self, textless⟩
    · split at h
      · cases h
      · refine (ih h).imp_left ?_
        rintro ⟨v, mem, textless⟩
        exact ⟨v, List.mem_cons_of_mem item mem, textless⟩

theorem Search.contains_error {haystack needle : Value} {f : Fault} (h : Search.contains haystack needle = .error f) :
    haystack.Textless ∨ needle.Textless := by
  unfold Search.contains at h
  split at h
  · cases h
  · refine (Search.foundIn_error h).imp_left ?_
    rintro ⟨v, mem, textless⟩
    exact textless.of_mem mem
  · exact (Value.textless_of_texts h).symm

theorem Search.onTexts_error {test : List Char → List Char → Bool} {text other : Value} {f : Fault}
    (h : Search.onTexts test text other = .error f) : text.Textless ∨ other.Textless := by
  unfold Search.onTexts at h
  split at h
  · cases h
  · exact Value.textless_of_texts h

theorem Aggregate.total_error {arguments : List Value} {f : Fault} (h : Aggregate.total arguments = .error f) :
    f = .overflow := by
  have sum (ns : List Number) (first : Number) (h : ns.foldlM Number.add first = .error f) : f = .overflow := by
    induction ns generalizing first with
    | nil => cases h
    | cons n rest ih =>
      rw [List.foldlM_cons] at h
      rcases bind_eq_error.mp h with failed | ⟨next, -, h⟩
      · exact Number.combine_error failed
      · exact ih next h
  rcases bind_eq_error.mp h with failed | ⟨_, -, done⟩
  · exact sum _ _ failed
  · cases done

theorem Aggregate.mean_error {arguments : List Value} {f : Fault} (h : Aggregate.mean arguments = .error f) :
    f = .overflow := by
  unfold Aggregate.mean at h
  split at h
  · cases h
  · rcases bind_eq_error.mp h with failed | ⟨_, -, h⟩
    · exact Aggregate.total_error failed
    · rcases bind_eq_error.mp h with failed | ⟨_, -, done⟩
      · exact Number.div_error failed
      · cases done

/-- Rounding asks for a number of places, and meets one that is no number or one that has no text. -/
theorem Rounding.round_fault {v digits : Value} {f : Fault} (h : Rounding.round v digits = .error (.fault f)) :
    f = .overflow ∨ digits = .float .nan ∨ digits.Textless := by
  unfold Rounding.round at h
  split at h
  · cases h
  · rcases bind_eq_error.mp h with failed | ⟨n, number, h⟩
    · exact Or.inr (Or.inr (Value.toNumber_fault failed))
    · rcases bind_eq_error.mp h with failed | ⟨places, -, h⟩
      · rcases Number.truncate_error (liftFault_eq_fault.mp failed) with overflow | rfl
        · exact Or.inl overflow
        · exact Or.inr (Or.inl (Value.eq_of_toNumber (fun _ _ same => by cases same) number))
      · extract_lets rest at h
        split at h
        · cases h
        · simp only [rest] at h
          split at h
          · cases h
          · cases h
          · split at h
            · cases h
            · cases h

/-- Only a value that cannot be written out is no date and not even refused as one. -/
theorem ageOn_fault {today : Date} {v : Value} {f : Fault} (h : ageOn today v = .error (.fault f)) :
    v.legible = false := by
  have refused (h : (do throw (.error (.notADate (← liftFault v.shown))) : Except Stop (Option Date)) =
      .error (.fault f)) : v.legible = false := by
    rcases bind_eq_error.mp h with failed | ⟨_, -, refused⟩
    · exact Value.shown_error (liftFault_eq_fault.mp failed)
    · cases refused
  rcases bind_eq_error.mp h with failed | ⟨_, -, done⟩
  · unfold dateOf at failed
    extract_lets refusal at failed
    split at failed
    · cases failed
    · split at failed
      · cases failed
      · split at failed
        · cases failed
        · exact refused failed
    · exact refused failed
  · split at done
    · cases done
    · cases done

namespace Builtin

/-- The functions that look for one text in another, or for an item in a sequence. -/
def searches : Builtin → Bool
  | contains | notContains | startsWith | endsWith => true
  | _ => false

/-- The arguments at which a function balks. -/
inductive Balks : Builtin → List Value → Prop
  | born {v : Value} : v.legible = false → Balks .age [v]
  | places {v : Value} : Balks .round [v, .float .nan]
  | digits {v w : Value} : w.Textless → Balks .round [v, w]
  | search {f : Builtin} {v w : Value} : f.searches = true → v.Textless ∨ w.Textless → Balks f [v, w]

theorem checkArity_eq_ok {f : Function} {count : Nat} :
    f.checkArity count = .ok () ↔ f.least ≤ count ∧ ∀ most ∈ f.most, (count : Int) ≤ most := by
  unfold Function.checkArity
  cases f.most with
  | none => simp
  | some most => simp

theorem run_fault {f : Builtin} {date : Date} {vs : List Value} {fault : Fault} (strict : f.isLazy = false)
    (arity : f.function.checkArity vs.length = .ok ()) (h : f.run date vs = .error (.fault fault)) :
    fault = .overflow ∨ f.Balks vs := by
  have fits : f.signature.2.1 ≤ vs.length ∧ ∀ most ∈ f.signature.2.2, (vs.length : Int) ≤ most :=
    checkArity_eq_ok.mp arity
  have pair (least : 2 ≤ (vs.length : Int)) (most : (vs.length : Int) ≤ 2) : ∃ v w, vs = [v, w] :=
    List.length_eq_two.mp (by omega)
  cases f with
  | iif => cases strict
  | today =>
    have most := fits.2 0 rfl
    obtain rfl : vs = [] := List.eq_nil_of_length_eq_zero (by omega)
    cases h
  | age =>
    have least : 1 ≤ (vs.length : Int) := fits.1
    have most := fits.2 1 rfl
    obtain ⟨v, rfl⟩ : ∃ v, vs = [v] := List.length_eq_one_iff.mp (by omega)
    exact Or.inr (.born (ageOn_fault h))
  | sum => exact Or.inl (Aggregate.total_error (liftFault_map_eq_fault.mp h))
  | avg => exact Or.inl (Aggregate.mean_error (liftFault_map_eq_fault.mp h))
  | min | max => cases h
  | round =>
    rcases vs with _ | ⟨v, _ | ⟨w, _ | ⟨x, rest⟩⟩⟩
    · exact absurd fits.1 (by decide)
    · rcases Rounding.round_fault h with overflow | same | textless
      · exact Or.inl overflow
      · cases same
      · exact absurd textless.1 (by decide)
    · rcases Rounding.round_fault h with overflow | rfl | textless
      · exact Or.inl overflow
      · exact Or.inr .places
      · exact Or.inr (.digits textless)
    · have few := fits.2 2 rfl
      simp only [List.length_cons] at few
      omega
  | contains | notContains =>
    obtain ⟨v, w, rfl⟩ := pair fits.1 (fits.2 2 rfl)
    exact Or.inr (.search rfl (Search.contains_error (liftFault_map_eq_fault.mp h)))
  | startsWith | endsWith =>
    obtain ⟨v, w, rfl⟩ := pair fits.1 (fits.2 2 rfl)
    exact Or.inr (.search rfl (Search.onTexts_error (liftFault_map_eq_fault.mp h)))

/-- The conditional function passes on what one of its arguments comes to. -/
theorem choose_fault {f : Builtin} {outcomes : List (Except Stop Value)} {fault : Fault} (conditional : f.isLazy = true)
    (arity : f.function.checkArity outcomes.length = .ok ()) (h : choose outcomes = .error (.fault fault)) :
    ∃ outcome ∈ outcomes, outcome = .error (.fault fault) := by
  unfold choose at h
  split at h
  · rename_i condition whenTrue whenFalse
    rcases bind_eq_error.mp h with failed | ⟨_, -, h⟩
    · exact ⟨condition, by simp, failed⟩
    · split at h
      · exact ⟨whenTrue, by simp, h⟩
      · exact ⟨whenFalse, by simp, h⟩
  · rename_i few
    cases f with
    | iif =>
      have fits := checkArity_eq_ok.mp arity
      have least : 3 ≤ (outcomes.length : Int) := fits.1
      have most := fits.2 3 rfl
      obtain ⟨condition, whenTrue, whenFalse, same⟩ := List.length_eq_three.mp (show outcomes.length = 3 by omega)
      exact absurd same (few condition whenTrue whenFalse)
    | _ => cases conditional

end Builtin

end Questionnaire
