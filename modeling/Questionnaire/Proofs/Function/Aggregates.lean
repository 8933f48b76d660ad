import Mathlib.Algebra.BigOperators.Group.Multiset.Basic
import Questionnaire.Function.Builtin
import Questionnaire.Proofs.Number.Comparison
import Questionnaire.Proofs.Value.Order

/-!
# What the aggregates depend on

A sum and an extreme are folds over the numbers among the arguments, taken in the order in which they are found.
Neither the order nor the nesting shows in what comes out: the numbers are a multiset, the sum of integers is that of
the multiset, and two numbers that share a place come out as the same number.
-/
namespace Questionnaire.Aggregate

/-! ## The numbers given -/

mutual

/-- The numbers that a value brings along: itself, the one that it writes, or those of its items. -/
def broughtBy : Value → Multiset Number
  | .number n => {n}
  | .text s => (Number.ofText? s).elim 0 ({·})
  | .sequence items => brought items
  | _ => 0

def brought : List Value → Multiset Number
  | [] => 0
  | v :: rest => broughtBy v + brought rest

end

mutual

theorem broughtBy_eq (v : Value) : broughtBy v = ((leavesOf v).filterMap number? : List Number) := by
  cases v with
  | undefined | boolean | structured => rfl
  | number n => rfl
  | text s =>
    show (Number.ofText? s).elim 0 ({·}) = (([Value.text s].filterMap number? : List Number) : Multiset Number)
    rw [List.filterMap_cons, number?]
    cases Number.ofText? s <;> rfl
  | sequence items => exact brought_eq items

/-- The aggregates find these numbers, in some order. -/
theorem brought_eq (arguments : List Value) : brought arguments = (numbers arguments : List Number) := by
  cases arguments with
  | nil => rfl
  | cons v rest =>
    rw [brought, broughtBy_eq v, brought_eq rest, numbers, numbers, leaves, List.filterMap_append, Multiset.coe_add]

end

/-! ## The same arguments, arranged otherwise -/

/-- Arguments that differ in their order, and in what is taken together in a sequence, at any depth. -/
inductive Rearranged : List Value → List Value → Prop
  | refl (vs : List Value) : Rearranged vs vs
  | symm {vs ws : List Value} : Rearranged vs ws → Rearranged ws vs
  | trans {us vs ws : List Value} : Rearranged us vs → Rearranged vs ws → Rearranged us ws
  | swap (v w : Value) (rest : List Value) : Rearranged (v :: w :: rest) (w :: v :: rest)
  | nest (items rest : List Value) : Rearranged (items ++ rest) (.sequence items :: rest)
  | cons (v : Value) {vs ws : List Value} : Rearranged vs ws → Rearranged (v :: vs) (v :: ws)
  | within {items items' : List Value} (rest : List Value) : Rearranged items items' →
      Rearranged (.sequence items :: rest) (.sequence items' :: rest)

theorem brought_append (vs ws : List Value) : brought (vs ++ ws) = brought vs + brought ws := by
  induction vs with
  | nil => exact (zero_add _).symm
  | cons v rest ih => rw [List.cons_append, brought, ih, brought, add_assoc]

theorem Rearranged.brought_eq {vs ws : List Value} (same : Rearranged vs ws) : brought vs = brought ws := by
  induction same with
  | refl vs => rfl
  | symm _ ih => exact ih.symm
  | trans _ _ ih ih' => exact ih.trans ih'
  | swap v w rest => exact add_left_comm _ _ _
  | nest items rest => exact brought_append items rest
  | cons v _ ih => exact congrArg (broughtBy v + ·) ih
  | within rest _ ih => exact congrArg (· + brought rest) ih

theorem Rearranged.append_right {vs ws : List Value} (same : Rearranged vs ws) (rest : List Value) :
    Rearranged (vs ++ rest) (ws ++ rest) :=
  (Rearranged.nest vs rest).trans ((Rearranged.within rest same).trans (Rearranged.nest ws rest).symm)

mutual

theorem rearranged_leavesOf (v : Value) (rest : List Value) : Rearranged (v :: rest) (leavesOf v ++ rest) := by
  cases v with
  | sequence items => exact (Rearranged.nest items rest).symm.trans ((rearranged_leaves items).append_right rest)
  | undefined | boolean | number | text | structured => exact .refl _

theorem rearranged_leaves (vs : List Value) : Rearranged vs (leaves vs) := by
  cases vs with
  | nil => exact .refl _
  | cons v rest => exact (Rearranged.cons v (rearranged_leaves rest)).trans (rearranged_leavesOf v (leaves rest))

end

theorem leaves_append (vs ws : List Value) : leaves (vs ++ ws) = leaves vs ++ leaves ws := by
  induction vs with
  | nil => rfl
  | cons v rest ih => rw [List.cons_append, leaves, ih, leaves, List.append_assoc]

/-- Arguments can be arranged as others exactly if they have the same leaves, in some order. -/
theorem rearranged_iff {vs ws : List Value} : Rearranged vs ws ↔ (leaves vs).Perm (leaves ws) := by
  constructor
  · intro same
    induction same with
    | refl vs => exact .refl _
    | symm _ ih => exact ih.symm
    | trans _ _ ih ih' => exact ih.trans ih'
    | swap v w rest =>
      show (leavesOf v ++ (leavesOf w ++ leaves rest)).Perm (leavesOf w ++ (leavesOf v ++ leaves rest))
      rw [← List.append_assoc, ← List.append_assoc]
      exact List.perm_append_comm.append_right _
    | nest items rest => rw [leaves_append]; exact .refl _
    | cons v _ ih => exact ih.append_left (leavesOf v)
    | within rest _ ih => exact ih.append_right (leaves rest)
  · intro permuted
    have flat : ∀ {us us' : List Value}, us.Perm us' → Rearranged us us' := by
      intro us us' permuted
      induction permuted with
      | nil => exact .refl _
      | cons v _ ih => exact .cons v ih
      | swap v w rest => exact .swap w v rest
      | trans _ _ ih ih' => exact ih.trans ih'
    exact (rearranged_leaves vs).trans ((flat permuted).trans (rearranged_leaves ws).symm)

/-! ## Extremes -/

/-- The one that is left when the numbers of a list challenge a first one in turn, and a better one takes its place. -/
structure Wins (better : Number → Number → Bool) (first : Number) (rest : List Number) (champion : Number) :
    Prop where
  entered : champion ∈ first :: rest
  improves : champion = first ∨ better champion first = true
  unbeaten : ∀ n ∈ first :: rest, better n champion = false

section

variable {better : Number → Number → Bool} (irrefl : ∀ n, better n n = false)
  (trans : ∀ {a b c}, better a b = true → better b c = true → better a c = true)

include irrefl trans

theorem not_better_of_better {a b : Number} (less : better a b = true) : better b a = false := by
  cases back : better b a with
  | false => rfl
  | true => exact (trans back less).symm.trans (irrefl b)

theorem wins_foldl (first : Number) (rest : List Number) :
    Wins better first rest (rest.foldl (fun champion n => if better n champion then n else champion) first) := by
  induction rest generalizing first with
  | nil =>
    show Wins better first [] first
    exact ⟨List.mem_singleton_self _, .inl rfl, fun n entered => List.mem_singleton.mp entered ▸ irrefl first⟩
  | cons n rest ih =>
    rw [List.foldl_cons]
    cases challenge : better n first with
    | true =>
      obtain ⟨entered, improves, unbeaten⟩ := ih n
      rw [if_pos rfl]
      generalize rest.foldl _ n = champion at entered improves unbeaten ⊢
      have better' : better champion first = true := by
        rcases improves with rfl | improves
        · exact challenge
        · exact trans improves challenge
      refine ⟨List.mem_cons_of_mem _ entered, .inr better', fun m entered => ?_⟩
      rcases List.mem_cons.mp entered with rfl | entered
      · exact not_better_of_better irrefl trans better'
      · exact unbeaten m entered
    | false =>
      obtain ⟨entered, improves, unbeaten⟩ := ih first
      rw [if_neg Bool.false_ne_true]
      generalize rest.foldl _ first = champion at entered improves unbeaten ⊢
      refine ⟨List.cons_subset_cons _ (List.subset_cons_self _ _) entered, improves, fun m entered => ?_⟩
      rcases List.mem_cons.mp entered with rfl | entered
      · exact unbeaten m List.mem_cons_self
      · rcases List.mem_cons.mp entered with rfl | entered
        · -- One that beat the champion would have beaten the first as well.
          rcases improves with rfl | improves
          · exact challenge
          · cases beats : better m champion with
            | false => rfl
            | true => exact (trans beats improves).symm.trans challenge
        · exact unbeaten m (List.mem_cons_of_mem _ entered)

end

/-- What looking for an extreme comes to: nothing if there are no numbers, else one of them that is before all, as an
integer if it is one. -/
structure Extreme (before : Number → Number → Bool) (given : Multiset Number) (v : Value) : Prop where
  undefined : v = .undefined ↔ given = 0
  reached : given ≠ 0 → ∃ n ∈ given, v = .number n.normalize ∧ ∀ m ∈ given, before n m = true

section

variable {better before : Number → Number → Bool}

theorem extreme_best (irrefl : ∀ n, better n n = false)
    (trans : ∀ {a b c}, better a b = true → better b c = true → better a c = true) {arguments : List Value}
    (before_of_unbeaten : ∀ n ∈ brought arguments, ∀ m ∈ brought arguments,
      better m n = false → before n m = true) :
    Extreme before (brought arguments) (best better arguments) := by
  rw [brought_eq] at before_of_unbeaten ⊢
  unfold best
  cases given : numbers arguments with
  | nil => exact ⟨⟨fun _ => rfl, fun _ => rfl⟩, fun some => absurd rfl some⟩
  | cons first rest =>
    rw [given] at before_of_unbeaten
    obtain ⟨entered, -, unbeaten⟩ := wins_foldl irrefl trans first rest
    refine ⟨⟨nofun, fun none => absurd ((Multiset.coe_eq_zero _).mp none) (List.cons_ne_nil _ _)⟩, fun _ => ?_⟩
    exact ⟨_, entered, rfl, fun m member => before_of_unbeaten _ entered m member (unbeaten m member)⟩

/-- There is one extreme only: two numbers that are each before the other share a place. -/
theorem Extreme.unique (antisymm : ∀ {a b : Number}, before a b = true → before b a = true → a.eq b = true)
    {given : Multiset Number} {v w : Value} (extreme : Extreme before given v) (extreme' : Extreme before given w) :
    v = w := by
  by_cases none : given = 0
  · rw [extreme.undefined.mpr none, extreme'.undefined.mpr none]
  · obtain ⟨n, member, rfl, first⟩ := extreme.reached none
    obtain ⟨m, member', rfl, first'⟩ := extreme'.reached none
    rw [Number.normalize_eq_of_eq (antisymm (first m member') (first' n member))]

end

variable {arguments : List Value}

theorem extreme_least (proper : ∀ n ∈ brought arguments, n ≠ .float .nan) :
    Extreme Number.le (brought arguments) (least arguments) :=
  extreme_best Number.lt_irrefl Number.lt_trans fun n member m member' unbeaten =>
    Number.le_of_not_lt (proper n member) (proper m member') unbeaten

theorem extreme_greatest (proper : ∀ n ∈ brought arguments, n ≠ .float .nan) :
    Extreme (fun n m => m.le n) (brought arguments) (greatest arguments) := by
  show Extreme _ _ (best (fun a b => b.lt a) arguments)
  refine extreme_best ?_ ?_ ?_
  · exact Number.lt_irrefl
  · intro a b c above above'
    exact Number.lt_trans above' above
  · intro n member m member' unbeaten
    exact Number.le_of_not_lt (proper m member') (proper n member) unbeaten

/-! ## Sums -/

theorem foldlM_add_int (ks : List Int) (k : Int) :
    (ks.map Number.int).foldlM Number.add (.int k) = .ok (.int (k + ks.sum)) := by
  induction ks generalizing k with
  | nil => rw [List.sum_nil, Int.add_zero]; rfl
  | cons first rest ih =>
    show (rest.map Number.int).foldlM Number.add (.int (k + first)) = _
    rw [ih, List.sum_cons, Int.add_assoc]

theorem total_of_ints {wholes : Multiset Int} (given : brought arguments = wholes.map Number.int) :
    total arguments = .ok (.int wholes.sum) := by
  rw [brought_eq] at given
  have each : ∀ n ∈ numbers arguments, n ∈ Set.range Number.int := by
    intro n member
    obtain ⟨k, -, same⟩ := Multiset.mem_map.mp (given ▸ Multiset.mem_coe.mpr member)
    exact ⟨k, same⟩
  obtain ⟨ks, found⟩ : numbers arguments ∈ Set.range (List.map Number.int) := by
    rw [Set.range_list_map]
    exact each
  have same : (ks : Multiset Int) = wholes := by
    refine Multiset.map_injective (fun _ _ => Number.int.inj) ?_
    rw [Multiset.map_coe, found, given]
  rw [total, ← found, foldlM_add_int, Int.zero_add, ← same, Multiset.sum_coe]
  rfl

/-! ## What a call depends on -/

/-- The extremes of some arguments are those of the numbers brought, undefined if there are none.  The sum of whole
numbers is exact.  Arguments that are arranged otherwise have the same extremes and, if all numbers are whole, the same
sum. -/
theorem aggregates_of_numbers (date : Date) {arguments : List Value}
    (proper : ∀ n ∈ brought arguments, n ≠ .float .nan) :
    (∃ low high, Builtin.min.run date arguments = .ok low ∧ Builtin.max.run date arguments = .ok high ∧
      Extreme Number.le (brought arguments) low ∧ Extreme (fun n m => m.le n) (brought arguments) high) ∧
    (∀ wholes : Multiset Int, brought arguments = wholes.map .int →
      Builtin.sum.run date arguments = .ok (.int wholes.sum)) ∧
    ∀ others, Rearranged arguments others →
      Builtin.min.run date others = Builtin.min.run date arguments ∧
      Builtin.max.run date others = Builtin.max.run date arguments ∧
      ((∃ wholes : Multiset Int, brought arguments = wholes.map .int) →
        Builtin.sum.run date others = Builtin.sum.run date arguments) := by
  have summed : ∀ {vs : List Value} {wholes : Multiset Int}, brought vs = wholes.map .int →
      Builtin.sum.run date vs = .ok (.int wholes.sum) := by
    intro vs wholes given
    show liftFault (Value.number <$> total vs) = _
    rw [total_of_ints given]
    rfl
  refine ⟨⟨_, _, rfl, rfl, extreme_least proper, extreme_greatest proper⟩, fun _ => summed, ?_⟩
  intro others rearranged
  have same := rearranged.brought_eq
  have proper' : ∀ n ∈ brought others, n ≠ .float .nan := same ▸ proper
  refine ⟨congrArg Except.ok ?_, congrArg Except.ok ?_, ?_⟩
  · exact Extreme.unique Number.eq_of_le_of_le (extreme_least proper') (same ▸ extreme_least proper)
  · exact Extreme.unique (fun above below => Number.eq_of_le_of_le below above) (extreme_greatest proper')
      (same ▸ extreme_greatest proper)
  · rintro ⟨wholes, given⟩
    rw [summed given, summed (same ▸ given)]

namespace Sample

def seven : Value := .float (.finite false (7 * Double.unitsPerOne))

/-- A double and a text in the same place, a smaller number behind them, and values that are no numbers. -/
def mixed : List Value :=
  [.sequence [seven, .boolean true, .sequence [.text " 7 ", .undefined]], .text "x", .int 3]

def regrouped : List Value := [.int 3, .sequence [.sequence [seven], .boolean true], .text " 7 ",
  .sequence [.undefined, .sequence [], .text "x"]]

end Sample

theorem aggregates_of_mixed : (∀ n ∈ brought Sample.mixed, n ≠ .float .nan) ∧
    Builtin.min.run ⟨2024, 2, 29⟩ Sample.regrouped = .ok (.int 3) ∧
    Builtin.max.run ⟨2024, 2, 29⟩ Sample.regrouped = .ok (.int 7) := by
  have found : numbers Sample.mixed = [.float (.finite false (7 * Double.unitsPerOne)), .int 7, .int 3] := by
    decide +kernel
  have proper : ∀ n ∈ brought Sample.mixed, n ≠ .float .nan := by
    rw [brought_eq, found]
    decide
  have rearranged : Rearranged Sample.mixed Sample.regrouped := by
    refine rearranged_iff.mpr ?_
    show ([Sample.seven, .boolean true, .text " 7 ", .undefined, .text "x"] ++ [Value.int 3]).Perm (Value.int 3 :: _)
    exact List.perm_append_singleton _ _
  obtain ⟨-, -, arranged⟩ := aggregates_of_numbers ⟨2024, 2, 29⟩ proper
  obtain ⟨low, high, -⟩ := arranged _ rearranged
  have least_mixed : least Sample.mixed = .int 3 := by
    rw [least, best, found]
    exact congrArg Value.number (by decide +kernel)
  have greatest_mixed : greatest Sample.mixed = .int 7 := by
    rw [greatest, best, found]
    exact congrArg Value.number (by decide +kernel)
  exact ⟨proper, low.trans (congrArg Except.ok least_mixed), high.trans (congrArg Except.ok greatest_mixed)⟩

end Questionnaire.Aggregate
