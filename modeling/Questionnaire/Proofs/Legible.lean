import Questionnaire.Proofs.Outcome
import Questionnaire.Value.Equality

/-!
# Values that can be written out

A value is legible if all of it can be written out: no integer in it has too many digits, and the keys of every
structured value in it have a common order.  A text is asked for in three ways, as a message shows a value, as JSON,
and as the operators on texts and the equality of the language take it.  Only an illegible value is refused, and the
last way gives every number a text, whatever its size.

Each statement goes from a fault back to the value that it comes from, along the recursion of the function.
-/
namespace Questionnaire

open Outcome (bind_eq_error map_eq_error)

/-- A key can be written out. -/
def Key.legible : Key → Bool
  | .number (.int n) => (integerText? n).isSome
  | _ => true

namespace Value

mutual

/-- A value can be written out, with all that it holds. -/
def legible : Value → Bool
  | undefined | boolean _ | text _ => true
  | number n => Key.legible (.number n)
  | sequence items => legibleItems items
  | structured fields => Key.haveOrder (Table.keys fields) && legibleFields fields

def legibleItems : List Value → Bool
  | [] => true
  | v :: rest => legible v && legibleItems rest

def legibleFields : List (Key × Value) → Bool
  | [] => true
  | (key, v) :: rest => key.legible && legible v && legibleFields rest

end

/-- A value that has no text; a number always has one. -/
def Textless (v : Value) : Prop := v.isNumber = false ∧ v.legible = false

theorem legibleItems_eq_false {items : List Value} (h : ∃ v ∈ items, v.legible = false) :
    legibleItems items = false := by
  induction items with
  | nil =>
    obtain ⟨_, mem, -⟩ := h
    exact absurd mem List.not_mem_nil
  | cons first rest ih =>
    obtain ⟨v, mem, illegible⟩ := h
    rw [legibleItems]
    rcases List.mem_cons.mp mem with rfl | later
    · rw [illegible, Bool.false_and]
    · rw [ih ⟨v, later, illegible⟩, Bool.and_false]

theorem legibleFields_eq_false {fields : List (Key × Value)}
    (h : ∃ c ∈ fields, (c.1.legible && c.2.legible) = false) : legibleFields fields = false := by
  induction fields with
  | nil =>
    obtain ⟨_, mem, -⟩ := h
    exact absurd mem List.not_mem_nil
  | cons first rest ih =>
    obtain ⟨c, mem, illegible⟩ := h
    rw [legibleFields]
    rcases List.mem_cons.mp mem with rfl | later
    · rw [illegible, Bool.false_and]
    · rw [ih ⟨c, later, illegible⟩, Bool.and_false]

/-- A sequence with an item that has no text has none either. -/
theorem Textless.of_mem {v : Value} {items : List Value} (h : v.Textless) (mem : v ∈ items) :
    (sequence items).Textless := by
  refine ⟨rfl, ?_⟩
  rw [legible]
  exact legibleItems_eq_false ⟨v, mem, h.2⟩

end Value

/-! ### As messages show them -/

theorem exactText_error {n : Int} {f : Fault} (h : exactText n = .error f) : (integerText? n).isSome = false := by
  unfold exactText at h
  split at h
  · cases h
  · rename_i none
    rw [none]
    rfl

theorem Key.shown_error {key : Key} {f : Fault} (h : key.shown = .error f) : key.legible = false := by
  unfold Key.shown at h
  split at h
  case h_3 =>
    rw [Key.legible]
    exact exactText_error h
  all_goals cases h

namespace Value

mutual

theorem shown_error {f : Fault} : ∀ {v : Value}, v.shown = .error f → v.legible = false
  | undefined, h | boolean _, h | text _, h => by
    rw [shown] at h
    cases Key.shown_error h
  | number n, h => by
    rw [shown] at h
    rw [legible]
    exact Key.shown_error h
  | sequence items, h => by
    rw [shown] at h
    rcases bind_eq_error.mp h with items | ⟨_, -, done⟩
    · rw [legible]
      exact legibleItems_eq_false (shownItems_error items)
    · cases done
  | structured fields, h => by
    rw [shown] at h
    rcases bind_eq_error.mp h with fields | ⟨_, -, done⟩
    · rw [legible, legibleFields_eq_false (shownFields_error fields), Bool.and_false]
    · cases done

theorem shownItems_error {f : Fault} : ∀ {items : List Value}, shownItems items = .error f →
    ∃ v ∈ items, v.legible = false
  | [], h => by
    rw [shownItems] at h
    cases h
  | v :: rest, h => by
    rw [shownItems] at h
    rcases bind_eq_error.mp h with first | ⟨_, -, h⟩
    · exact ⟨v, List.mem_cons_self, shown_error first⟩
    · rcases bind_eq_error.mp h with others | ⟨_, -, done⟩
      · obtain ⟨w, mem, illegible⟩ := shownItems_error others
        exact ⟨w, List.mem_cons_of_mem v mem, illegible⟩
      · cases done

theorem shownFields_error {f : Fault} : ∀ {fields : List (Key × Value)}, shownFields fields = .error f →
    ∃ c ∈ fields, (c.1.legible && c.2.legible) = false
  | [], h => by
    rw [shownFields] at h
    cases h
  | (key, v) :: rest, h => by
    have here (illegible : (key.legible && v.legible) = false) :
        ∃ c ∈ (key, v) :: rest, (c.1.legible && c.2.legible) = false :=
      ⟨(key, v), List.mem_cons_self, illegible⟩
    rw [shownFields] at h
    rcases bind_eq_error.mp h with name | ⟨_, -, h⟩
    · exact here (by rw [Key.shown_error name, Bool.false_and])
    · rcases bind_eq_error.mp h with first | ⟨_, -, h⟩
      · exact here (by rw [shown_error first, Bool.and_false])
      · rcases bind_eq_error.mp h with others | ⟨_, -, done⟩
        · obtain ⟨c, mem, illegible⟩ := shownFields_error others
          exact ⟨c, List.mem_cons_of_mem _ mem, illegible⟩
        · cases done

end

end Value

/-! ### Entries in order -/

namespace Table

variable {α : Type}

theorem insertInOrder_perm (entry : Key × α) (table : Table Key α) :
    (table.insertInOrder entry).Perm (entry :: table) := by
  induction table with
  | nil => exact .refl _
  | cons other rest ih =>
    rw [insertInOrder]
    split
    · exact (ih.cons other).trans (.swap entry other rest)
    · exact .refl _

/-- The entries of a table in the order of their keys. -/
def inOrder (table : Table Key α) : Table Key α := table.foldr insertInOrder []

/-- Putting entries in order neither adds nor loses one. -/
theorem inOrder_perm (table : Table Key α) : table.inOrder.Perm table := by
  induction table with
  | nil => exact .refl _
  | cons entry rest ih => exact (insertInOrder_perm entry _).trans (ih.cons entry)

theorem inOrder?_perm {table sorted : Table Key α} (h : table.inOrder? = some sorted) : sorted.Perm table := by
  unfold inOrder? at h
  split at h
  · cases h
    exact inOrder_perm table
  · cases h

end Table

/-! ### As JSON -/

namespace Json

theorem keyText_error {key : Key} {f : Fault} (h : keyText key = .error f) : key.legible = false := by
  unfold keyText at h
  split at h
  case h_3 =>
    rw [Key.legible]
    exact exactText_error h
  all_goals cases h

theorem keys_printFields (fields : List (Key × Value)) : (printFields fields).keys = Table.keys fields := by
  induction fields with
  | nil => simp [printFields, Table.keys]
  | cons c rest ih =>
    obtain ⟨key, v⟩ := c
    rw [printFields, Table.keys, List.map_cons, ← Table.keys, ih]
    rfl

theorem mem_printFields {fields : List (Key × Value)} {key : Key} {printed : Except Fault String}
    (mem : (key, printed) ∈ printFields fields) : ∃ v, (key, v) ∈ fields ∧ printed = print v := by
  induction fields with
  | nil =>
    rw [printFields] at mem
    exact absurd mem List.not_mem_nil
  | cons c rest ih =>
    obtain ⟨other, v⟩ := c
    rw [printFields] at mem
    rcases List.mem_cons.mp mem with same | later
    · cases same
      exact ⟨v, List.mem_cons_self, rfl⟩
    · obtain ⟨w, mem', same⟩ := ih later
      exact ⟨w, List.mem_cons_of_mem _ mem', same⟩

mutual

theorem print_error {f : Fault} : ∀ {v : Value}, print v = .error f → v.legible = false
  | .undefined, h | .boolean _, h => by
    rw [print] at h
    cases keyText_error h
  | .text _, h => by
    rw [print] at h
    cases h
  | .number n, h => by
    rw [print] at h
    rw [Value.legible]
    exact keyText_error h
  | .sequence items, h => by
    rw [print] at h
    rcases bind_eq_error.mp h with items | ⟨_, -, done⟩
    · rw [Value.legible]
      exact Value.legibleItems_eq_false (printItems_error items)
    · cases done
  | .structured fields, h => by
    rw [print] at h
    rw [Value.legible]
    split at h
    · rename_i none
      unfold Table.inOrder? at none
      split at none
      · cases none
      · rename_i disorder
        rw [keys_printFields] at disorder
        rw [Bool.eq_false_iff.mpr disorder, Bool.false_and]
    · rename_i entries sorted
      rcases bind_eq_error.mp h with written | ⟨_, -, done⟩
      · obtain ⟨⟨key, printed⟩, mem, failed⟩ := Outcome.exists_of_mapM_eq_error written
        obtain ⟨v, mem', rfl⟩ := mem_printFields ((Table.inOrder?_perm sorted).mem_iff.mp mem)
        rw [Value.legibleFields_eq_false ⟨(key, v), mem', ?_⟩, Bool.and_false]
        rcases bind_eq_error.mp failed with name | ⟨_, -, failed⟩
        · rw [keyText_error name, Bool.false_and]
        · rcases bind_eq_error.mp failed with value | ⟨_, -, done⟩
          · have smaller : sizeOf v < 1 + sizeOf fields := by
              have := List.sizeOf_lt_of_mem mem'
              simp only [Prod.mk.sizeOf_spec] at this
              omega
            rw [print_error value, Bool.and_false]
          · cases done
      · cases done
termination_by v => sizeOf v

theorem printItems_error {f : Fault} : ∀ {items : List Value}, printItems items = .error f →
    ∃ v ∈ items, v.legible = false
  | [], h => by
    rw [printItems] at h
    cases h
  | v :: rest, h => by
    rw [printItems] at h
    rcases bind_eq_error.mp h with first | ⟨_, -, h⟩
    · exact ⟨v, List.mem_cons_self, print_error first⟩
    · rcases bind_eq_error.mp h with others | ⟨_, -, done⟩
      · obtain ⟨w, mem, illegible⟩ := printItems_error others
        exact ⟨w, List.mem_cons_of_mem v mem, illegible⟩
      · cases done
termination_by items => sizeOf items

end

end Json

/-! ### As the operators take them -/

namespace Value

mutual

theorem toText_error {f : Fault} : ∀ {v : Value}, v.toText = .error f → v.Textless
  | undefined, h | boolean _, h | number _, h | text _, h => by
    rw [toText] at h
    cases h
  | sequence items, h => by
    rw [toText] at h
    rcases bind_eq_error.mp h with items | ⟨_, -, done⟩
    · obtain ⟨v, mem, textless⟩ := toTexts_error items
      exact textless.of_mem mem
    · cases done
  | structured fields, h => by
    rw [toText] at h
    exact ⟨rfl, Json.print_error h⟩

theorem toTexts_error {f : Fault} : ∀ {items : List Value}, toTexts items = .error f → ∃ v ∈ items, v.Textless
  | [], h => by
    rw [toTexts] at h
    cases h
  | v :: rest, h => by
    rw [toTexts] at h
    rcases bind_eq_error.mp h with first | ⟨_, -, h⟩
    · exact ⟨v, List.mem_cons_self, toText_error first⟩
    · rcases bind_eq_error.mp h with others | ⟨_, -, done⟩
      · obtain ⟨w, mem, textless⟩ := toTexts_error others
        exact ⟨w, List.mem_cons_of_mem v mem, textless⟩
      · cases done

end

/-- Two values are asked for their texts, one after the other. -/
theorem textless_of_texts {v w : Value} {f : Fault} {α : Type} {g : String → String → α}
    (h : (do
      let first ← v.toText
      return g first (← w.toText)) = .error f) : v.Textless ∨ w.Textless := by
  rcases bind_eq_error.mp h with first | ⟨_, -, h⟩
  · exact Or.inl (toText_error first)
  · rcases bind_eq_error.mp h with second | ⟨_, -, done⟩
    · exact Or.inr (toText_error second)
    · cases done

/-- A value is refused as a number by a message that shows it. -/
theorem toNumber_fault {v : Value} {f : Fault} (h : v.toNumber = .error (.fault f)) : v.Textless := by
  have shown (number : v.isNumber = false)
      (h : (do throw (.error (.notANumber v.kind.name (← liftFault v.shown))) : Except Stop Number) =
        .error (.fault f)) : v.Textless := by
    rcases bind_eq_error.mp h with failed | ⟨_, -, refused⟩
    · exact ⟨number, shown_error (Outcome.liftFault_eq_fault.mp failed)⟩
    · cases refused
  unfold toNumber at h
  extract_lets refused at h
  split at h
  · cases h
  · cases h
  · split at h
    · cases h
    · exact shown rfl h
  · rename_i other _
    refine shown ?_ h
    cases v with
    | number n => exact absurd rfl (other n)
    | _ => rfl

/-- A sequence that has no text. -/
def Unwritten (v : Value) : Prop := (∃ items, v = sequence items) ∧ ∃ f, v.toText = .error f

theorem Unwritten.textless {v : Value} (h : v.Unwritten) : v.Textless := by
  obtain ⟨-, f, failed⟩ := h
  exact toText_error failed

theorem toTexts_of_mem_error {v : Value} {items : List Value} {f : Fault} (mem : v ∈ items)
    (h : v.toText = .error f) : ∃ g, toTexts items = .error g := by
  induction items with
  | nil => cases mem
  | cons first rest ih =>
    rw [toTexts]
    rcases List.mem_cons.mp mem with rfl | later
    · exact ⟨f, bind_eq_error.mpr (Or.inl h)⟩
    · obtain ⟨g, failed⟩ := ih later
      cases here : first.toText with
      | error e => exact ⟨e, rfl⟩
      | ok s => exact ⟨g, by rw [failed]; rfl⟩

/-- A sequence with an item that is a sequence without a text has none either. -/
theorem Unwritten.of_mem {v : Value} {items : List Value} (h : v.Unwritten) (mem : v ∈ items) :
    (sequence items).Unwritten := by
  obtain ⟨-, f, failed⟩ := h
  obtain ⟨g, failed⟩ := toTexts_of_mem_error mem failed
  refine ⟨⟨items, rfl⟩, g, ?_⟩
  rw [toText, failed]
  rfl

theorem unwritten_of_toText {v : Value} {f : Fault} (plain : ∀ fields, v ≠ structured fields)
    (h : v.toText = .error f) : v.Unwritten := by
  cases v with
  | undefined | boolean | number | text =>
    rw [toText] at h
    cases h
  | sequence items => exact ⟨⟨items, rfl⟩, f, h⟩
  | structured fields => exact absurd rfl (plain fields)

mutual

/-- Equality of two values asks for the texts of sequences, of the two themselves or of items of theirs. -/
theorem unwritten_of_equal {f : Fault} {left right : Value} (h : left.equal right = .error f) :
    left.Unwritten ∨ right.Unwritten := by
  rw [equal.eq_def] at h
  split at h
  · cases h
  · cases h
  · rename_i xs ys
    have items (failed : (∃ x ∈ xs, x.Unwritten) ∨ ∃ y ∈ ys, y.Unwritten) :
        (sequence xs).Unwritten ∨ (sequence ys).Unwritten :=
      failed.imp (fun ⟨_, mem, unwritten⟩ => unwritten.of_mem mem) fun ⟨_, mem, unwritten⟩ => unwritten.of_mem mem
    rcases bind_eq_error.mp h with failed | ⟨all, -, h⟩
    · exact items (unwritten_of_eachFound failed)
    · split at h
      · exact items (unwritten_of_eachFound h).symm
      · cases h
  · cases h
  · cases h
  · cases h
  · cases h
  · rename_i plain _ _ plain' _ _
    split at h
    · cases h
    · rcases bind_eq_error.mp h with failed | ⟨_, -, h⟩
      · exact Or.inl (unwritten_of_toText plain failed)
      · rcases bind_eq_error.mp h with failed | ⟨_, -, done⟩
        · exact Or.inr (unwritten_of_toText plain' failed)
        · cases done
termination_by sizeOf left + sizeOf right

theorem unwritten_of_eachFound {f : Fault} {xs ys : List Value} (h : eachFound xs ys = .error f) :
    (∃ x ∈ xs, x.Unwritten) ∨ ∃ y ∈ ys, y.Unwritten := by
  cases xs with
  | nil =>
    rw [eachFound] at h
    cases h
  | cons x rest =>
    rw [eachFound] at h
    rcases bind_eq_error.mp h with failed | ⟨_, -, h⟩
    · exact (unwritten_of_found failed).imp_left fun unwritten => ⟨x, List.mem_cons_self, unwritten⟩
    · split at h
      · refine (unwritten_of_eachFound h).imp_left ?_
        rintro ⟨w, mem, unwritten⟩
        exact ⟨w, List.mem_cons_of_mem x mem, unwritten⟩
      · cases h
termination_by sizeOf xs + sizeOf ys

theorem unwritten_of_found {f : Fault} {x : Value} {ys : List Value} (h : found x ys = .error f) :
    x.Unwritten ∨ ∃ y ∈ ys, y.Unwritten := by
  cases ys with
  | nil =>
    rw [found] at h
    cases h
  | cons y rest =>
    rw [found] at h
    rcases bind_eq_error.mp h with failed | ⟨_, -, h⟩
    · exact (unwritten_of_equal failed).imp_right fun unwritten => ⟨y, List.mem_cons_self, unwritten⟩
    · split at h
      · cases h
      · refine (unwritten_of_found h).imp_right ?_
        rintro ⟨w, mem, unwritten⟩
        exact ⟨w, List.mem_cons_of_mem y mem, unwritten⟩
termination_by sizeOf x + sizeOf ys

end

theorem equal_error {f : Fault} {left right : Value} (h : left.equal right = .error f) :
    left.Textless ∨ right.Textless :=
  (unwritten_of_equal h).imp Unwritten.textless Unwritten.textless

end Value

theorem Relation.holds_error {r : Relation} {left right : Value} {f : Fault} (h : r.holds left right = .error f) :
    left.Textless ∨ right.Textless := by
  unfold Relation.holds at h
  split at h
  · cases h
  · split at h
    · cases h
    · exact Value.textless_of_texts h

end Questionnaire
