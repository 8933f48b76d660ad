import Questionnaire.Proofs.Legible
import Questionnaire.Proofs.Lookup

/-!
# Values with their fields in order

Some values have words in JSON for all that they hold.  Writing such a value puts the fields of every object in the
order of their keys and changes nothing else: each field is found under its key, with its value in the same form.
-/
namespace Questionnaire

/-! ## Entries in order -/

namespace Table

variable {α β : Type}

/-- Texts always have an order. -/
theorem inOrder?_of_texts {table : Table Key α} (texts : ∀ c ∈ table, ∃ name, c.1 = .text name) :
    table.inOrder? = some table.inOrder := by
  have each : table.keys.all (·.text?.isSome) = true := by
    refine List.all_eq_true.mpr fun key mem => ?_
    obtain ⟨c, found, rfl⟩ := List.mem_map.mp mem
    obtain ⟨name, same⟩ := texts c found
    rw [same]
    rfl
  rw [inOrder?, Key.haveOrder, each, Bool.or_true, Bool.true_or, if_pos rfl, inOrder]

theorem insertInOrder_map (f : α → β) (entry : Key × α) (table : Table Key α) :
    insertInOrder (entry.1, f entry.2) (table.map fun c => (c.1, f c.2)) =
      (insertInOrder entry table).map fun c => (c.1, f c.2) := by
  induction table with
  | nil => rfl
  | cons other rest ih =>
    rw [List.map_cons, insertInOrder, insertInOrder, ih]
    split <;> rfl

/-- The order of entries does not depend on what stands under the keys. -/
theorem inOrder_map (f : α → β) (table : Table Key α) :
    inOrder (table.map fun c => (c.1, f c.2)) = table.inOrder.map fun c => (c.1, f c.2) := by
  induction table with
  | nil => rfl
  | cons entry rest ih =>
    rw [inOrder] at ih
    rw [List.map_cons, inOrder, List.foldr_cons, ih, insertInOrder_map]
    rfl

section

variable {κ : Type} [BEq κ]

/-- No two entries have the same key. -/
def Distinct (table : Table κ α) : Prop := table.Pairwise fun a b => (a.1 == b.1) = false

theorem Distinct.of_perm [PartialEquivBEq κ] {table other : Table κ α} (distinct : table.Distinct)
    (perm : table.Perm other) : other.Distinct :=
  (perm.pairwise_iff fun h => by rw [BEq.comm, h]).mp distinct

theorem Distinct.map {table : Table κ α} (distinct : table.Distinct) (f : α → β) :
    Distinct (table.map fun c => (c.1, f c.2)) := List.pairwise_map.mpr distinct

theorem find?_map (f : α → β) (table : Table κ α) (key : κ) :
    find? (table.map fun c => (c.1, f c.2)) key = (table.find? key).map f := by
  induction table with
  | nil => rfl
  | cons entry rest ih =>
    rw [List.map_cons, find?_cons, ih, find?_cons]
    split <;> rfl

/-- Among entries with different keys the order does not matter. -/
theorem find?_of_perm [EquivBEq κ] {table other : Table κ α} (perm : table.Perm other) (distinct : table.Distinct)
    (key : κ) : table.find? key = other.find? key := by
  induction perm with
  | nil => rfl
  | cons entry _ ih => rw [find?_cons, find?_cons, ih (List.pairwise_cons.mp distinct).2]
  | swap first second rest =>
    have apart := (List.pairwise_cons.mp distinct).1 first List.mem_cons_self
    rw [find?_cons, find?_cons, find?_cons, find?_cons]
    split
    · rename_i here
      have differs : (first.1 == key) = false := by rw [← BEq.congr_right here, BEq.comm, apart]
      rw [if_neg (by rw [differs]; decide)]
    · rfl
  | trans perm _ ih ih' => exact (ih distinct).trans (ih' (distinct.of_perm perm))

end

end Table

namespace Value

/-! ## What JSON has words for -/

/-- A value that its JSON text gives back: no doubles, no integer of too many digits, and every object with texts for
keys, each of them once. -/
inductive Storable : Value → Prop
  | undefined : Storable .undefined
  | boolean (b : Bool) : Storable (.boolean b)
  | integer {n : Int} : n.natAbs < digitBound → Storable (.int n)
  | text (s : String) : Storable (.text s)
  | sequence {items : List Value} : (∀ v ∈ items, Storable v) → Storable (.sequence items)
  | structured {fields : List (Key × Value)} : (∀ c ∈ fields, ∃ name, c.1 = .text name) → Table.Distinct fields →
      (∀ c ∈ fields, Storable c.2) → Storable (.structured fields)

mutual

/-- A value with the fields of every object in the order of their keys. -/
def tidy : Value → Value
  | undefined => undefined
  | boolean b => boolean b
  | number n => number n
  | text s => text s
  | sequence items => sequence (tidyItems items)
  | structured fields => structured (Table.inOrder (tidyFields fields))

def tidyItems : List Value → List Value
  | [] => []
  | v :: rest => tidy v :: tidyItems rest

def tidyFields : List (Key × Value) → List (Key × Value)
  | [] => []
  | (key, v) :: rest => (key, tidy v) :: tidyFields rest

end

theorem tidyItems_eq_map (items : List Value) : tidyItems items = items.map tidy := by
  induction items with
  | nil => rw [tidyItems, List.map_nil]
  | cons v rest ih => rw [tidyItems, List.map_cons, ih]

theorem tidyFields_eq_map (fields : List (Key × Value)) : tidyFields fields = fields.map fun c => (c.1, c.2.tidy) := by
  induction fields with
  | nil => rw [tidyFields, List.map_nil]
  | cons c rest ih => rw [tidyFields, List.map_cons, ih]

theorem tidy_sequence (items : List Value) : (sequence items).tidy = sequence (items.map tidy) := by
  rw [tidy, tidyItems_eq_map]

end Value

namespace Fields

/-- Fields in the order of their keys, with the fields of their values in order too. -/
def tidy (fields : Fields) : Fields := (Table.inOrder fields).map fun c => (c.1, c.2.tidy)

variable {fields : Fields} (distinct : Table.Distinct fields)
include distinct

theorem find?_tidy (key : Key) : Table.find? fields.tidy key = (Table.find? fields key).map Value.tidy := by
  have perm := (Table.inOrder_perm fields).symm
  rw [tidy, Table.find?_map, ← Table.find?_of_perm perm distinct]

theorem get_tidy (name : String) : Fields.get fields.tidy name = (Fields.get fields name).tidy := by
  rw [get, lookUp, find?_tidy distinct, get, lookUp]
  cases Table.find? fields (.text name) with
  | none => rfl
  | some v => rfl

end Fields

namespace Value

theorem tidy_structured (fields : Fields) : (structured fields).tidy = structured fields.tidy := by
  rw [tidy, tidyFields_eq_map, Table.inOrder_map, Fields.tidy]

mutual

/-- Whether two values are the same but for the order of fields. -/
def same : Value → Value → Bool
  | undefined, undefined => true
  | boolean a, boolean b => a == b
  | number m, number n => m == n
  | text s, text t => s == t
  | sequence xs, sequence ys => sameItems xs ys
  | structured fs, structured gs => fs.length == gs.length && sameFields fs gs
  | _, _ => false

def sameItems : List Value → List Value → Bool
  | [], [] => true
  | x :: xs, y :: ys => same x y && sameItems xs ys
  | _, _ => false

/-- Whether every field is found with the same value among the fields `gs`. -/
def sameFields : List (Key × Value) → List (Key × Value) → Bool
  | [], _ => true
  | (key, v) :: rest, gs =>
    (match Table.find? gs key with
      | some w => same v w
      | none => false) && sameFields rest gs

end

theorem sameItems_map {f : Value → Value} {items : List Value} (each : ∀ v ∈ items, v.same (f v) = true) :
    sameItems items (items.map f) = true := by
  induction items with
  | nil => rfl
  | cons v rest ih =>
    obtain ⟨first, later⟩ := List.forall_mem_cons.mp each
    rw [List.map_cons, sameItems, first, ih later, Bool.and_self]

theorem sameFields_of_found {fields others : List (Key × Value)}
    (found : ∀ c ∈ fields, ∃ w, Table.find? others c.1 = some w ∧ c.2.same w = true) :
    sameFields fields others = true := by
  induction fields with
  | nil => rfl
  | cons c rest ih =>
    obtain ⟨key, v⟩ := c
    obtain ⟨⟨w, here, same⟩, later⟩ := List.forall_mem_cons.mp found
    simp only [sameFields, here, same, ih later, Bool.and_self]

/-- Putting fields in order changes nothing else. -/
theorem same_tidy {v : Value} (storable : v.Storable) : v.same v.tidy = true := by
  induction storable with
  | undefined => rfl
  | boolean b => simp [tidy, same]
  | integer => simp [int, tidy, same]
  | text s => simp [tidy, same]
  | sequence _ ih =>
    rw [tidy_sequence, same]
    exact sameItems_map ih
  | @structured fields _ distinct _ ih =>
    rw [tidy_structured, same, Fields.tidy, List.length_map, (Table.inOrder_perm fields).length_eq, beq_self_eq_true,
      Bool.true_and]
    refine sameFields_of_found fun c mem => ⟨c.2.tidy, ?_, ih c mem⟩
    rw [← Fields.tidy, Fields.find?_tidy distinct, Table.find?_of_mem_pairwise distinct mem, Option.map_some]

end Value

end Questionnaire
