/-!
# Tables

A table has one entry for each of some keys and keeps the entries in the order in which their keys first came up.
Keys may be the same without being equal; a table then keeps the key that came up first.  What an operation does
is said by what it leaves to be looked up.
-/
namespace Questionnaire

/-- Entries in order, each with its key. -/
abbrev Table (κ α : Type) := List (κ × α)

namespace Table

variable {κ α : Type}

def keys (table : Table κ α) : List κ := table.map (·.1)

variable [BEq κ]

/-- The entry of a key. -/
def find? (table : Table κ α) (key : κ) : Option α :=
  match table with
  | [] => none
  | (other, entry) :: rest => if other == key then some entry else find? rest key

/-- Sets the entry of a key: in its place if there is one, at the end if not. -/
def set (key : κ) (entry : α) : Table κ α → Table κ α
  | [] => [(key, entry)]
  | (other, old) :: rest =>
    if other == key then (other, entry) :: rest else (other, old) :: set key entry rest

/-- Takes the entry of a key out. -/
def erase (key : κ) (table : Table κ α) : Table κ α := table.filter (!·.1 == key)

/-- Changes the entry of a key, if there is one. -/
def modify (key : κ) (f : α → α) (table : Table κ α) : Table κ α :=
  table.map fun (other, entry) => if other == key then (other, f entry) else (other, entry)

@[simp] theorem find?_nil (key : κ) : find? ([] : Table κ α) key = none := rfl

theorem find?_cons (other key : κ) (entry : α) (rest : Table κ α) :
    find? ((other, entry) :: rest) key = if other == key then some entry else find? rest key := rfl

theorem set_cons (other key : κ) (old entry : α) (rest : Table κ α) :
    set key entry ((other, old) :: rest) =
      if other == key then (other, entry) :: rest else (other, old) :: set key entry rest := rfl

@[simp] theorem find?_set_self [ReflBEq κ] (table : Table κ α) (key : κ) (entry : α) :
    (table.set key entry).find? key = some entry := by
  induction table with
  | nil => simp [set, find?_cons]
  | cons first rest ih =>
    obtain ⟨other, old⟩ := first
    rw [set_cons]
    by_cases h : other == key
    · simp [h, find?_cons]
    · simp [h, find?_cons, ih]

theorem find?_set_of_differs [PartialEquivBEq κ] {key asked : κ} (table : Table κ α) (entry : α)
    (h : (key == asked) = false) : (table.set key entry).find? asked = table.find? asked := by
  induction table with
  | nil => simp [set, find?_cons, h]
  | cons first rest ih =>
    obtain ⟨other, old⟩ := first
    rw [set_cons]
    by_cases h' : other == key
    · have differs : (other == asked) = false := by rw [BEq.congr_left h', h]
      simp [h', find?_cons, differs]
    · simp [h', find?_cons, ih]

end Table

end Questionnaire
