/-!
# Sets of names

A set of names is a list in strictly ascending order, so equal sets are equal lists.
-/
namespace Questionnaire.Names

/-- A set with one more name. -/
def insert (name : String) : List String → List String
  | [] => [name]
  | other :: rest =>
    if name < other then name :: other :: rest
    else if name == other then other :: rest
    else other :: insert name rest

/-- The set of all names in a list. -/
def ofList (names : List String) : List String := names.foldr insert []

def union (xs ys : List String) : List String := xs.foldr insert ys

/-- The names of `xs` that are not in `ys`. -/
def difference (xs ys : List String) : List String := xs.filter (!ys.contains ·)

theorem mem_insert {name other : String} {names : List String} :
    other ∈ insert name names ↔ other = name ∨ other ∈ names := by
  induction names with
  | nil => simp [insert]
  | cons first rest ih =>
    rw [insert]
    split
    · simp
    · split
      · rename_i h
        simp only [beq_iff_eq] at h
        simp [h]
      · simp [ih, or_left_comm]

theorem mem_ofList {name : String} {names : List String} : name ∈ ofList names ↔ name ∈ names := by
  induction names with
  | nil => simp [ofList]
  | cons first rest ih => rw [ofList, List.foldr_cons, mem_insert, ← ofList, ih, List.mem_cons]

theorem mem_union {name : String} {xs ys : List String} : name ∈ union xs ys ↔ name ∈ xs ∨ name ∈ ys := by
  induction xs with
  | nil => simp [union]
  | cons first rest ih => rw [union, List.foldr_cons, mem_insert, ← union, ih, List.mem_cons, or_assoc]

end Questionnaire.Names
