import Questionnaire.Session.Basic

/-!
# What is found in a table

What an operation on a table leaves to be looked up, and from it what storing an answer leaves: the new value under
its key, up to the test by which the store keeps what it has, and the old values under all other keys.
-/
namespace Questionnaire

namespace Table

variable {κ α : Type} [BEq κ]

theorem find?_erase_of_differs [PartialEquivBEq κ] {key asked : κ} (h : (key == asked) = false)
    (table : Table κ α) : (table.erase key).find? asked = table.find? asked := by
  induction table with
  | nil => rfl
  | cons first rest ih =>
    obtain ⟨other, entry⟩ := first
    unfold erase at ih ⊢
    by_cases same : other == key
    · have differs : (other == asked) = false := by rw [BEq.congr_left same, h]
      simp [same, find?_cons, differs, ih]
    · simp [same, find?_cons, ih]

theorem find?_erase_self [PartialEquivBEq κ] (key : κ) (table : Table κ α) :
    (table.erase key).find? key = none := by
  induction table with
  | nil => rfl
  | cons first rest ih =>
    obtain ⟨other, entry⟩ := first
    unfold erase at ih ⊢
    by_cases same : other == key
    · simpa [same] using ih
    · simp [same, find?_cons, ih]

theorem find?_modify [LawfulBEq κ] (key asked : κ) (f : α → α) (table : Table κ α) :
    (table.modify key f).find? asked =
      (table.find? asked).map fun entry => if asked == key then f entry else entry := by
  induction table with
  | nil => rfl
  | cons first rest ih =>
    obtain ⟨other, entry⟩ := first
    unfold modify at ih ⊢
    rw [List.map_cons, find?_cons]
    by_cases here : other = asked
    · subst here
      by_cases same : other == key <;> simp [same, find?_cons]
    · by_cases same : other == key <;> simp [same, find?_cons, here, ih]

/-- What is found under a key is an entry of the table with the same key. -/
theorem exists_same_of_find?_eq_some {key : κ} {entry : α} {table : Table κ α} (h : table.find? key = some entry) :
    ∃ other, (other, entry) ∈ table ∧ (other == key) = true := by
  induction table with
  | nil => cases h
  | cons first rest ih =>
    obtain ⟨other, old⟩ := first
    rw [find?_cons] at h
    split at h
    · rename_i same
      cases h
      exact ⟨other, List.mem_cons_self, same⟩
    · obtain ⟨found, mem, same⟩ := ih h
      exact ⟨found, List.mem_cons_of_mem _ mem, same⟩

theorem exists_mem_of_find?_eq_some {key : κ} {entry : α} {table : Table κ α} (h : table.find? key = some entry) :
    ∃ other, (other, entry) ∈ table := by
  obtain ⟨other, mem, -⟩ := exists_same_of_find?_eq_some h
  exact ⟨other, mem⟩

theorem mem_of_mem_set {key : κ} {entry : α} {c : κ × α} {table : Table κ α} (h : c ∈ table.set key entry) :
    c.2 = entry ∨ c ∈ table := by
  induction table with
  | nil =>
    rw [List.mem_singleton.mp h]
    exact Or.inl rfl
  | cons first rest ih =>
    obtain ⟨other, old⟩ := first
    rw [set_cons] at h
    split at h
    · rcases List.mem_cons.mp h with rfl | later
      · exact Or.inl rfl
      · exact Or.inr (List.mem_cons_of_mem _ later)
    · rcases List.mem_cons.mp h with rfl | later
      · exact Or.inr List.mem_cons_self
      · exact (ih later).imp_right (List.mem_cons_of_mem _)

theorem isSome_find?_iff {table : Table κ α} {asked : κ} :
    (table.find? asked).isSome = true ↔ ∃ k ∈ table.keys, (k == asked) = true := by
  induction table with
  | nil => simp [keys]
  | cons entry rest ih =>
    obtain ⟨key, value⟩ := entry
    rw [find?_cons]
    by_cases here : (key == asked) = true
    · simp [here, keys]
    · simp only [keys] at ih
      simp [here, keys, ih]

theorem find?_congr [EquivBEq κ] (table : Table κ α) {a b : κ} (same : (a == b) = true) :
    table.find? a = table.find? b := by
  induction table with
  | nil => rfl
  | cons entry rest ih => rw [find?_cons, find?_cons, ih, BEq.congr_right same]

/-- A new entry comes last. -/
theorem set_of_fresh {key : κ} {table : Table κ α} (fresh : ∀ c ∈ table, (c.1 == key) = false) (entry : α) :
    table.set key entry = table ++ [(key, entry)] := by
  induction table with
  | nil => rfl
  | cons first rest ih =>
    obtain ⟨other, later⟩ := List.forall_mem_cons.mp fresh
    rw [set_cons, if_neg (by rw [other]; decide), ih later, List.cons_append]

/-- Among fields with different keys each is found under its own. -/
theorem find?_of_mem_pairwise [EquivBEq κ] {table : Table κ α}
    (distinct : table.Pairwise fun a b => (a.1 == b.1) = false) {c : κ × α} (mem : c ∈ table) :
    table.find? c.1 = some c.2 := by
  induction table with
  | nil => cases mem
  | cons first rest ih =>
    obtain ⟨apart, distinct⟩ := List.pairwise_cons.mp distinct
    rw [find?_cons]
    rcases List.mem_cons.mp mem with rfl | later
    · rw [if_pos BEq.rfl]
    · rw [if_neg (by rw [apart c later]; decide)]
      exact ih distinct later

end Table

/-- A text is the same key as its equal alone. -/
theorem Key.text_same_iff {name : String} {key : Key} : (Key.text name == key) = true ↔ key = .text name := by
  rw [same_iff]
  cases key <;> simp [identity, text?, numeric?, eq_comm]

theorem Key.text_differs {name : String} {key : Key} (h : key ≠ .text name) : (Key.text name == key) = false := by
  rw [Bool.eq_false_iff]
  intro same
  exact h (text_same_iff.mp same)

namespace Value

/-- Two answers are the same by the test by which the store keeps what it has, and what is no number is the same as
itself. -/
def Matches (stored v : Value) : Prop := stored = v ∨ stored.unchanged v = true

theorem unchanged_undefined_left {v : Value} : Value.undefined.unchanged v = true ↔ v = .undefined := by
  cases v <;> simp [unchanged]

theorem unchanged_undefined_right {v : Value} : v.unchanged .undefined = true ↔ v = .undefined := by
  cases v with
  | number n => cases n <;> simp [unchanged]
  | _ => simp [unchanged]

theorem eq_undefined_of_not_isDefined {v : Value} (h : v.isDefined = false) : v = .undefined := by
  cases v <;> simp_all [isDefined]

/-- Booleans, integers and texts. -/
def isPlain : Value → Bool
  | boolean _ => true
  | number (.int _) => true
  | text _ => true
  | _ => false

/-- Plain answers are the same only when they are equal, and so is an answer that is not there. -/
theorem Matches.eq {stored v : Value} (h : stored.Matches v) (plain : stored.isDefined = true → stored.isPlain = true) :
    stored = v := by
  rcases h with h | h
  · exact h
  · cases stored with
    | undefined => exact (unchanged_undefined_left.mp h).symm
    | boolean a => cases v <;> simp_all [unchanged]
    | number n =>
      cases n with
      | int a =>
        cases v with
        | number m => cases m <;> simp_all [unchanged]
        | _ => simp [unchanged] at h
      | float d => simp [isDefined, isPlain] at plain
    | text s => cases v <;> simp_all [unchanged]
    | sequence xs => simp [isDefined, isPlain] at plain
    | structured fs => simp [isDefined, isPlain] at plain

theorem unchanged_self {v : Value} (plain : v.isPlain = true) : v.unchanged v = true := by
  cases v with
  | number n => cases n <;> simp_all [isPlain, unchanged]
  | _ => simp_all [isPlain, unchanged]

end Value

namespace Fields

/-- The answers after a value is stored. -/
def put (answers : Fields) (key : Key) (v : Value) : Fields := (store? answers key v).getD answers

theorem find?_put_of_differs {answers : Fields} {key asked : Key} (v : Value) (h : (key == asked) = false) :
    (answers.put key v).find? asked = answers.find? asked := by
  unfold put store?
  simp only
  split
  · split
    · exact Table.find?_erase_of_differs h answers
    · rfl
  · split
    · rfl
    · exact Table.find?_set_of_differs answers v h

/-- What is stored under a key is found under it. -/
theorem matches_put (answers : Fields) (key : Key) (v : Value) : ((answers.put key v).lookUp key).Matches v := by
  unfold put store? lookUp
  simp only
  split
  · rename_i undefined
    have gone : v = .undefined := Value.eq_undefined_of_not_isDefined (by simpa using undefined)
    subst gone
    split
    · rw [Option.getD_some, Table.find?_erase_self]
      exact Or.inl rfl
    · rename_i absent
      exact Or.inl (Value.eq_undefined_of_not_isDefined (by simpa using absent))
  · split
    · rename_i same
      exact Or.inr same
    · rw [Option.getD_some, Table.find?_set_self]
      exact Or.inl rfl

/-- Storing the answer that is there changes nothing. -/
theorem store?_eq_none {answers : Fields} {key : Key} {v : Value} (same : answers.lookUp key = v)
    (plain : v.isDefined = true → v.isPlain = true) : store? answers key v = none := by
  rw [store?]
  simp only [same]
  cases defined : v.isDefined with
  | false => rfl
  | true => simp [Value.unchanged_self (plain defined)]

/-- No answer is undefined: such a value takes the answer away. -/
def AllDefined (answers : Fields) : Prop := ∀ entry ∈ answers, entry.2.isDefined = true

theorem AllDefined.set {answers : Fields} (h : AllDefined answers) {key : Key} {v : Value}
    (hv : v.isDefined = true) : AllDefined (Table.set key v answers) := by
  induction answers with
  | nil => simpa [AllDefined, Table.set] using hv
  | cons first rest ih =>
    obtain ⟨other, old⟩ := first
    obtain ⟨firstDefined, restDefined⟩ := List.forall_mem_cons.mp h
    rw [Table.set_cons]
    split
    · exact List.forall_mem_cons.mpr ⟨hv, restDefined⟩
    · exact List.forall_mem_cons.mpr ⟨firstDefined, ih restDefined⟩

theorem AllDefined.put {answers : Fields} (h : AllDefined answers) (key : Key) (v : Value) :
    AllDefined (answers.put key v) := by
  unfold Fields.put store?
  simp only
  split
  · split
    · intro entry hentry
      exact h entry (List.mem_filter.mp hentry).1
    · exact h
  · rename_i defined
    split
    · exact h
    · exact h.set (by simpa using defined)

/-- Without undefined answers, a key that shows none has none. -/
theorem find?_eq_none_of_lookUp {answers : Fields} (h : AllDefined answers) {key : Key}
    (absent : answers.lookUp key = .undefined) : answers.find? key = none := by
  cases found : answers.find? key with
  | none => rfl
  | some v =>
    obtain ⟨other, mem⟩ := Table.exists_mem_of_find?_eq_some found
    have defined := h _ mem
    rw [lookUp, found, Option.getD_some] at absent
    simp [absent, Value.isDefined] at defined

/-- Without undefined answers, what two tables show alike they hold alike. -/
theorem find?_eq_of_lookUp {answers others : Fields} (h : AllDefined answers) (h' : AllDefined others) {key : Key}
    (same : answers.lookUp key = others.lookUp key) : answers.find? key = others.find? key := by
  cases found : answers.find? key with
  | none =>
    have absent : others.lookUp key = .undefined := by rw [← same, lookUp, found, Option.getD_none]
    exact (find?_eq_none_of_lookUp h' absent).symm
  | some v =>
    cases found' : others.find? key with
    | none =>
      have absent : answers.lookUp key = .undefined := by rw [same, lookUp, found', Option.getD_none]
      rw [find?_eq_none_of_lookUp h absent] at found
      cases found
    | some v' =>
      rw [lookUp, lookUp, found, found'] at same
      exact congrArg some same

end Fields

end Questionnaire
