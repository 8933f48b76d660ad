import Mathlib.Data.Finset.Card
import Questionnaire.Proofs.Logic.Feedback

/-!
# Levels

Levels stratify the questions: a question that nothing writes has level zero, a written one lies one above the deepest
question that a writer of it reads.  Two ways lead to them.

Raised round by round until they stay, levels exist.  That they do stay after as many rounds as there are written
questions is an argument on *height*, the number of written questions from which a chain of edges leads to a
question.  Edges go up in height because there are no cycles, and after `k` rounds every level of a height below `k`
has its last value.

The recursion finds the same levels, from whatever it has already noted in its draft and in whatever order it is asked.
It carries an invariant: the levels in the draft are right, and placeholders stand for *opened* questions alone, those
whose level is being found.  From the question that is asked for a chain of edges leads to every opened one, so without
cycles it is none of them, and the search never meets a placeholder.
-/
namespace Questionnaire

/-! ## The greatest of some numbers -/

theorem le_greatestOf {n : Nat} {ns : List Nat} (h : n ∈ ns) : n ≤ greatestOf ns := by
  induction ns with
  | nil => cases h
  | cons m rest ih =>
    rw [greatestOf, List.foldr_cons, ← greatestOf]
    rcases List.mem_cons.mp h with rfl | h
    · exact Nat.le_max_left _ _
    · exact (ih h).trans (Nat.le_max_right _ _)

theorem greatestOf_le {k : Nat} {ns : List Nat} (h : ∀ n ∈ ns, n ≤ k) : greatestOf ns ≤ k := by
  induction ns with
  | nil => exact Nat.zero_le k
  | cons m rest ih =>
    obtain ⟨first, later⟩ := List.forall_mem_cons.mp h
    exact Nat.max_le.mpr ⟨first, ih later⟩

/-- The greatest of some numbers does not depend on their order. -/
theorem greatestOf_congr {ns ms : List Nat} (same : ∀ n, n ∈ ns ↔ n ∈ ms) : greatestOf ns = greatestOf ms :=
  Nat.le_antisymm (greatestOf_le fun n h => le_greatestOf ((same n).mp h))
    (greatestOf_le fun n h => le_greatestOf ((same n).mpr h))

/-- A table with an entry for each of some things, under a key of its own or under a key that fixes the entry. -/
theorem Table.find?_map_of_mem {κ α β : Type} [BEq κ] [LawfulBEq κ] (key : β → κ) (f : β → α) {x : β} {xs : List β}
    (h : x ∈ xs) (fixed : ∀ y ∈ xs, key y = key x → f y = f x) :
    Table.find? (xs.map fun y => (key y, f y)) (key x) = some (f x) := by
  induction xs with
  | nil => cases h
  | cons first rest ih =>
    obtain ⟨here, later⟩ := List.forall_mem_cons.mp fixed
    rw [List.map_cons, Table.find?_cons]
    by_cases same : key first = key x
    · simp [same, here same]
    · have mem : x ∈ rest := by
        refine (List.mem_cons.mp h).resolve_left ?_
        rintro rfl
        exact same rfl
      simp [same, ih mem later]

theorem Table.find?_map_of_not_mem {α : Type} (f : String → α) {name : String} {names : List String}
    (h : name ∉ names) : Table.find? (names.map fun n => (n, f n)) name = none := by
  induction names with
  | nil => rfl
  | cons first rest ih =>
    rw [List.mem_cons, not_or] at h
    rw [List.map_cons, Table.find?_cons]
    simp [Ne.symm h.1, ih h.2]

open Feedback (Edge)

namespace Ranking

theorem mem_written {bindings : List Binding} {name : String} :
    name ∈ written bindings ↔ ∃ b ∈ bindings, b.writesValue = true ∧ b.owner = name := by
  simp [written, Names.mem_ofList, and_assoc]

theorem mem_writers {bindings : List Binding} {name : String} {b : Binding} :
    b ∈ writers bindings name ↔ b ∈ bindings ∧ b.writesValue = true ∧ b.owner = name := by
  simp [writers]

theorem writers_of_not_mem_written {bindings : List Binding} {name : String} (h : name ∉ written bindings) :
    writers bindings name = [] := by
  rw [List.eq_nil_iff_forall_not_mem]
  intro b hb
  exact h (mem_written.mpr ⟨b, mem_writers.mp hb⟩)

/-! ## Height -/

section Height

open Classical in
/-- The number of written questions from which a chain of edges leads to a question. -/
noncomputable def height (bindings : List Binding) (name : String) : Nat :=
  ((written bindings).toFinset.filter fun source => Relation.TransGen (Edge bindings) source name).card

variable {bindings : List Binding} (acyclic : ∀ name, ¬ Relation.TransGen (Edge bindings) name name)
include acyclic

theorem height_lt_of_edge {x y : String} (hx : x ∈ written bindings) (edge : Edge bindings x y) :
    height bindings x < height bindings y := by
  classical
  refine Finset.card_lt_card ⟨?_, ?_⟩
  · intro source h
    rw [Finset.mem_filter] at h ⊢
    exact ⟨h.1, h.2.tail edge⟩
  · intro h
    have below : x ∈ (written bindings).toFinset.filter fun source =>
        Relation.TransGen (Edge bindings) source y :=
      Finset.mem_filter.mpr ⟨List.mem_toFinset.mpr hx, .single edge⟩
    exact acyclic x (Finset.mem_filter.mp (h below)).2

theorem height_lt {name : String} (h : name ∈ written bindings) :
    height bindings name < (written bindings).length := by
  classical
  have less : height bindings name < (written bindings).toFinset.card := by
    refine Finset.card_lt_card (Finset.filter_ssubset.mpr ⟨name, List.mem_toFinset.mpr h, acyclic name⟩)
  exact less.trans_le (List.toFinset_card_le _)

end Height

/-! ## Stratified questions -/

/-- Every question lies one above the deepest question that a writer of it reads; at zero if it has no writer. -/
def Stratifies (bindings : List Binding) (level : String → Nat) : Prop :=
  ∀ name, level name =
    greatestOf ((writers bindings name).map fun b => 1 + greatestOf (b.references.map level))

namespace Stratifies

variable {bindings : List Binding} {level : String → Nat} (stratifies : Stratifies bindings level)
include stratifies

/-- What a binding writes lies above all that it reads. -/
theorem rank_lt {b : Binding} (mem : b ∈ bindings) (writes : b.writesValue = true) :
    greatestOf (b.references.map level) < level b.owner := by
  rw [stratifies b.owner]
  have le := le_greatestOf (List.mem_map_of_mem (f := fun b => 1 + greatestOf (b.references.map level))
    (mem_writers.mpr ⟨mem, writes, rfl⟩))
  omega

theorem lt_of_edge {x y : String} (edge : Edge bindings x y) : level x < level y := by
  obtain ⟨b, mem, writes, reads, rfl⟩ := edge
  exact (le_greatestOf (List.mem_map_of_mem reads)).trans_lt (stratifies.rank_lt mem writes)

theorem eq_zero {name : String} (h : name ∉ written bindings) : level name = 0 := by
  rw [stratifies name, writers_of_not_mem_written h]
  rfl

/-- A level is at most one more than a height. -/
theorem le_height (acyclic : ∀ name, ¬ Relation.TransGen (Edge bindings) name name) (name : String) :
    level name ≤ height bindings name + 1 := by
  induction below : level name using Nat.strongRecOn generalizing name with
  | ind n ih =>
    rw [← below, stratifies name]
    refine greatestOf_le ?_
    intro n hn
    obtain ⟨b, hb, rfl⟩ := List.mem_map.mp hn
    obtain ⟨mem, writes, rfl⟩ := mem_writers.mp hb
    rw [Nat.add_comm, Nat.add_le_add_iff_right]
    refine greatestOf_le ?_
    intro m hm
    obtain ⟨source, reads, rfl⟩ := List.mem_map.mp hm
    have edge : Edge bindings source b.owner := ⟨b, mem, writes, reads, rfl⟩
    by_cases deep : source ∈ written bindings
    · have lower := ih (level source) (below ▸ stratifies.lt_of_edge edge) source rfl
      have up := height_lt_of_edge acyclic deep edge
      omega
    · rw [stratifies.eq_zero deep]
      exact Nat.zero_le _

/-- No question lies deeper than there are written ones. -/
theorem le_length (acyclic : ∀ name, ¬ Relation.TransGen (Edge bindings) name name) (name : String) :
    level name ≤ (written bindings).length := by
  by_cases deep : name ∈ written bindings
  · exact (stratifies.le_height acyclic name).trans (height_lt acyclic deep)
  · rw [stratifies.eq_zero deep]
    exact Nat.zero_le _

end Stratifies

end Ranking

/-! ## Levels that are raised until they stay -/

/-- Levels of questions; a question without an entry has level zero. -/
abbrev Levels := Table String Nat

namespace Levels

open Ranking

def of (levels : Levels) (name : String) : Nat := (levels.find? name).getD 0

/-- The level of the deepest question that a binding reads. -/
def rank (levels : Levels) (b : Binding) : Nat := greatestOf (b.references.map levels.of)

/-- Puts every written question one above the deepest question that a writer of it reads. -/
def raise (bindings : List Binding) (levels : Levels) : Levels :=
  (written bindings).map fun name =>
    (name, greatestOf ((writers bindings name).map fun b => 1 + levels.rank b))

/-- Raises levels until they stay, at most `rounds` times. -/
def raiseWithin (bindings : List Binding) : (rounds : Nat) → Levels → Levels
  | 0, levels => levels
  | rounds + 1, levels =>
    let next := raise bindings levels
    if next == levels then levels else raiseWithin bindings rounds next

/-- The levels of the questions that some bindings write.  Without feedback they stay after as many rounds as
there are such questions. -/
def ofBindings (bindings : List Binding) : Levels :=
  raiseWithin bindings (written bindings).length ((written bindings).map (·, 0))

theorem of_le_rank {levels : Levels} {b : Binding} {name : String} (h : name ∈ b.references) :
    levels.of name ≤ levels.rank b :=
  le_greatestOf (List.mem_map_of_mem h)

theorem rank_congr {levels others : Levels} {b : Binding}
    (h : ∀ name ∈ b.references, levels.of name = others.of name) : levels.rank b = others.rank b := by
  rw [rank, rank, List.map_congr_left h]

/-- A round puts a question one above the deepest question that its writers read; it has level zero if it has no
writers. -/
theorem of_raise (bindings : List Binding) (levels : Levels) (name : String) :
    (raise bindings levels).of name =
      greatestOf ((writers bindings name).map fun b => 1 + levels.rank b) := by
  unfold raise of
  by_cases h : name ∈ written bindings
  · rw [Table.find?_map_of_mem (fun n => n) _ h fun y _ same => by rw [same], Option.getD_some]
  · rw [Table.find?_map_of_not_mem _ h, writers_of_not_mem_written h]
    rfl

/-- Raising within some rounds makes all of them unless the levels stay before that. -/
theorem exists_iterate_of_raiseWithin (bindings : List Binding) (rounds : Nat) (levels : Levels) :
    ∃ k, raiseWithin bindings rounds levels = (raise bindings)^[k] levels ∧
      (k = rounds ∨ (raise bindings)^[k + 1] levels = (raise bindings)^[k] levels) := by
  induction rounds generalizing levels with
  | zero => exact ⟨0, rfl, Or.inl rfl⟩
  | succ rounds ih =>
    rw [raiseWithin]
    by_cases stays : raise bindings levels = levels
    · exact ⟨0, by simp [stays], Or.inr stays⟩
    · obtain ⟨k, eq, last⟩ := ih (raise bindings levels)
      refine ⟨k + 1, by simpa [stays] using eq, ?_⟩
      rcases last with rfl | last
      · exact Or.inl rfl
      · exact Or.inr last

section

variable {bindings : List Binding} (acyclic : ∀ name, ¬ Relation.TransGen (Edge bindings) name name)
include acyclic

/-- After `k` rounds the questions of a height below `k`, and those that nothing writes, keep their levels. -/
theorem of_iterate_succ {start : Levels} (ground : ∀ name ∉ written bindings, start.of name = 0) (k : Nat)
    {name : String} (low : name ∈ written bindings → height bindings name < k) :
    ((raise bindings)^[k + 1] start).of name = ((raise bindings)^[k] start).of name := by
  induction k generalizing name with
  | zero =>
    have unwritten : name ∉ written bindings := by
      intro h
      exact absurd (low h) (Nat.not_lt_zero _)
    rw [Function.iterate_succ_apply', Function.iterate_zero_apply, of_raise, writers_of_not_mem_written unwritten,
      ground name unwritten]
    rfl
  | succ k ih =>
    rw [Function.iterate_succ_apply', Function.iterate_succ_apply' _ k, of_raise, of_raise]
    congr 1
    refine List.map_congr_left ?_
    intro b hb
    obtain ⟨mem, writes, owns⟩ := mem_writers.mp hb
    have inputs : ∀ source ∈ b.references,
        ((raise bindings)^[k + 1] start).of source = ((raise bindings)^[k] start).of source := by
      intro source reads
      refine ih ?_
      intro written
      have up := height_lt_of_edge acyclic written ⟨b, mem, writes, reads, owns⟩
      have := low (mem_written.mpr ⟨b, mem, writes, owns⟩)
      omega
    rw [← Function.iterate_succ_apply' (raise bindings), rank_congr inputs]

/-- Without cycles the levels of some bindings are those that another round would give. -/
theorem of_raise_ofBindings (name : String) :
    (raise bindings (ofBindings bindings)).of name = (ofBindings bindings).of name := by
  have ground : ∀ name ∉ written bindings,
      of ((written bindings).map fun n => (n, 0)) name = 0 := by
    intro name h
    rw [of, Table.find?_map_of_not_mem _ h]
    rfl
  obtain ⟨k, eq, last⟩ := exists_iterate_of_raiseWithin bindings (written bindings).length
    ((written bindings).map fun n => (n, 0))
  rw [ofBindings, eq, ← Function.iterate_succ_apply' (raise bindings)]
  rcases last with rfl | last
  · exact of_iterate_succ acyclic ground _ (height_lt acyclic)
  · rw [last]

theorem stratifies_ofBindings : Stratifies bindings (ofBindings bindings).of := by
  intro name
  rw [← of_raise_ofBindings acyclic, of_raise]
  rfl

/-- What a binding writes lies above all that it reads. -/
theorem rank_lt_of_owner {b : Binding} (mem : b ∈ bindings) (writes : b.writesValue = true) :
    (ofBindings bindings).rank b < (ofBindings bindings).of b.owner :=
  (stratifies_ofBindings acyclic).rank_lt mem writes

end

end Levels

/-! ## Levels that the recursion finds -/

namespace Ranking

/-- A search that starts from a draft of some kind ends with a result, and leaves a draft of that kind. -/
def Finds {α : Type} (kind : Draft → Prop) (search : StateT Draft Option α) (x : α) : Prop :=
  ∀ draft, kind draft → ∃ draft', search draft = some (x, draft') ∧ kind draft'

namespace Finds

variable {α β : Type} {kind : Draft → Prop}

theorem pure (x : α) : Finds kind (pure x) x := fun draft h => ⟨draft, rfl, h⟩

theorem bind {search : StateT Draft Option α} {next : α → StateT Draft Option β} {x : α} {y : β}
    (first : Finds kind search x) (second : Finds kind (next x) y) : Finds kind (search >>= next) y := by
  intro draft h
  obtain ⟨draft₁, found, h₁⟩ := first draft h
  obtain ⟨draft₂, found', h₂⟩ := second draft₁ h₁
  refine ⟨draft₂, ?_, h₂⟩
  show (search draft).bind (fun r => next r.1 r.2) = some (y, draft₂)
  rw [found]
  exact found'

theorem greatest {find : α → StateT Draft Option Nat} {value : α → Nat} {xs : List α}
    (each : ∀ x ∈ xs, Finds kind (find x) (value x)) :
    Finds kind (Ranking.greatest find xs) (greatestOf (xs.map value)) := by
  induction xs with
  | nil => exact pure 0
  | cons x rest ih =>
    obtain ⟨first, later⟩ := List.forall_mem_cons.mp each
    exact first.bind ((ih later).bind (pure _))

theorem mapM {find : α → StateT Draft Option β} {value : α → β} {xs : List α}
    (each : ∀ x ∈ xs, Finds kind (find x) (value x)) : Finds kind (xs.mapM find) (xs.map value) := by
  induction xs with
  | nil => exact pure []
  | cons x rest ih =>
    obtain ⟨first, later⟩ := List.forall_mem_cons.mp each
    rw [List.mapM_cons]
    exact first.bind ((ih later).bind (pure _))

end Finds

/-- The levels in a draft are right, and placeholders stand for some opened questions alone. -/
structure Sound (level : String → Nat) (opened : List String) (draft : Draft) : Prop where
  right : ∀ {name n}, draft.find? name = some (some n) → n = level name
  opened : ∀ {name}, draft.find? name = some none → name ∈ opened

namespace Sound

variable {level : String → Nat} {opened : List String} {draft : Draft} {name : String}

theorem empty : Sound level [] [] where
  right h := nomatch h
  opened h := nomatch h

theorem find?_set (asked : String) (entry : Option Nat) :
    Table.find? (Table.set name entry draft) asked = if name = asked then some entry else Table.find? draft asked := by
  split
  · rename_i same
    rw [same, Table.find?_set_self]
  · rename_i other
    exact Table.find?_set_of_differs draft entry (by simpa using other)

/-- A placeholder is put for a question. -/
theorem hold (sound : Sound level opened draft) : Sound level (name :: opened) (Table.set name none draft) where
  right {asked n} h := by
    rw [find?_set] at h
    split at h
    · cases h
    · exact sound.right h
  opened {asked} h := by
    rw [find?_set] at h
    split at h
    · rename_i same
      exact same ▸ List.mem_cons_self
    · exact List.mem_cons_of_mem _ (sound.opened h)

/-- The level of a question takes the place of its placeholder. -/
theorem enter (sound : Sound level (name :: opened) draft) :
    Sound level opened (Table.set name (some (level name)) draft) where
  right {asked n} h := by
    rw [find?_set] at h
    split at h
    · rename_i same
      cases h
      rw [same]
    · exact sound.right h
  opened {asked} h := by
    rw [find?_set] at h
    split at h
    · cases h
    · rename_i other
      exact (List.mem_cons.mp (sound.opened h)).resolve_left (Ne.symm other)

end Sound

section

variable {bindings : List Binding} {unfinished : Option Nat} {depth : Nat} {name : String} {draft : Draft}

/-- A search goes by what the draft says of the question. -/
theorem levelWithin_succ : levelWithin bindings unfinished (depth + 1) name draft =
    match draft.find? name with
    | some (some n) => some (n, draft)
    | some none => unfinished.map (·, draft)
    | none => (above (levelWithin bindings unfinished depth) (writers bindings name) (Table.set name none draft)).map
        fun r => (r.1, Table.set name (some r.1) r.2) := by
  rw [levelWithin]
  show (match draft.find? name with
    | some (some n) => pure n
    | some none => StateT.lift unfinished
    | none => _ : StateT Draft Option Nat) draft = _
  cases draft.find? name with
  | none =>
    show _ = Option.map _ _
    rw [Option.map_eq_bind]
    rfl
  | some noted =>
    cases noted with
    | none =>
      show _ = Option.map _ _
      rw [Option.map_eq_bind]
      rfl
    | some n => rfl

end

section

variable {bindings : List Binding} {level : String → Nat} (unfinished : Option Nat)
variable (acyclic : ∀ name, ¬ Relation.TransGen (Edge bindings) name name) (stratifies : Stratifies bindings level)
include acyclic stratifies

/-- By induction on the depth: what is read lies less deep, and behind it there is one more opened question. -/
theorem finds_levelWithin {depth : Nat} {name : String} {opened : List String} (deep : level name < depth)
    (leads : ∀ x ∈ opened, Relation.TransGen (Edge bindings) name x) :
    Finds (Sound level opened) (levelWithin bindings unfinished depth name) (level name) := by
  induction depth generalizing name opened with
  | zero => exact absurd deep (Nat.not_lt_zero _)
  | succ depth ih =>
    intro draft sound
    cases entry : draft.find? name with
    | some noted =>
      cases noted with
      | some n =>
        rw [sound.right entry] at entry
        exact ⟨draft, by rw [levelWithin_succ, entry], sound⟩
      | none => exact absurd (leads name (sound.opened entry)) (acyclic name)
    | none =>
      have read : ∀ b ∈ writers bindings name, ∀ source ∈ b.references,
          Finds (Sound level (name :: opened)) (levelWithin bindings unfinished depth source) (level source) := by
        intro b hb source reads
        obtain ⟨mem, writes, owns⟩ := mem_writers.mp hb
        have edge : Edge bindings source name := ⟨b, mem, writes, reads, owns⟩
        have lower := stratifies.lt_of_edge edge
        refine ih (by omega) ?_
        intro x hx
        rcases List.mem_cons.mp hx with rfl | hx
        · exact .single edge
        · exact .head edge (leads x hx)
      have found : Finds (Sound level (name :: opened))
          (above (levelWithin bindings unfinished depth) (writers bindings name)) (level name) := by
        rw [stratifies name]
        exact Finds.greatest fun b hb => (Finds.greatest (read b hb)).bind (Finds.pure _)
      obtain ⟨draft', run, sound'⟩ := found _ sound.hold
      refine ⟨_, ?_, sound'.enter⟩
      rw [levelWithin_succ, entry]
      show Option.map _ _ = _
      rw [run, Option.map_some]

theorem finds_level (name : String) : Finds (Sound level []) (Ranking.level bindings unfinished name) (level name) :=
  finds_levelWithin unfinished acyclic stratifies (Nat.lt_succ_of_le (stratifies.le_length acyclic name))
    fun _ h => absurd h List.not_mem_nil

/-- The ranks that are found are those of the levels, whatever a placeholder counts as. -/
theorem ranks_eq :
    ranks bindings unfinished = some (bindings.map fun b => (b.order, greatestOf (b.references.map level))) := by
  have found : Finds (Sound level [])
      (bindings.mapM fun b => do return (b.order, ← rank (Ranking.level bindings unfinished) b))
      (bindings.map fun b => (b.order, greatestOf (b.references.map level))) := by
    refine Finds.mapM ?_
    intro b _
    exact (Finds.greatest fun name _ => finds_level unfinished acyclic stratifies name).bind (Finds.pure _)
  obtain ⟨draft, run, -⟩ := found [] Sound.empty
  rw [ranks, StateT.run', run]
  rfl

end

end Ranking

end Questionnaire
