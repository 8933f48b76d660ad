import Mathlib.Data.List.Chain
import Questionnaire.Proofs.Logic.Order

/-!
# Every reported path is a loop, and every loop is reported

A binding lies on a *loop* when a chain of bindings, each of which writes a question that the next one reads, leads
from it back to it.  The search for feedback goes from question to question and not from binding to binding.  Its
paths are *routes*: they start where the search does and follow edges, and a path is only ever made longer by a
question that is written from the one it ends at.  So what the search reports are routes back.  A loop is never lost,
because a search without a report has seen all that can be reached.
-/
namespace Questionnaire

namespace Feedback

/-! ## What the search reports -/

/-- A path from a question along edges. -/
structure Route (bindings : List Binding) (start : String) (path : List String) : Prop where
  head : path.head? = some start
  edges : path.IsChain (Edge bindings)

namespace Route

variable {bindings : List Binding} {start name : String} {path : List String}

theorem single (bindings : List Binding) (start : String) : Route bindings start [start] where
  head := rfl
  edges := .singleton start

theorem getLast? (route : Route bindings start path) : path.getLast? = some (tip path) := by
  cases path with
  | nil => cases route.head
  | cons first rest => rw [tip, List.getLast?_cons, Option.getD_some]

theorem append (route : Route bindings start path) (edge : Edge bindings (tip path) name) :
    Route bindings start (path ++ [name]) where
  head := by rw [List.head?_append, route.head, Option.some_or]
  edges := by
    refine List.isChain_append.mpr ⟨route.edges, .singleton name, ?_⟩
    intro x hx y hy
    rw [route.getLast?] at hx
    cases hx
    cases hy
    exact edge

theorem reaches (route : Route bindings start path) : Relation.ReflTransGen (Edge bindings) start (tip path) := by
  cases path with
  | nil => cases route.head
  | cons first rest =>
    cases route.head
    refine List.relationReflTransGen_of_exists_isChain_cons rest route.edges ?_
    rw [tip, List.getLast?_eq_getLast_of_ne_nil (List.cons_ne_nil _ _), Option.getD_some]

end Route

section Visit

variable {targets path : List String}

/-- The search ends at a target among the successors, with one more step on its path. -/
theorem visit_error {names seen found : List String} {stack : List (List String)}
    (h : visit targets path names seen stack = .error found) :
    ∃ name ∈ names, name ∈ targets ∧ found = path ++ [name] := by
  induction names generalizing seen stack with
  | nil => cases h
  | cons name rest ih =>
    have later {seen : List String} {stack : List (List String)}
        (h : visit targets path rest seen stack = .error found) :
        ∃ other ∈ name :: rest, other ∈ targets ∧ found = path ++ [other] := by
      obtain ⟨other, mem, target, eq⟩ := ih h
      exact ⟨other, List.mem_cons_of_mem _ mem, target, eq⟩
    rw [visit] at h
    split at h
    · rename_i target
      cases h
      exact ⟨name, List.mem_cons_self, List.contains_iff_mem.mp target, rfl⟩
    · split at h
      · exact later h
      · exact later h

/-- What is new on the stack is the path with one more step. -/
theorem visit_stack {names seen seen' : List String} {stack stack' : List (List String)}
    (h : visit targets path names seen stack = .ok (seen', stack')) {other : List String} (mem : other ∈ stack') :
    other ∈ stack ∨ ∃ name ∈ names, other = path ++ [name] := by
  induction names generalizing seen stack with
  | nil =>
    cases h
    exact Or.inl mem
  | cons name rest ih =>
    rw [visit] at h
    split at h
    · cases h
    · split at h
      · refine (ih h).imp id ?_
        rintro ⟨later, hlater, eq⟩
        exact ⟨later, List.mem_cons_of_mem _ hlater, eq⟩
      · rcases ih h with old | ⟨later, hlater, eq⟩
        · rcases List.mem_cons.mp old with rfl | old
          · exact Or.inr ⟨name, List.mem_cons_self, rfl⟩
          · exact Or.inl old
        · exact Or.inr ⟨later, List.mem_cons_of_mem _ hlater, eq⟩

end Visit

variable {bindings : List Binding} {start : String} {targets found : List String}

/-- With routes on its stack a search reports a route to a target. -/
theorem search_some {steps : Nat} {seen : List String} {stack : List (List String)}
    (routes : ∀ path ∈ stack, Route bindings start path)
    (h : search bindings targets steps seen stack = some found) :
    Route bindings start found ∧ tip found ∈ targets := by
  induction steps generalizing seen stack with
  | zero => cases h
  | succ steps ih =>
    cases stack with
    | nil => cases h
    | cons path stack =>
      obtain ⟨route, routes⟩ := List.forall_mem_cons.mp routes
      have longer : ∀ name ∈ successors bindings (tip path), Route bindings start (path ++ [name]) := by
        intro name mem
        exact route.append (mem_successors.mp mem)
      rw [search] at h
      split at h
      · rename_i reported visited
        cases h
        obtain ⟨name, mem, target, rfl⟩ := visit_error visited
        exact ⟨longer name mem, by rwa [tip_append]⟩
      · rename_i seen' stack' visited
        refine ih ?_ h
        intro other mem
        rcases visit_stack visited mem with old | ⟨name, written, rfl⟩
        · exact routes other old
        · exact longer name written

theorem path?_some (h : path? bindings start targets = some found) :
    Route bindings start found ∧ tip found ∈ targets := by
  rw [path?] at h
  split at h
  · rename_i target
    cases h
    exact ⟨.single bindings start, List.contains_iff_mem.mp target⟩
  · refine search_some ?_ h
    intro path mem
    rw [List.mem_singleton.mp mem]
    exact .single bindings start

/-- The path of a binding that feeds back into itself leads along edges from its owner to its owner. -/
theorem cycle?_some {b : Binding} (mem : b ∈ bindings) (h : cycle? bindings b = some found) :
    2 ≤ found.length ∧ found.getLast? = some b.owner ∧ Route bindings b.owner found := by
  rw [cycle?] at h
  split at h
  · rename_i writes
    obtain ⟨path, searched, rfl⟩ := Option.map_eq_some_iff.mp h
    obtain ⟨route, target⟩ := path?_some searched
    have back : Edge bindings (tip path) b.owner := ⟨b, mem, writes, target, rfl⟩
    have long : 1 ≤ path.length := by
      cases path with
      | nil => cases route.head
      | cons first rest => exact Nat.succ_le_succ (Nat.zero_le _)
    refine ⟨?_, List.getLast?_concat, route.append back⟩
    rw [List.length_append, List.length_singleton]
    exact Nat.succ_le_succ long
  · cases h

/-! ## Loops -/

/-- A binding feeds back into itself exactly if a chain of edges leads from what it writes to something that it
reads. -/
theorem isSome_cycle?_iff {b : Binding} : (cycle? bindings b).isSome = true ↔
    b.writesValue = true ∧ ∃ x ∈ b.references, Relation.ReflTransGen (Edge bindings) b.owner x := by
  constructor
  · intro some
    obtain ⟨found, h⟩ := Option.isSome_iff_exists.mp some
    rw [cycle?] at h
    split at h
    · rename_i writes
      obtain ⟨path, searched, -⟩ := Option.map_eq_some_iff.mp h
      obtain ⟨route, target⟩ := path?_some searched
      exact ⟨writes, tip path, target, route.reaches⟩
    · cases h
  · rintro ⟨writes, x, reads, chain⟩
    rw [Option.isSome_iff_ne_none]
    intro none
    exact not_mem_of_cycle?_eq_none writes none chain reads

/-- The order of the bindings has no part in which of them feed back into themselves. -/
theorem isSome_cycle?_congr {others : List Binding} (same : ∀ b, b ∈ bindings ↔ b ∈ others) (b : Binding) :
    (cycle? bindings b).isSome = (cycle? others b).isSome := by
  have edges : Edge bindings = Edge others := by
    funext x y
    exact propext ⟨Edge.mono fun b mem => (same b).mp mem, Edge.mono fun b mem => (same b).mpr mem⟩
  rw [Bool.eq_iff_iff, isSome_cycle?_iff, isSome_cycle?_iff, edges]

/-- A chain of bindings leads from a binding back to it, each of them writing a question that the next one reads. -/
def OnLoop (bindings : List Binding) (b : Binding) : Prop :=
  ∃ between ⊆ bindings, (b :: (between ++ [b])).IsChain Binding.Feeds

/-- Along a chain of bindings, edges lead from what the first one writes to something that the last one reads. -/
theorem exists_reads_of_isChain {w r : Binding} {between : List Binding} (sub : between ⊆ bindings)
    (chain : (w :: (between ++ [r])).IsChain Binding.Feeds) :
    w.writesValue = true ∧ ∃ x ∈ r.references, Relation.ReflTransGen (Edge bindings) w.owner x := by
  induction between generalizing w with
  | nil =>
    have feeds := (List.isChain_cons_cons.mp chain).1
    exact ⟨feeds.1, w.owner, feeds.2, .refl⟩
  | cons next rest ih =>
    obtain ⟨mem, sub⟩ := List.cons_subset.mp sub
    obtain ⟨feeds, chain⟩ := List.isChain_cons_cons.mp chain
    obtain ⟨writes, x, reads, reaches⟩ := ih sub chain
    exact ⟨feeds.1, x, reads, .head ⟨next, mem, writes, feeds.2, rfl⟩ reaches⟩

/-- Every chain of edges comes from a chain of bindings. -/
theorem exists_isChain_of_reads {r : Binding} {name x : String} (reads : x ∈ r.references)
    (reaches : Relation.ReflTransGen (Edge bindings) name x) {w : Binding} (writes : w.writesValue = true)
    (owns : w.owner = name) :
    ∃ between ⊆ bindings, (w :: (between ++ [r])).IsChain Binding.Feeds := by
  induction reaches using Relation.ReflTransGen.head_induction_on generalizing w with
  | refl =>
    refine ⟨[], List.nil_subset _, List.isChain_cons_cons.mpr ⟨⟨writes, ?_⟩, .singleton r⟩⟩
    rwa [owns]
  | head edge _ ih =>
    obtain ⟨next, mem, nextWrites, nextReads, nextOwns⟩ := edge
    obtain ⟨between, sub, chain⟩ := ih nextWrites nextOwns
    refine ⟨next :: between, List.cons_subset.mpr ⟨mem, sub⟩, List.isChain_cons_cons.mpr ⟨⟨writes, ?_⟩, chain⟩⟩
    rwa [owns]

theorem onLoop_iff {b : Binding} : OnLoop bindings b ↔
    b.writesValue = true ∧ ∃ x ∈ b.references, Relation.ReflTransGen (Edge bindings) b.owner x := by
  constructor
  · rintro ⟨between, sub, chain⟩
    exact exists_reads_of_isChain sub chain
  · rintro ⟨writes, x, reads, reaches⟩
    exact exists_isChain_of_reads reads reaches writes rfl

theorem mem_cycles {order : Nat} {path : List String} :
    (order, path) ∈ cycles bindings ↔ ∃ b ∈ bindings, cycle? bindings b = some path ∧ b.order = order := by
  simp only [cycles, List.mem_filterMap, Option.map_eq_some_iff, Prod.mk.injEq]
  constructor
  · rintro ⟨b, mem, found, eq, rfl, rfl⟩
    exact ⟨b, mem, eq, rfl⟩
  · rintro ⟨b, mem, eq, rfl⟩
    exact ⟨b, mem, path, eq, rfl, rfl⟩

open Dependencies (Numbered)

/-- A number is among the cycles exactly if the binding of that number lies on a loop, and the path that is reported
for it starts and ends at its owner and follows edges. -/
theorem cycles_exact (numbered : Numbered bindings) {b : Binding} (mem : b ∈ bindings) :
    ((∃ path, (b.order, path) ∈ cycles bindings) ↔ OnLoop bindings b) ∧
    ∀ path, (b.order, path) ∈ cycles bindings →
      2 ≤ path.length ∧ path.head? = some b.owner ∧ path.getLast? = some b.owner ∧ path.IsChain (Edge bindings) := by
  have own {path : List String} : (b.order, path) ∈ cycles bindings ↔ cycle? bindings b = some path := by
    rw [mem_cycles]
    constructor
    · rintro ⟨other, mem', found, same⟩
      rwa [← numbered.eq mem' mem same]
    · intro found
      exact ⟨b, mem, found, rfl⟩
  constructor
  · rw [onLoop_iff, ← isSome_cycle?_iff, Option.isSome_iff_exists]
    exact exists_congr fun path => own
  · intro path reported
    obtain ⟨long, last, route⟩ := cycle?_some mem (own.mp reported)
    exact ⟨long, route.head, last, route.edges⟩

/-- A binding that gives a question the answer of another one. -/
def Sample.copying (order : Nat) (owner source : String) : Binding where
  kind := .setValueExpression
  owner := owner
  ownerKind := .question
  property := .setValueExpression
  expression := .reference source
  source := "\x7b" ++ source ++ "\x7d"
  order := order
  gate := none
  literal := .undefined
  references := [source]

/-- Two questions copied from one another and one copied from a copy, not in definition order. -/
def Sample.copies : List Binding :=
  [copying 3 "d" "c", copying 4 "x" "y", copying 1 "b" "a", copying 2 "c" "b", copying 5 "y" "x", copying 6 "z" "x",
   copying 0 "d" "a"]

theorem Sample.numbered : Numbered copies := by
  show [3, 4, 1, 2, 5, 6, 0].Nodup
  decide

theorem sample_loops : OnLoop Sample.copies (Sample.copying 4 "x" "y") ∧
    ¬ OnLoop Sample.copies (Sample.copying 6 "z" "x") := by
  have reported : cycles Sample.copies = [(4, ["x", "y", "x"]), (5, ["y", "x", "y"])] := by decide +kernel
  constructor
  · refine (cycles_exact Sample.numbered (by simp [Sample.copies])).1.mp ⟨["x", "y", "x"], ?_⟩
    rw [reported]
    exact List.mem_cons_self
  · intro loop
    obtain ⟨path, found⟩ := (cycles_exact Sample.numbered (by simp [Sample.copies])).1.mpr loop
    rw [reported] at found
    simp [Sample.copying] at found

end Feedback

end Questionnaire
