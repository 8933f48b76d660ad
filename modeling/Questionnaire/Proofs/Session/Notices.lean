import Questionnaire.Proofs.Session.Cap
import Questionnaire.Proofs.Session.Downstream

/-!
# What listeners are told

A write of the host is told of once, when nothing waits any more, and what is told is the difference between the
sessions before and after: the keys under which another answer or other flags are seen.  How many writes of triggers
there were in between, and what they did and undid, does not matter.  A key that nobody has an answer for and that
names neither a page nor a question is never among them.

So a write of the value that is there changes nothing, and is told of only if some answer differs from itself, as what
is no number does.
-/
namespace Questionnaire

open Act
open Session (Applied Recomputed)

/-! ## Keys, each once and in order -/

section

variable {κ : Type} [BEq κ]

/-- Duplicates go key by key: the first key stays, and all the same behind it are left out. -/
theorem eraseDups_induction {motive : List κ → Prop} (nil : motive [])
    (cons : ∀ key rest, motive (rest.filter fun b => !b == key) → motive (key :: rest)) (keys : List κ) :
    motive keys := by
  induction length : keys.length using Nat.strongRecOn generalizing keys with
  | _ n ih =>
    cases keys with
    | nil => exact nil
    | cons key rest =>
      have fewer := List.length_filter_le (fun b => !b == key) rest
      rw [List.length_cons] at length
      exact cons key rest (ih _ (by omega) _ rfl)

theorem eraseDups_subset (keys : List κ) : keys.eraseDups ⊆ keys := by
  induction keys using eraseDups_induction with
  | nil => simp
  | cons key rest ih =>
    rw [List.eraseDups_cons]
    exact List.cons_subset_cons key (List.Subset.trans ih (List.filter_subset_self _))

variable [EquivBEq κ]

theorem pairwise_eraseDups (keys : List κ) : keys.eraseDups.Pairwise fun a b => (a == b) = false := by
  induction keys using eraseDups_induction with
  | nil =>
    rw [List.eraseDups_nil]
    exact .nil
  | cons key rest ih =>
    rw [List.eraseDups_cons]
    refine .cons (fun other mem => ?_) ih
    have differs := (List.mem_filter.mp (eraseDups_subset _ mem)).2
    rw [BEq.comm]
    simpa using differs

theorem exists_mem_eraseDups {keys : List κ} {asked : κ} :
    (∃ k ∈ keys.eraseDups, (k == asked) = true) ↔ ∃ k ∈ keys, (k == asked) = true := by
  constructor
  · rintro ⟨k, mem, same⟩
    exact ⟨k, eraseDups_subset _ mem, same⟩
  · intro known
    induction keys using eraseDups_induction with
    | nil => simp at known
    | cons key rest ih =>
      rw [List.eraseDups_cons]
      obtain ⟨k, mem, same⟩ := known
      by_cases first : (k == key) = true
      · exact ⟨key, List.mem_cons_self, BEq.trans (BEq.symm first) same⟩
      · have later : k ∈ rest.filter fun b => !b == key := by
          refine List.mem_filter.mpr ⟨?_, by simpa using first⟩
          refine (List.mem_cons.mp mem).resolve_left fun here => ?_
          exact first (here ▸ BEq.rfl)
        obtain ⟨k', mem', same'⟩ := ih ⟨k, later, same⟩
        exact ⟨k', List.mem_cons_of_mem key mem', same'⟩

end

/-! ## What is seen under a key -/

namespace Engine

/-- Another answer or other flags are found under a key: the answers are compared by the test by which the store keeps
what it has. -/
def Differs (e : Engine) (s t : Session) (key : Key) : Prop :=
  (s.answers.lookUp key).unchanged (t.answers.lookUp key) = false ∨ e.flagsSeen s key ≠ e.flagsSeen t key

/-- The keys that are looked at: those of pages and questions, and those with an answer before or after. -/
def Named (survey : Survey) (s t : Session) (key : Key) : Prop :=
  (∃ name ∈ survey.names, key = .text name) ∨ (s.answers.find? key).isSome = true ∨ (t.answers.find? key).isSome = true

variable {e : Engine} {survey : Survey} {s t u : Session} {key : Key}

theorem flagsSeen_unknown (unknown : isKnown s key = false) : e.flagsSeen s key = (true, true, false) := by
  cases key with
  | text name =>
    have none : s.flags.find? name = none := by simpa [isKnown] using unknown
    rw [flagsSeen, isVisible, isEnabled, isRequired, flagsAround, none]
    rfl
  | _ => rfl

theorem seen_of_unknown (unknown : isKnown s key = false) :
    e.seen s key = (s.answers.find? key).map fun v => (v, true, true, false) := by
  rw [seen, unknown, flagsSeen_unknown unknown, Bool.false_or, Fields.lookUp]
  cases s.answers.find? key <;> rfl

theorem Lasting.isKnown_iff (lasting : Lasting survey e s) :
    isKnown s key = true ↔ ∃ name ∈ survey.names, key = .text name := by
  cases key with
  | text name =>
    rw [isKnown, lasting.isSome_find?_flags]
    simp
  | _ => simp [isKnown]

/-- An answer is never found the same as none. -/
theorem Lasting.ne_undefined (lasting : Lasting survey e s) {v : Value} (found : s.answers.find? key = some v) :
    v ≠ .undefined := by
  rintro rfl
  have absent : s.answers.lookUp key = .undefined := by rw [Fields.lookUp, found, Option.getD_some]
  cases found.symm.trans (Fields.find?_eq_none_of_lookUp lasting.defined absent)

/-- Of two moments, different things are seen under a key if it is looked at and differs. -/
theorem sameSeen_eq_false_iff (before : Lasting survey e s) (after : Lasting survey e t) :
    sameSeen (e.seen s key) (e.seen t key) = false ↔ Named survey s t key ∧ e.Differs s t key := by
  have same : isKnown t key = isKnown s key := by rw [Bool.eq_iff_iff, before.isKnown_iff, after.isKnown_iff]
  cases known : isKnown s key with
  | true =>
    have named : Named survey s t key := Or.inl (before.isKnown_iff.mp known)
    rw [seen, seen, same, known]
    simp only [Bool.true_or, if_true, sameSeen, Bool.and_eq_false_iff, beq_eq_false_iff_ne]
    exact ⟨fun differs => ⟨named, differs⟩, fun h => h.2⟩
  | false =>
    have flags : e.flagsSeen s key = e.flagsSeen t key := by
      rw [flagsSeen_unknown known, flagsSeen_unknown (same.trans known)]
    have unnamed : ¬ ∃ name ∈ survey.names, key = .text name := by
      rw [← before.isKnown_iff, known]
      decide
    rw [seen_of_unknown known, seen_of_unknown (same.trans known), Named, Differs, Fields.lookUp, Fields.lookUp]
    cases found : s.answers.find? key with
    | none =>
      cases found' : t.answers.find? key with
      | none => simp [sameSeen, unnamed]
      | some w =>
        have differs : Value.undefined.unchanged w = false :=
          Bool.eq_false_iff.mpr fun same => after.ne_undefined found' (Value.unchanged_undefined_left.mp same)
        simp [sameSeen, differs]
    | some v =>
      cases found' : t.answers.find? key with
      | none =>
        have differs : v.unchanged .undefined = false :=
          Bool.eq_false_iff.mpr fun same => before.ne_undefined found (Value.unchanged_undefined_right.mp same)
        simp [sameSeen, differs]
      | some w => simp [sameSeen, flags]

theorem seen_congr {other : Key} (same : (key == other) = true) : e.seen s key = e.seen s other := by
  have answer := Table.find?_congr s.answers same
  cases key with
  | text name => rw [Key.text_same_iff.mp same]
  | _ =>
    cases other with
    | text name => cases Key.text_same_iff.mp (BEq.symm same)
    | _ => exact ((seen_of_unknown rfl).trans (by rw [answer])).trans (seen_of_unknown rfl).symm

/-- What counts as changed between two moments: the keys that are looked at and differ. -/
theorem exists_mem_changes_iff (before : Lasting survey e s) (after : Lasting survey e t) :
    (∃ k ∈ e.changes s t, (k == key) = true) ↔ Named survey s t key ∧ e.Differs s t key := by
  rw [← sameSeen_eq_false_iff before after]
  constructor
  · rintro ⟨k, mem, same⟩
    have differs := (List.mem_filter.mp mem).2
    rw [seen_congr same, seen_congr same] at differs
    simpa using differs
  · intro differs
    have looked := ((sameSeen_eq_false_iff before after).mp differs).1
    have listed : ∃ k ∈ (s.flags.keys.map Key.text ++ s.answers.keys ++ t.answers.keys).eraseDups, (k == key) = true := by
      rw [exists_mem_eraseDups]
      rcases looked with ⟨name, mem, rfl⟩ | found | found
      · obtain ⟨k, mem', same⟩ := Table.isSome_find?_iff.mp (before.isSome_find?_flags.mpr mem)
        refine ⟨.text k, ?_, by simpa using same⟩
        exact List.mem_append_left _ (List.mem_append_left _ (List.mem_map_of_mem mem'))
      · obtain ⟨k, mem, same⟩ := Table.isSome_find?_iff.mp found
        exact ⟨k, List.mem_append_left _ (List.mem_append_right _ mem), same⟩
      · obtain ⟨k, mem, same⟩ := Table.isSome_find?_iff.mp found
        exact ⟨k, List.mem_append_right _ mem, same⟩
    obtain ⟨k, mem, same⟩ := listed
    refine ⟨k, List.mem_filter.mpr ⟨mem, ?_⟩, same⟩
    rw [seen_congr same, seen_congr same, differs]
    rfl

theorem pairwise_changes (s t : Session) : (e.changes s t).Pairwise fun a b => (a == b) = false :=
  (pairwise_eraseDups _).filter _

/-! ## Telling -/

/-- The calls of listeners that share a set of keys: each finds there what those before it left. -/
def handed : List Key → List Listener → List (String × List Key)
  | _, [] => []
  | keys, listener :: rest => (listener.id, keys) :: handed (keys.filter (!listener.drops ·)) rest

/-- Every listener is called once. -/
theorem fst_handed (keys : List Key) (listeners : List Listener) :
    (handed keys listeners).map Prod.fst = listeners.map Listener.id := by
  induction listeners generalizing keys with
  | nil => rfl
  | cons listener rest ih => rw [handed, List.map_cons, List.map_cons, ih]

/-- Listeners that take nothing out of the set all find the same there. -/
theorem handed_of_spared {keys : List Key} {listeners : List Listener}
    (spared : ∀ l ∈ listeners, ∀ key ∈ keys, l.drops key = false) :
    handed keys listeners = listeners.map fun l => (l.id, keys) := by
  induction listeners with
  | nil => rfl
  | cons listener rest ih =>
    obtain ⟨first, later⟩ := List.forall_mem_cons.mp spared
    have left : keys.filter (!listener.drops ·) = keys := by
      refine List.filter_eq_self.mpr fun key mem => ?_
      rw [first key mem]
      rfl
    rw [handed, left, ih later, List.map_cons]

section

variable {write : (target value : Value) → Act Unit}

theorem ends_tell_mute {listener : Listener} (mute : listener.writes = none) (keys : List Key) (s : Session) :
    Ends (fun _ t => t = { s with listeners := t.listeners, notified := s.notified ++ [(listener.id, keys)] })
      (fun _ => True) (tell write keys listener) s := by
  rw [tell, ends_bind, ends_modify]
  split
  · trivial
  · split
    · rw [react, mute]
      simp only
      split <;> rfl
    · rfl

/-- Listeners that do not write are each told once. -/
theorem ends_tellAll_mute {listeners : List Listener} (mute : ∀ l ∈ listeners, l.writes = none) (keys : List Key)
    (s : Session) :
    Ends (fun _ t => t = { s with listeners := t.listeners, notified := s.notified ++ handed keys listeners })
      (fun _ => True) (tellAll write keys listeners) s := by
  induction listeners generalizing keys s with
  | nil => simp [tellAll, handed]
  | cons listener rest ih =>
    obtain ⟨first, later⟩ := List.forall_mem_cons.mp mute
    rw [tellAll, ends_bind]
    refine (ends_tell_mute first keys s).mono (fun _ t told => ?_) fun _ h => h
    refine (ih later _ t).mono (fun _ u told' => ?_) fun _ h => h
    rw [told', told, handed]
    simp

end

/-- What a call tells: when the queue is empty, the listeners are told the changed keys, if there are any. -/
theorem told_of_write {target v : Value} (drained : e.drain (s.ask target v) = .ok ⟨⟩ u)
    (mute : ∀ l ∈ u.listeners, l.writes = none) (run : e.write target v s = .ok ⟨⟩ t) :
    t = { u with
      listeners := t.listeners
      notified := u.notified ++ if e.changes s u = [] then [] else handed (e.changes s u) u.listeners } := by
  rw [write, writeWithin_of_drained _ drained] at run
  split at run
  · rename_i none
    cases run
    rw [if_pos (List.isEmpty_iff.mp none), List.append_nil]
  · rename_i some
    rw [if_neg (by simpa using some)]
    exact (ends_tellAll_mute mute _ u).of_ok run

/-- A write of the host is told of once, when nothing waits any more: each listener is called with a set of exactly the
keys of pages, questions and answers under which another answer or other flags are found than before the call.  The
listeners share the set, and find the same there unless one of them takes keys out.  Where there are no such keys, nobody
is called.  Telling changes nothing else, if no listener writes in turn. -/
theorem listeners_told_difference {settings : Settings} {given : Fields} {navigator : Bool} {s₀ : Session}
    {target v : Value} (begun : start survey settings given navigator = .ok (e, s₀)) (moment : e.Leads s₀ s)
    (mute : ∀ l ∈ s.listeners, l.writes = none) (run : e.write target v s = .ok ⟨⟩ t) :
    ∃ u keys calls, e.drain (s.ask target v) = .ok ⟨⟩ u ∧ u.queue = [] ∧
      u.listeners = s.listeners ∧ u.notified = s.notified ∧
      t = { u with listeners := t.listeners, notified := s.notified ++ if keys = [] then [] else calls } ∧
      calls = handed keys s.listeners ∧ calls.map Prod.fst = s.listeners.map Listener.id ∧
      ((∀ l ∈ s.listeners, ∀ key ∈ keys, l.drops key = false) → ∀ call ∈ calls, call.2 = keys) ∧
      keys.Pairwise (fun a b => (a == b) = false) ∧
      ∀ key, (∃ k ∈ keys, (k == key) = true) ↔ Named survey s t key ∧ e.Differs s t key := by
  obtain ⟨bindings, compiled⟩ := exists_compiled begun
  obtain ⟨u, drained⟩ := exists_drain_of_write run
  have asked : e.Leads s₀ (s.ask target v) := moment.tail (.asked target v)
  have later : e.Leads s₀ u := (leads_drain asked).of_ok drained
  have empty : u.queue = [] := ((ends_drain_empty (indexed_of_leads begun asked)).of_ok drained).1
  obtain ⟨listeners, notified⟩ := (ends_drain_untold compiled _).of_ok drained
  have told := told_of_write drained (fun l mem => mute l (listeners ▸ mem)) run
  rw [listeners, notified] at told
  refine ⟨u, e.changes s u, handed (e.changes s u) s.listeners, drained, empty, listeners, notified, told, rfl,
    fst_handed _ _, ?_, pairwise_changes s u, fun key => ?_⟩
  · intro spared
    rw [handed_of_spared spared]
    exact List.forall_mem_map.mpr fun _ _ => rfl
  · rw [exists_mem_changes_iff (lasting_of_leads begun moment) (lasting_of_leads begun later), told]
    rfl

/-- In the sample a new answer to `a` is told of with what follows from it, and the answer to `c` is the same. -/
theorem sample_told : ∃ s₀ t, start Sample.survey Sample.settings (Sample.given 1 35) false = .ok (Sample.engine, s₀) ∧
    Sample.engine.write (.text "a") (Sample.whole 8) (Sample.heard { id := "l" } s₀) = .ok ⟨⟩ t ∧
    t.notified.map (fun c => (c.1, c.2.map Key.text?)) = [("l", [some "a", some "t", some "q"])] ∧
    Sample.engine.Differs (Sample.heard { id := "l" } s₀) t (.text "q") ∧
    ¬ (Named Sample.survey (Sample.heard { id := "l" } s₀) t (.text "c") ∧
      Sample.engine.Differs (Sample.heard { id := "l" } s₀) t (.text "c")) := by
  obtain ⟨s₀, t, begun, -, silent, run, -, notified⟩ := Sample.exists_heard { id := "l" }
    [("a", 8), ("c", 35), ("t", 9)] [("l", [some "a", some "t", some "q"])] (Act.exists_of_seen (by decide +kernel))
  have audience : (Sample.heard { id := "l" } s₀).listeners = [{ id := "l" }] := by
    rw [Sample.heard, (primed_of_start begun).1.listeners, List.nil_append]
  have mute : ∀ l ∈ (Sample.heard { id := "l" } s₀).listeners, l.writes = none := by
    rw [audience]
    exact List.forall_mem_singleton.mpr rfl
  have moment : Sample.engine.Leads s₀ (Sample.heard { id := "l" } s₀) := Sample.leads_heard _ _ s₀
  obtain ⟨u, keys, _, -, -, -, -, told, rfl, -, -, -, changed⟩ := listeners_told_difference begun moment mute run
  have texts : keys.map Key.text? = [some "a", some "t", some "q"] := by
    rw [told, audience] at notified
    have filled : keys ≠ [] := by
      rintro rfl
      simp [Sample.heard, silent] at notified
    simpa [Sample.heard, silent, filled, handed] using notified
  have mem_iff (name : String) : (∃ k ∈ keys, (k == Key.text name) = true) ↔ some name ∈ keys.map Key.text? := by
    rw [List.mem_map]
    refine exists_congr fun k => and_congr_right fun _ => ?_
    rw [BEq.comm, Key.text_same_iff]
    cases k <;> simp [Key.text?]
  refine ⟨s₀, t, begun, run, notified, ?changed, ?same⟩
  case changed =>
    refine ((changed _).mp ((mem_iff "q").mpr ?_)).2
    rw [texts]
    decide
  case same =>
    rw [← changed, mem_iff, texts]
    decide

/-! ## A write of the value that is there -/

theorem store?_eq_none_iff {answers : Fields} {v : Value} :
    Fields.store? answers key v = none ↔ (answers.lookUp key).unchanged v = true := by
  unfold Fields.store?
  simp only
  cases defined : v.isDefined with
  | true => simp
  | false =>
    obtain rfl := Value.eq_undefined_of_not_isDefined defined
    refine Iff.trans ?_ Value.unchanged_undefined_right.symm
    cases answers.lookUp key <;> simp [Value.isDefined]

theorem perform_of_same {w : Write} (hkey : w.target.key? = some key)
    (same : (s.answers.lookUp key).unchanged w.value = true) : e.perform w s = .ok ⟨⟩ s := by
  have kept := store?_eq_none_iff.mpr same
  have stored : store key w.value s = .ok false s := by
    rw [store_eq, kept, Fields.put, kept]
    rfl
  rw [perform, hkey]
  simp only
  rw [bind_eq_of_ok stored]
  rfl

theorem drain_of_same {n : String} {v : Value} (idle : s.queue = []) (same : (s.value n).unchanged v = true) :
    e.drain (s.ask (.text n) v) = .ok ⟨⟩ s := by
  have performed : e.perform ⟨.text n, v, none⟩ s = .ok ⟨⟩ s := perform_of_same rfl same
  rw [drain_ask_of_idle idle, bind_eq_of_ok performed, drainWithin_of_empty idle]

/-- A key counts as changed although nothing changed only if its answer is not the same as itself. -/
theorem differs_of_mem_changes_self (mem : key ∈ e.changes s s) :
    (s.answers.lookUp key).unchanged (s.answers.lookUp key) = false := by
  have differs := (List.mem_filter.mp mem).2
  rw [seen] at differs
  split at differs
  · simpa [sameSeen] using differs
  · cases differs

theorem changes_self_of_comparable (comparable : s.Comparable) : e.changes s s = [] := by
  refine List.eq_nil_iff_forall_not_mem.mpr fun key mem => ?_
  have differs := differs_of_mem_changes_self mem
  rw [Fields.lookUp] at differs
  cases found : s.answers.find? key with
  | none =>
    rw [found] at differs
    cases differs
  | some v =>
    obtain ⟨proper, number⟩ := comparable key v found
    rw [found, Option.getD_some, Value.unchanged_self_of_proper proper number] at differs
    cases differs

/-- A write of the value that is there, or of none where there is none, changes nothing and brings nothing about.  If
no answer is what is no number it is told to nobody and leaves the whole session as it is.  Listeners that do not write
are told at most of keys whose answer is not the same as itself. -/
theorem repeated_write_silent {n : String} {v : Value} (idle : s.queue = [])
    (same : (s.value n).unchanged v = true) :
    e.drain (s.ask (.text n) v) = .ok ⟨⟩ s ∧ (s.Comparable → e.write (.text n) v s = .ok ⟨⟩ s) ∧
    ((∀ l ∈ s.listeners, l.writes = none) → ∀ t, e.write (.text n) v s = .ok ⟨⟩ t → ∃ keys,
      t = { s with
        listeners := t.listeners
        notified := s.notified ++ if keys = [] then [] else handed keys s.listeners } ∧
      ∀ key ∈ keys, (s.answers.lookUp key).unchanged (s.answers.lookUp key) = false) := by
  have drained : e.drain (s.ask (.text n) v) = .ok ⟨⟩ s := drain_of_same idle same
  refine ⟨drained, ?_, ?_⟩
  · intro comparable
    rw [write, writeWithin_of_drained _ drained, changes_self_of_comparable comparable]
    rfl
  · intro mute t run
    exact ⟨e.changes s s, told_of_write drained mute run, fun key => differs_of_mem_changes_self⟩

end Engine

/-! ## A pair of answers that nothing follows from -/

namespace Pair

def document : Value :=
  Sample.fields [("elements", .sequence [Sample.fields [("name", .text "a")], Sample.fields [("name", .text "x")]])]

def survey : Survey :=
  match Survey.ofDocument document with
  | .ok survey => survey
  | .error _ => ⟨.undefined, .undefined, .undefined, [], [], []⟩

theorem loaded : Survey.ofDocument document = .ok survey := rfl

def engine : Engine := Engine.ofBindings survey Sample.settings []

/-- The session that starts with some answers. -/
def opened (given : Fields) : Session := engine.opening [] [] given false

theorem started (given : Fields) :
    Engine.start survey Sample.settings given false = .ok (engine, opened given) :=
  Engine.start_of_applyAll rfl rfl rfl

/-- The same with a listener. -/
def heard (given : Fields) : Session := Sample.heard { id := "l" } (opened given)

/-- A one, beside what is no number. -/
def unsure : Fields := [(.text "a", Sample.whole 1), (.text "x", .float .nan)]

end Pair

namespace Engine

/-- A one is written again, and nobody is told. -/
theorem pair_silent : (Pair.heard (Sample.wholes [("a", 1)])).listeners ≠ [] ∧
    Pair.engine.write (.text "a") (Sample.whole 1) (Pair.heard (Sample.wholes [("a", 1)])) =
      .ok ⟨⟩ (Pair.heard (Sample.wholes [("a", 1)])) := by
  have same : ((Pair.heard (Sample.wholes [("a", 1)])).value "a").unchanged (Sample.whole 1) = true := rfl
  have answers : (Pair.heard (Sample.wholes [("a", 1)])).answers = Sample.wholes [("a", 1)] := rfl
  obtain ⟨-, silent, -⟩ := repeated_write_silent (e := Pair.engine) rfl same
  exact ⟨List.cons_ne_nil _ _, silent (Sample.comparable answers)⟩

/-- While `x` holds what is no number, a one written over itself is told of as a change of `x`. -/
theorem repeated_write_told : ∃ t, Survey.ofDocument Pair.document = .ok Pair.survey ∧
    start Pair.survey Sample.settings Pair.unsure false = .ok (Pair.engine, Pair.opened Pair.unsure) ∧
    Pair.engine.Leads (Pair.opened Pair.unsure) (Pair.heard Pair.unsure) ∧ (Pair.heard Pair.unsure).queue = [] ∧
    (Pair.heard Pair.unsure).value "a" = Sample.whole 1 ∧
    Pair.engine.write (.text "a") (Sample.whole 1) (Pair.heard Pair.unsure) = .ok ⟨⟩ t ∧
    (Pair.heard Pair.unsure).notified = [] ∧
    t.notified.map (fun c => (c.1, c.2.map Key.text?)) = [("l", [some "x"])] := by
  obtain ⟨_, t, run, told⟩ : ∃ a t,
      Pair.engine.write (.text "a") (Sample.whole 1) (Pair.heard Pair.unsure) = .ok a t ∧
        t.notified.map (fun c => (c.1, c.2.map Key.text?)) = [("l", [some "x"])] :=
    Act.exists_of_seen (by decide +kernel)
  exact ⟨t, Pair.loaded, Pair.started Pair.unsure, Sample.leads_heard _ _ _, rfl, rfl, run, rfl, told⟩

end Engine

end Questionnaire
