import Questionnaire.Proofs.Legible
import Questionnaire.Proofs.Session.Freshness
import Questionnaire.Proofs.Session.Moments
import Questionnaire.Proofs.Value.Proper

/-!
# What a write leaves alone

Without triggers a write changes what is downstream of it and nothing else: the answer it is for, and the answers and
flags of the bindings that a change of this answer can reach.  What lies in a page or panel among these shows other
effective flags.  All else keeps its answer and its flags, and no listener is told of it.

Listeners may write in turn.  So what a call changes is downstream of the keys that are written during it, of which
there is one while no listener writes.
-/
namespace Questionnaire

open Act
open Session (Applied Recomputed FlagsKept Noted Indexed)

/-! ## Answers that can be compared -/

/-- Every answer is a value whose fields have different keys, and none is what is no number. -/
def Session.Comparable (s : Session) : Prop :=
  ∀ key v, s.answers.find? key = some v → v.Proper ∧ v ≠ .float .nan

/-! ## What one write keeps -/

/-- A name that no binding belongs to keeps all its flags. -/
theorem Session.FlagsKept.find?_eq {bindings : List Binding} {f g : Table String Flags}
    (kept : FlagsKept bindings f g) {name : String} (free : ∀ b ∈ bindings, b.owner ≠ name) :
    g.find? name = f.find? name := by
  have same (kind : BindingKind) : (g.find? name).map (·.get kind) = (f.find? name).map (·.get kind) :=
    kept.unset name kind fun b mem target => free b mem (congrArg Prod.fst target)
  have visible := same .visibleIf
  have enabled := same .enableIf
  have conditionally := same .requiredIf
  have always := kept.always name
  cases before : f.find? name <;> cases after : g.find? name <;>
    simp only [before, after, Option.map_some, Option.map_none, Option.some.injEq, reduceCtorEq] at *
  rename_i own own'
  obtain ⟨_, _, _, _⟩ := own
  obtain ⟨_, _, _, _⟩ := own'
  simp_all [Flags.get]

namespace Engine

/-- What is downstream of a key: itself, and what the bindings belong to that a change of it can reach. -/
def Downstream (e : Engine) (written key : Key) : Prop :=
  (written == key) = true ∨ ∃ b ∈ e.dependencies.propagation written.text?.toList [], key = .text b.owner

/-- The answers that may change with the one under a key: itself, and those that bindings downstream write. -/
def Rewrites (e : Engine) (written key : Key) : Prop :=
  (written == key) = true ∨
    ∃ b ∈ e.dependencies.propagation written.text?.toList [], b.writesValue = true ∧ key = .text b.owner

/-- What may show something else: what is downstream, and the questions in pages and panels that are. -/
def Touches (e : Engine) (written key : Key) : Prop :=
  e.Downstream written key ∨
    ∃ outer inner, e.Downstream written (.text outer) ∧ e.survey.Contains outer inner ∧ key = .text inner

variable {e : Engine} {s t u : Session} {written : Key → Prop}

theorem Rewrites.downstream {w key : Key} (h : e.Rewrites w key) : e.Downstream w key :=
  h.imp_right fun ⟨b, mem, _, same⟩ => ⟨b, mem, same⟩

/-- Only what is downstream of some keys differs. -/
structure Kept (e : Engine) (written : Key → Prop) (s t : Session) : Prop where
  answers : ∀ key, (∀ w, written w → ¬ e.Rewrites w key) → t.answers.find? key = s.answers.find? key
  flags : ∀ name, (∀ w, written w → ¬ e.Downstream w (.text name)) → t.flags.find? name = s.flags.find? name

theorem Kept.refl (written : Key → Prop) (s : Session) : e.Kept written s s := ⟨fun _ _ => rfl, fun _ _ => rfl⟩

theorem Kept.trans (h : e.Kept written s t) (h' : e.Kept written t u) : e.Kept written s u where
  answers key free := (h'.answers key free).trans (h.answers key free)
  flags name free := (h'.flags name free).trans (h.flags name free)

theorem Kept.mono {more : Key → Prop} (sub : ∀ w, written w → more w) (h : e.Kept written s t) : e.Kept more s t where
  answers key free := h.answers key fun w hw => free w (sub w hw)
  flags name free := h.flags name fun w hw => free w (sub w hw)

section

variable {bindings : List Binding} (compiled : e.Compiled bindings)
include compiled

/-- A stored answer with what follows from it. -/
theorem Kept.of_applied {key : Key} {v : Value} {excluded : List Nat}
    (h : Applied (e.dependencies.propagation key.text?.toList excluded)
      { s with answers := s.answers.put key v } t) : e.Kept (· = key) s t := by
  have sub : e.dependencies.propagation key.text?.toList excluded ⊆
      e.dependencies.propagation key.text?.toList [] := by
    rw [compiled.dependencies]
    exact Dependencies.propagation_excluded_subset compiled.numbered _ _
  constructor
  case answers =>
    intro asked free
    have here := free key rfl
    rw [h.answers asked fun b mem writes same => here (Or.inr ⟨b, sub mem, writes, same⟩)]
    exact Fields.find?_put_of_differs v (Bool.eq_false_iff.mpr fun same => here (Or.inl same))
  case flags =>
    intro name free
    exact h.flags.find?_eq fun b mem same => free key rfl (Or.inr ⟨b, sub mem, by rw [same]⟩)

/-- Without triggers, a write stores its value and lets the bindings follow. -/
theorem ends_perform_kept (ruleless : s.slots = []) (w : Write) :
    Ends (fun _ t => Recomputed s t ∧ ∃ key, w.target.key? = some key ∧ e.Kept (· = key) s t) (fun _ => True)
      (e.perform w) s := by
  rw [perform]
  split
  · trivial
  · rename_i key found
    rw [ends_bind, ends_store]
    split
    · rw [ends_bind]
      refine (ends_settle_propagation compiled _ _).mono ?_ fun _ _ => trivial
      intro _ u applied
      have recomputed : Recomputed s u := ⟨by rw [applied.recomputed.rest], applied.recomputed.added⟩
      have none : u.slots = [] := recomputed.slots.trans ruleless
      rw [dispatch, ends_bind, ends_get, none]
      exact ⟨recomputed, key, found, Kept.of_applied compiled applied⟩
    · have applied : Applied (e.dependencies.propagation key.text?.toList [])
          { s with answers := s.answers.put key w.value } { s with answers := s.answers.put key w.value } :=
        .of_noted _ (.refl _)
      exact ⟨⟨rfl, fun _ h => Or.inl h⟩, key, found, Kept.of_applied compiled applied⟩

end

/-- Without triggers and writes that wait, emptying the queue makes the one write that is asked for. -/
theorem drain_ask (idle : s.queue = []) (ruleless : s.slots = []) (target v : Value) :
    e.drain (s.ask target v) = e.perform ⟨target, v, none⟩ s := by
  rw [drain_ask_of_idle idle, ruleless, List.length_nil, Nat.mul_zero]
  simp only [bind, EStateM.bind, drainWithin]
  cases e.perform ⟨target, v, none⟩ s <;> rfl

/-! ## What is seen of it -/

/-- Outside of what some writes touch, the same is seen: the answer, the flags, and those that count.  Answers change
only where a write or a binding downstream of it puts another one. -/
structure Frame (e : Engine) (written : Key → Prop) (s t : Session) : Prop where
  outside : ∀ name, (∀ w, written w → ¬ e.Touches w (.text name)) →
    t.answers.find? (.text name) = s.answers.find? (.text name) ∧ t.flags.find? name = s.flags.find? name ∧
      e.isVisible t name = e.isVisible s name ∧ e.isEnabled t name = e.isEnabled s name ∧
      e.isRequired t name = e.isRequired s name
  rewritten : ∀ key, t.answers.find? key ≠ s.answers.find? key → ∃ w, written w ∧ e.Rewrites w key

/-- The notes of an engine on what contains what. -/
def Noting (e : Engine) : Prop :=
  ∀ name outer, outer ∈ (e.ancestors.find? name).getD [] ↔ e.survey.Contains outer name

section

variable (noting : e.Noting) (kept : e.Kept written s t)
include noting kept

theorem Kept.flagsAround {name : String} (free : ∀ w, written w → ¬ e.Touches w (.text name)) :
    e.flagsAround t name = e.flagsAround s name := by
  rw [Engine.flagsAround, Engine.flagsAround, kept.flags name fun w hw down => free w hw (Or.inl down)]
  cases s.flags.find? name with
  | none => rfl
  | some own =>
    simp only
    congr 1
    refine List.filterMap_congr fun outer mem => kept.flags outer fun w hw down => ?_
    exact free w hw (Or.inr ⟨outer, name, down, (noting name outer).mp mem, rfl⟩)

theorem Kept.isVisible {name : String} (free : ∀ w, written w → ¬ e.Touches w (.text name)) :
    e.isVisible t name = e.isVisible s name := by
  rw [Engine.isVisible, Engine.isVisible, kept.flagsAround noting free]

theorem Kept.isEnabled {name : String} (free : ∀ w, written w → ¬ e.Touches w (.text name)) :
    e.isEnabled t name = e.isEnabled s name := by
  rw [Engine.isEnabled, Engine.isEnabled, kept.flagsAround noting free]

theorem Kept.isRequired {name : String} (free : ∀ w, written w → ¬ e.Touches w (.text name)) :
    e.isRequired t name = e.isRequired s name := by
  rw [Engine.isRequired, Engine.isRequired, kept.flags name fun w hw down => free w hw (Or.inl down),
    kept.isVisible noting free]

theorem Kept.frame : e.Frame written s t where
  outside name free := by
    refine ⟨kept.answers _ ?_, kept.flags name ?_, kept.isVisible noting free, kept.isEnabled noting free,
      kept.isRequired noting free⟩
    · exact fun w hw rewrites => free w hw (Or.inl rewrites.downstream)
    · exact fun w hw down => free w hw (Or.inl down)
  rewritten key changed := by
    by_contra none
    exact changed (kept.answers key fun w hw rewrites => none ⟨w, hw, rewrites⟩)

theorem Kept.seen {key : Key} (free : ∀ w, written w → ¬ e.Touches w key) : e.seen t key = e.seen s key := by
  have answer : t.answers.find? key = s.answers.find? key :=
    kept.answers key fun w hw rewrites => free w hw (Or.inl rewrites.downstream)
  have known : isKnown t key = isKnown s key := by
    cases key with
    | text name => rw [isKnown, isKnown, kept.flags name fun w hw down => free w hw (Or.inl down)]
    | _ => rfl
  have flags : e.flagsSeen t key = e.flagsSeen s key := by
    cases key with
    | text name =>
      rw [flagsSeen, flagsSeen, kept.isVisible noting free, kept.isEnabled noting free, kept.isRequired noting free]
    | _ => rfl
  rw [Engine.seen, Engine.seen, known, answer, flags, Fields.lookUp, Fields.lookUp, answer]

/-- What is told as changed is touched, if all else was the same as itself before. -/
theorem Kept.touched_of_mem_changes (plain : ∀ key v, (∀ w, written w → ¬ e.Touches w key) →
      s.answers.find? key = some v → v.unchanged v = true) {key : Key} (mem : key ∈ e.changes s t) :
    ∃ w, written w ∧ e.Touches w key := by
  by_contra none
  have free : ∀ w, written w → ¬ e.Touches w key := fun w hw touches => none ⟨w, hw, touches⟩
  have differs := (List.mem_filter.mp mem).2
  rw [kept.seen noting free] at differs
  have same : sameSeen (e.seen s key) (e.seen s key) = true := by
    rw [Engine.seen]
    split
    · rw [Fields.lookUp]
      cases found : s.answers.find? key with
      | none => simp [sameSeen, Value.unchanged]
      | some v => simp [sameSeen, plain key v free found]
    · rfl
  rw [same] at differs
  cases differs

end

end Engine

/-! ## Listeners that write in turn -/

/-- The keys that are written during a call: the one it is for, and those that listeners write. -/
def Session.Writes (s : Session) (key written : Key) : Prop :=
  written = key ∨ ∃ l ∈ s.listeners, ∃ target v, l.writes = some (target, v) ∧ target.key? = some written

namespace Engine

variable {e : Engine} {s t u : Session} {written : Key → Prop}

/-- A later moment of a call: nothing waits, what differs is downstream of what is written, and listeners were told of
nothing else. -/
structure Within (e : Engine) (written : Key → Prop) (s t : Session) : Prop where
  kept : e.Kept written s t
  idle : t.queue = []
  ruleless : t.slots = []
  listeners : t.listeners ⊆ s.listeners
  told : s.Comparable → ∃ told, t.notified = s.notified ++ told ∧
    ∀ c ∈ told, ∀ key ∈ c.2, ∃ w, written w ∧ e.Touches w key

theorem Within.recomputed (h : e.Within written s t) (recomputed : Recomputed t u) (kept : e.Kept written t u) :
    e.Within written s u where
  kept := h.kept.trans kept
  idle := recomputed.queue.trans h.idle
  ruleless := recomputed.slots.trans h.ruleless
  listeners := by
    rw [recomputed.listeners]
    exact h.listeners
  told comparable := by
    rw [recomputed.rest]
    exact h.told comparable

theorem Within.tell (h : e.Within written s t) (id : String) {keys : List Key}
    (touched : s.Comparable → ∀ key ∈ keys, ∃ w, written w ∧ e.Touches w key) :
    e.Within written s { t with notified := t.notified ++ [(id, keys)] } where
  kept := ⟨h.kept.answers, h.kept.flags⟩
  idle := h.idle
  ruleless := h.ruleless
  listeners := h.listeners
  told comparable := by
    obtain ⟨told, notified, each⟩ := h.told comparable
    refine ⟨told ++ [(id, keys)], by rw [notified, List.append_assoc], ?_⟩
    refine List.forall_mem_append.mpr ⟨each, List.forall_mem_singleton.mpr (touched comparable)⟩

theorem Within.unsubscribe (h : e.Within written s t) (id : String) : e.Within written s (unsubscribe id t) where
  kept := ⟨h.kept.answers, h.kept.flags⟩
  idle := h.idle
  ruleless := h.ruleless
  listeners := List.Subset.trans List.eraseP_subset h.listeners
  told := h.told

variable {bindings : List Binding} (compiled : e.Compiled bindings) (noting : e.Noting)
  (heard : ∀ l ∈ s.listeners, ∀ target v, l.writes = some (target, v) → ∀ key ∈ target.key?, written key)
include compiled noting heard

/-- A call stays within what is downstream of the keys that are written during it. -/
theorem ends_writeWithin_within (depth : Nat) {target v : Value} (host : ∀ key ∈ target.key?, written key)
    (h : e.Within written s t) :
    Ends (fun _ u => e.Within written s u) (fun _ => True) (e.writeWithin depth target v) t := by
  induction depth generalizing target v t with
  | zero => trivial
  | succ depth ih =>
    rw [writeWithin, ends_bind, ends_get]
    simp only
    rw [ends_bind, ends_set, ends_bind]
    change Ends _ _ e.drain (t.ask target v)
    rw [Ends, drain_ask h.idle h.ruleless, ← Ends]
    refine (ends_perform_kept compiled h.ruleless _).mono ?_ fun _ h => h
    rintro _ u ⟨recomputed, key, found, own⟩
    have kept : e.Kept written t u := own.mono fun w (same : w = key) => same ▸ host key found
    have settled := h.recomputed recomputed kept
    have touched : s.Comparable → ∀ key ∈ e.changes t u, ∃ w, written w ∧ e.Touches w key := by
      intro comparable key mem
      refine kept.touched_of_mem_changes noting (fun key v free found => ?_) mem
      -- what nothing touched so far is as it was when the call began
      rw [h.kept.answers key fun w hw rewrites => free w hw (Or.inl rewrites.downstream)] at found
      obtain ⟨proper, number⟩ := comparable key v found
      exact Value.unchanged_self_of_proper proper number
    rw [ends_bind, ends_get]
    split
    · exact settled
    · refine closed_tellAll (closed_guards _ _) ?cancelled ?raised ?told ?nested u settled
      case cancelled => exact fun id => guards_modify fun _ h => h.unsubscribe id
      case raised => exact fun f => guards_throw fun _ _ => trivial
      case told =>
        intro handed part id
        exact guards_modify fun _ h => h.tell id fun comparable key mem => touched comparable key (part mem)
      case nested =>
        intro l mem w writes r h
        exact ih (heard l (settled.listeners mem) w.1 w.2 writes) h

end Engine

/-! ## Surveys without triggers -/

namespace Engine

variable {survey : Survey} {settings : Settings} {given : Fields} {navigator : Bool} {e : Engine} {s₀ s t : Session}

/-- Without triggers in the survey there are none at any moment of its sessions. -/
theorem slots_of_leads (ruleless : survey.triggers = []) (begun : start survey settings given navigator = .ok (e, s₀))
    (moment : e.Leads s₀ s) : s.slots = [] := by
  have none : s.triggers = [] := (triggers_of_leads begun moment).trans ruleless
  exact List.map_eq_nil_iff.mp none

/-- Without triggers a write touches only what is downstream of it.  After the write and all that follows from it,
and before listeners are told, whatever is not touched keeps its answer and its flags, answers have changed only where
the write or a binding downstream of it put another one, and what is told as changed is touched.  At the end of the
call the same holds for all keys that are written during it, of which there are more than one only if listeners write
in turn. -/
theorem write_touches_downstream {document : Value} {n : String} {v : Value}
    (loaded : Survey.ofDocument document = .ok survey) (ruleless : survey.triggers = [])
    (begun : start survey settings given navigator = .ok (e, s₀)) (moment : e.Leads s₀ s) (idle : s.queue = [])
    (run : e.write (.text n) v s = .ok ⟨⟩ t) :
    (∃ u, e.drain (s.ask (.text n) v) = .ok ⟨⟩ u ∧ e.Frame (· = .text n) s u ∧
      (s.Comparable → ∀ key ∈ e.changes s u, e.Touches (.text n) key)) ∧
    e.Frame (s.Writes (.text n)) s t ∧
    (s.Comparable → ∃ told, t.notified = s.notified ++ told ∧
      ∀ c ∈ told, ∀ key ∈ c.2, ∃ w, s.Writes (.text n) w ∧ e.Touches w key) := by
  have none := slots_of_leads ruleless begun moment
  obtain ⟨bindings, problems, slots, bound, each, rfl, ended⟩ := start_ok begun
  have compiled := compiled_ofBindings bound settings
  have noting : (ofBindings survey settings bindings).Noting :=
    fun name outer => mem_find?_ancestors settings bindings (Survey.nodup_of_ofDocument loaded)
  refine ⟨?write, ?call⟩
  case write =>
    obtain ⟨u, drained⟩ := exists_drain_of_write run
    refine ⟨u, drained, ?_⟩
    rw [drain_ask idle none] at drained
    obtain ⟨-, key, found, kept⟩ := (ends_perform_kept compiled none _).of_ok drained
    obtain rfl : Key.text n = key := Option.some.inj found
    refine ⟨kept.frame noting, fun comparable key mem => ?_⟩
    have touched := kept.touched_of_mem_changes noting (fun key v _ found => ?_) mem
    · obtain ⟨w, rfl, touches⟩ := touched
      exact touches
    · exact Value.unchanged_self_of_proper (comparable key v found).1 (comparable key v found).2
  case call =>
    have here : (ofBindings survey settings bindings).Within (s.Writes (.text n)) s s :=
      ⟨.refl _ s, idle, none, List.Subset.refl _, fun _ => ⟨[], (List.append_nil _).symm, List.forall_mem_nil _⟩⟩
    have within := (ends_writeWithin_within compiled noting ?_ _ ?_ here).of_ok run
    · exact ⟨within.kept.frame noting, within.told⟩
    · exact fun l mem target v writes key found => Or.inr ⟨l, mem, target, v, writes, found⟩
    · exact fun key found => Or.inl (Option.some.inj found).symm

end Engine

/-! ## A write to the sample -/

namespace Sample

def engine : Engine := Engine.ofBindings survey settings bindings

/-- The sample with a listener. -/
def heard (listener : Listener) (s : Session) : Session := { s with listeners := s.listeners ++ [listener] }

theorem leads_heard (e : Engine) (listener : Listener) (s : Session) : e.Leads s (heard listener s) :=
  .single (.aside _ s.navigator s.notified)

/-- A listener that answers `c` by seven when it is told of another answer to `a`. -/
def echo : Listener := { id := "l", watches := some (.text "a"), writes := some (.text "c", whole 7) }

/-- The answers and who was told of which changes. -/
def outcome (s : Session) : List (Option (String × Int)) × List (String × List (Option String)) :=
  (s.answers.map whole?, s.notified.map fun c => (c.1, c.2.map Key.text?))

/-- What comes of answering `a` by eight when somebody listens. -/
theorem exists_heard (listener : Listener) (named : List (String × Int)) (told : List (String × List (Option String)))
    (h : ∃ a t, (engine.applyAll >>= fun _ => Engine.subscribe listener >>= fun _ =>
        engine.write (.text "a") (whole 8)) (engine.opening [] [] (given 1 35) false) = .ok a t ∧
      outcome t = (named.map some, told)) :
    ∃ s₀ t, Engine.start survey settings (given 1 35) false = .ok (engine, s₀) ∧
      s₀.answers = wholes [("a", 1), ("c", 35), ("t", 2)] ∧ s₀.notified = [] ∧
      engine.write (.text "a") (whole 8) (heard listener s₀) = .ok ⟨⟩ t ∧
      t.answers = wholes named ∧ t.notified.map (fun c => (c.1, c.2.map Key.text?)) = told := by
  obtain ⟨_, s₀, primed, shown⟩ : ∃ a s, engine.applyAll (engine.opening [] [] (given 1 35) false) = .ok a s ∧
      outcome s = ([some ("a", 1), some ("c", 35), some ("t", 2)], []) := Act.exists_of_seen (by decide +kernel)
  obtain ⟨_, t, run, after⟩ := h
  have subscribed : Engine.subscribe listener s₀ = .ok ⟨⟩ (heard listener s₀) := rfl
  rw [bind_eq_of_ok primed, bind_eq_of_ok subscribed] at run
  obtain ⟨answers, notified⟩ := Prod.mk.inj shown
  obtain ⟨answers', notified'⟩ := Prod.mk.inj after
  refine ⟨s₀, t, Engine.start_of_applyAll bound rfl primed, eq_wholes answers, ?_, run, eq_wholes answers', notified'⟩
  exact List.map_eq_nil_iff.mp notified

/-- What is downstream of the answer to `a`. -/
theorem downstream {key : Key} (h : engine.Downstream (.text "a") key) :
    ∃ name ∈ ["a", "t", "d", "q"], key = .text name := by
  have owners : (engine.dependencies.propagation ["a"] []).map (·.owner) = ["t", "d", "q"] := by decide +kernel
  rcases h with same | ⟨b, mem, same⟩
  · exact ⟨"a", by decide, Key.text_same_iff.mp same⟩
  · exact ⟨b.owner, List.mem_cons_of_mem _ (owners ▸ List.mem_map_of_mem mem), same⟩

/-- The answer to `c` is not downstream of the answer to `a`, and its question lies in nothing that is. -/
theorem untouched : ¬ engine.Touches (.text "a") (.text "c") := by
  have held : survey.questions.map (fun r => (r.name, Question.namesOf r.elements)) =
      [("a", []), ("c", []), ("t", []), ("d", ["q"]), ("q", [])] := rfl
  rintro (down | ⟨outer, inner, down, contains, same⟩)
  · obtain ⟨name, mem, same⟩ := downstream down
    rw [← Key.text.inj same] at mem
    revert mem
    decide
  · obtain ⟨name, mem, here⟩ := downstream down
    rw [← Key.text.inj same, Key.text.inj here] at contains
    rcases contains with ⟨p, hp, rfl, -⟩ | ⟨r, hr, rfl, inside⟩
    · have page : p.name ∈ survey.pages.map (·.name) := List.mem_map_of_mem hp
      have pages : survey.pages.map (·.name) = ["page1"] := rfl
      rw [pages] at page
      rw [List.mem_singleton.mp page] at mem
      revert mem
      decide
    · have found : (r.name, Question.namesOf r.elements) ∈ [("a", []), ("c", []), ("t", []), ("d", ["q"]), ("q", [])] :=
        held ▸ List.mem_map_of_mem hr
      simp only [List.mem_cons, Prod.mk.injEq, List.not_mem_nil, or_false] at found
      rcases found with ⟨-, held⟩ | ⟨-, held⟩ | ⟨-, held⟩ | ⟨-, held⟩ | ⟨-, held⟩ <;>
        · rw [held] at inside
          revert inside
          decide

theorem comparable {s : Session} {named : List (String × Int)} (answers : s.answers = wholes named) : s.Comparable := by
  intro key v found
  rw [answers] at found
  obtain ⟨other, mem⟩ := Table.exists_mem_of_find?_eq_some found
  obtain ⟨entry, -, same⟩ := List.mem_map.mp mem
  obtain rfl := (Prod.mk.inj same).2
  exact ⟨.number _, by simp [whole, Value.float]⟩

end Sample

namespace Engine

/-- In the sample a new answer to `a` leaves alone the answer to `c` and the flags that count of its question, and the
listener is told of other changes. -/
theorem sample_frame : ∃ s₀ t,
    start Sample.survey Sample.settings (Sample.given 1 35) false = .ok (Sample.engine, s₀) ∧
    Sample.engine.write (.text "a") (Sample.whole 8) (Sample.heard { id := "l" } s₀) = .ok ⟨⟩ t ∧
    t.value "c" = Sample.whole 35 ∧ Sample.engine.isVisible t "c" = Sample.engine.isVisible s₀ "c" ∧
    t.notified.map (·.1) = ["l"] ∧ ∀ c ∈ t.notified, Key.text "c" ∉ c.2 := by
  obtain ⟨s₀, t, begun, answers, silent, run, -, notified⟩ := Sample.exists_heard { id := "l" }
    [("a", 8), ("c", 35), ("t", 9)] [("l", [some "a", some "t", some "q"])] (Act.exists_of_seen (by decide +kernel))
  have fresh := (primed_of_start begun).1
  have moment : Sample.engine.Leads s₀ (Sample.heard { id := "l" } s₀) :=
    .single (.aside _ s₀.navigator s₀.notified)
  obtain ⟨-, frame, touched⟩ := write_touches_downstream Sample.loaded Sample.triggers begun moment fresh.queue run
  have only {w : Key} (writes : (Sample.heard { id := "l" } s₀).Writes (.text "a") w) : w = .text "a" := by
    rcases writes with rfl | ⟨l, mem, target, v, writes, -⟩
    · rfl
    · rw [Sample.heard, fresh.listeners, List.nil_append, List.mem_singleton] at mem
      rw [mem] at writes
      cases writes
  have free : ∀ w, (Sample.heard { id := "l" } s₀).Writes (.text "a") w → ¬ Sample.engine.Touches w (.text "c") := by
    intro w writes
    rw [only writes]
    exact Sample.untouched
  obtain ⟨answer, -, visible, -⟩ := frame.outside "c" free
  refine ⟨s₀, t, begun, run, ?answer, visible, ?names, ?told⟩
  case answer =>
    rw [Session.value, Fields.get, Fields.lookUp, answer, Sample.heard, answers]
    rfl
  case names =>
    simpa using congrArg (List.map Prod.fst) notified
  case told =>
    obtain ⟨told, after, each⟩ := touched (Sample.comparable answers)
    rw [Sample.heard, silent, List.nil_append] at after
    intro c mem here
    rw [after] at mem
    obtain ⟨w, writes, touches⟩ := each c mem _ here
    exact free w writes touches

/-- A listener that writes in turn takes the call further than what is downstream of its own write: `c` gets another
answer, of which the listener is told. -/
theorem echo_reaches_further : ∃ s₀ t,
    Survey.ofDocument Sample.document = .ok Sample.survey ∧ Sample.survey.triggers = [] ∧
    (Sample.survey.pages.map (·.name) ++ Sample.survey.questions.map (·.name)).Nodup ∧
    start Sample.survey Sample.settings (Sample.given 1 35) false = .ok (Sample.engine, s₀) ∧
    Sample.engine.Leads s₀ (Sample.heard Sample.echo s₀) ∧ (Sample.heard Sample.echo s₀).queue = [] ∧
    Sample.engine.write (.text "a") (Sample.whole 8) (Sample.heard Sample.echo s₀) = .ok ⟨⟩ t ∧
    ¬ Sample.engine.Touches (.text "a") (.text "c") ∧
    s₀.value "c" = Sample.whole 35 ∧ t.value "c" = Sample.whole 7 ∧ ∃ c ∈ t.notified, Key.text "c" ∈ c.2 := by
  obtain ⟨s₀, t, begun, answers, -, run, answers', notified⟩ := Sample.exists_heard Sample.echo
    [("a", 8), ("c", 7), ("t", 9)] [("l", [some "a", some "t", some "q"]), ("l", [some "c"])]
    (Act.exists_of_seen (by decide +kernel))
  have moment : Sample.engine.Leads s₀ (Sample.heard Sample.echo s₀) := .single (.aside _ s₀.navigator s₀.notified)
  refine ⟨s₀, t, Sample.loaded, Sample.triggers, by decide, begun, moment, (primed_of_start begun).1.queue, run,
    Sample.untouched, ?before, ?after, ?told⟩
  case before =>
    rw [Session.value, answers]
    rfl
  case after =>
    rw [Session.value, answers']
    rfl
  case told =>
    have second : ("l", [some "c"]) ∈ t.notified.map fun c => (c.1, c.2.map Key.text?) := by
      rw [notified]
      simp
    obtain ⟨c, mem, same⟩ := List.mem_map.mp second
    have one : some "c" ∈ c.2.map Key.text? := by
      rw [(Prod.mk.inj same).2]
      exact List.mem_singleton.mpr rfl
    obtain ⟨key, here, text⟩ := List.mem_map.mp one
    cases key with
    | text name => exact ⟨c, mem, Option.some.inj text ▸ here⟩
    | _ => cases text

end Engine

end Questionnaire
