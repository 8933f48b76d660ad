import Questionnaire.Proofs.Session.Paging
import Questionnaire.Proofs.Session.Turns
import Questionnaire.Proofs.Survey.RoundTrip

/-!
# The journey through the pages

A respondent moves among the pages by going on, going back and jumping, and is moved by triggers while a write is
followed up.  A session records what its triggers do, so the record of a write says how the respondent was moved
during it: `Trail` follows the navigator along such a record, one event after the other.

That the navigator is on a trail is the invariant of the queue; that there is a page for its index follows along the
trail, and is the invariant of the moves.
-/
namespace Questionnaire

namespace Survey

/-- There is a page for an index; without pages the index is 0. -/
def HasPlace (survey : Survey) (i : Nat) : Prop := i < survey.pages.length ∨ survey.pages = [] ∧ i = 0

theorem hasPlace_zero (survey : Survey) : survey.HasPlace 0 := by
  rcases List.eq_nil_or_concat survey.pages with none | ⟨_, _, some⟩
  · exact Or.inr ⟨none, rfl⟩
  · exact Or.inl (by simp [some])

end Survey

/-- Where a jump leads from the page at `i`, and whether it finds a page: to the first page of the name, without one to
the page that holds a question of the name, and without one nowhere else. -/
inductive Lands (survey : Survey) (target : Value) (i : Nat) : Nat → Bool → Prop
  | page {name : String} {j : Nat} {p : Page} : target = .text name → survey.pages[j]? = some p → p.name = name →
      (∀ k < j, ∀ q, survey.pages[k]? = some q → q.name ≠ name) → Lands survey target i j true
  | question {name : String} {j : Nat} {p : Page} : target = .text name → (∀ q ∈ survey.pages, q.name ≠ name) →
      survey.pages[j]? = some p →
      (∀ k q, survey.pages[k]? = some q → ((∃ r ∈ q.questions, r.name = name) ↔ k = j)) → Lands survey target i j true
  | nowhere : (∀ name, target = .text name → ∀ q ∈ survey.pages, q.name ≠ name ∧ ∀ r ∈ q.questions, r.name ≠ name) →
      Lands survey target i i false

/-- What an event of a trigger makes of the navigator. -/
inductive Steers (survey : Survey) (n : Navigator) : Event → Navigator → Prop
  | skip {event : Event} {j : Nat} {found : Bool} : event.action = .skip →
      Lands survey event.target n.index j found → Steers survey n event { n with index := j }
  | complete {event : Event} {trigger : String} : event.action = .complete →
      Steers survey n event { n with completed := true, completedBy := some trigger }
  | write {event : Event} : event.action.writes = true → Steers survey n event n

/-- A navigator is followed along some events, and all the way there is a page for it. -/
inductive Trail (survey : Survey) (n : Navigator) : List Event → Navigator → Prop
  | start : Trail survey n [] n
  | step {events : List Event} {event : Event} {m o : Navigator} : Trail survey n events m →
      Steers survey m event o → survey.HasPlace o.index → Trail survey n (events ++ [event]) o

section

variable {survey : Survey} {target : Value} {i j : Nat} {found : Bool} {n m o : Navigator} {event : Event}
  {events : List Event}

theorem Lands.hasPlace (lands : Lands survey target i j found) (here : survey.HasPlace i) : survey.HasPlace j := by
  cases lands with
  | page _ there => exact Or.inl (List.getElem?_eq_some_iff.mp there).1
  | question _ _ there => exact Or.inl (List.getElem?_eq_some_iff.mp there).1
  | nowhere => exact here

theorem Steers.hasPlace (steers : Steers survey n event m) (here : survey.HasPlace n.index) :
    survey.HasPlace m.index := by
  cases steers with
  | skip _ lands => exact lands.hasPlace here
  | complete | write => exact here

theorem Steers.completed (steers : Steers survey n event m) (completed : n.completed = true) : m.completed = true := by
  cases steers with
  | skip | write => exact completed
  | complete => rfl

theorem Trail.hasPlace (trail : Trail survey n events m) (here : survey.HasPlace n.index) :
    survey.HasPlace m.index := by
  cases trail with
  | start => exact here
  | step _ _ there => exact there

theorem Trail.completed (trail : Trail survey n events m) (completed : n.completed = true) : m.completed = true := by
  induction trail with
  | start => exact completed
  | step _ steers _ ih => exact steers.completed ih

end

theorem Page.holds_iff {p : Page} {name : String} : p.holds name = true ↔ ∃ r ∈ p.questions, r.name = name := by
  simp [holds]

namespace Engine

open Act Session

variable {e : Engine} {survey : Survey} {target : Value} {name : String} {n : Navigator}

/-! ## Where jumps lead -/

/-- Searching the pages for one that equals the page of the question finds the same index, by any comparison under which
equal pages hold the same questions. -/
theorem jumpIndex?_eq_search {p : Page} (unnamed : ∀ q ∈ e.survey.pages, q.name ≠ name)
    (held : e.survey.pageOf? name = some p) {same : Page → Bool} (self : same p = true)
    (alike : ∀ q, same q = true → q.holds name = p.holds name) :
    e.jumpIndex? name = e.survey.pages.findIdx? same := by
  obtain ⟨holds, i, within, here, before⟩ := List.find?_eq_some_iff_getElem.mp held
  have noPage : e.survey.pages.findIdx? (·.name == name) = none :=
    List.findIdx?_eq_none_iff.mpr fun q mem => beq_eq_false_iff_ne.mpr (unnamed q mem)
  have byQuestion : e.survey.pages.findIdx? (·.holds name) = some i := by
    refine List.findIdx?_eq_some_iff_getElem.mpr ⟨within, here ▸ holds, fun k less => ?_⟩
    simpa using before k less
  have byEquality : e.survey.pages.findIdx? same = some i := by
    refine List.findIdx?_eq_some_iff_getElem.mpr ⟨within, here ▸ self, fun k less equal => ?_⟩
    have other := before k less
    rw [alike _ equal, holds] at other
    cases other
  rw [jumpIndex?, noPage, byQuestion, byEquality]

/-- A question is held by one page. -/
theorem index_unique (distinct : survey.questionNames.Nodup) {i j : Nat} {p q : Page}
    (first : survey.pages[i]? = some p) (second : survey.pages[j]? = some q)
    (holds : p.holds name = true) (holds' : q.holds name = true) : i = j := by
  rw [Survey.questionNames_eq] at distinct
  exact index_unique_of_nodup_flatMap distinct first second (Survey.holds_iff.mp holds) (Survey.holds_iff.mp holds')

theorem lands_on_page {i j : Nat} (found : survey.pages.findIdx? (·.name == name) = some j) :
    Lands survey (.text name) i j true := by
  obtain ⟨within, named, earlier⟩ := List.findIdx?_eq_some_iff_getElem.mp found
  refine .page rfl (List.getElem?_eq_getElem within) (eq_of_beq named) ?_
  intro k less q there
  obtain ⟨_, rfl⟩ := List.getElem?_eq_some_iff.mp there
  simpa using earlier k less

theorem lands_on_question {i j : Nat} (distinct : survey.questionNames.Nodup)
    (unnamed : ∀ q ∈ survey.pages, q.name ≠ name) (found : survey.pages.findIdx? (·.holds name) = some j) :
    Lands survey (.text name) i j true := by
  obtain ⟨within, held, -⟩ := List.findIdx?_eq_some_iff_getElem.mp found
  have here := List.getElem?_eq_getElem within
  refine .question rfl unnamed here fun k q there => ⟨fun holds => ?_, ?_⟩
  · exact index_unique distinct there here (Page.holds_iff.mpr holds) held
  · rintro rfl
    obtain rfl := Option.some.inj (there.symm.trans here)
    exact Page.holds_iff.mp held

theorem lands_nowhere {i : Nat} (unnamed : ∀ q ∈ survey.pages, q.name ≠ name)
    (none : survey.pages.findIdx? (·.holds name) = none) : Lands survey (.text name) i i false := by
  refine .nowhere fun t same q mem => ?_
  obtain rfl := Value.text.inj same
  refine ⟨unnamed q mem, fun r among named => ?_⟩
  have held := Page.holds_iff.mpr ⟨r, among, named⟩
  rw [List.findIdx?_eq_none_iff.mp none q mem] at held
  cases held

theorem lands_jump (distinct : e.survey.questionNames.Nodup) (name : String) (n : Navigator) :
    Lands e.survey (.text name) n.index (e.jump name n).index (e.jumpIndex? name).isSome := by
  rw [jump, jumpIndex?]
  cases byName : e.survey.pages.findIdx? (·.name == name) with
  | some j => exact lands_on_page byName
  | none =>
    have unnamed : ∀ q ∈ e.survey.pages, q.name ≠ name := by
      simpa using List.findIdx?_eq_none_iff.mp byName
    cases byQuestion : e.survey.pages.findIdx? (·.holds name) with
    | some j => exact lands_on_question distinct unnamed byQuestion
    | none => exact lands_nowhere unnamed byQuestion

theorem lands_skip (definite : e.survey.Definite) (target : Value) (n : Navigator) :
    ∃ found, Lands e.survey target n.index (e.skip target n).index found := by
  cases target with
  | text name =>
    rw [skip]
    split
    · rename_i empty
      -- no page and no question is without a name, so nothing is found under the empty one
      refine ⟨false, .nowhere fun t same q mem => ?_⟩
      obtain rfl := Value.text.inj same
      rw [String.isEmpty_iff] at empty
      have page := definite.pages q mem
      refine ⟨fun named => page.named (named.trans empty), fun r among named => ?_⟩
      obtain ⟨top, held, within⟩ := Question.mem_walkAll.mp among
      exact page.elements top held r within (named.trans empty)
    · exact ⟨_, lands_jump definite.distinct name n⟩
  | _ => exact ⟨false, .nowhere fun _ same => nomatch same⟩

theorem jump_eq (name : String) (n : Navigator) : e.jump name n = { n with index := (e.jump name n).index } := by
  unfold jump
  split
  · rfl
  · rfl

theorem skip_eq (target : Value) (n : Navigator) : e.skip target n = { n with index := (e.skip target n).index } := by
  unfold skip
  split
  · split
    · rfl
    · exact jump_eq _ n
  · rfl

theorem steers_steer (definite : e.survey.Definite) (a : Slot) (event : Event) (n : Navigator) :
    Steers e.survey n event (e.steer a event n) := by
  unfold steer
  split
  · rename_i complete
    exact .complete complete
  · rename_i skips
    obtain ⟨found, lands⟩ := lands_skip definite event.target n
    rw [skip_eq]
    exact .skip skips lands
  all_goals
    rename_i writes
    exact .write (by rw [writes]; rfl)

/-! ## What a write makes of the navigator -/

/-- A session has come to its navigator along what was recorded after some events. -/
def Travelled (survey : Survey) (n : Navigator) (before : List Event) (s : Session) : Prop :=
  ∃ m events, s.navigator = some m ∧ s.history = before ++ events ∧ Trail survey n events m

section

variable {before : List Event} {s t : Session}

theorem Travelled.of_same (h : Travelled survey n before s) (navigator : t.navigator = s.navigator)
    (history : t.history = s.history) : Travelled survey n before t := by
  obtain ⟨m, events, at', recorded, trail⟩ := h
  exact ⟨m, events, navigator.trans at', history.trans recorded, trail⟩

theorem Travelled.applied (h : Travelled survey n before s) {bindings : List Binding} (applied : Applied bindings s t) :
    Travelled survey n before t := by
  refine h.of_same ?_ ?_
  · rw [applied.recomputed.rest]
  · rw [applied.recomputed.rest]

theorem fires_travelled (definite : e.survey.Definite) (here : e.survey.HasPlace n.index) :
    Fires e (fun _ => True) (Travelled e.survey n before) fun _ => True where
  fault _ := trivial
  slots _ _ _ := trivial
  report h _ := h
  noted h _ _ _ := h
  act h a _ event _ := by
    obtain ⟨m, events, at', recorded, trail⟩ := h
    have steers := steers_steer definite a event m
    have there := steers.hasPlace (trail.hasPlace here)
    refine ⟨_, events ++ [event], congrArg (Option.map _) at', ?_, trail.step steers there⟩
    rw [recorded, List.append_assoc]
  wait h _ _ _ _ := h
  drop h _ _ := h

end

variable {bindings : List Binding} (compiled : e.Compiled bindings) (definite : e.survey.Definite)
  (here : e.survey.HasPlace n.index)
include compiled definite here

theorem serves_travelled (before : List Event) :
    e.Serves (fun _ => True) (Travelled e.survey n before) fun _ => True where
  fault _ := trivial
  drain {s} h target _ v := by
    rw [drain, ends_bind, ends_get]
    have asked : Travelled e.survey n before (s.ask target v) := h
    exact (fires_travelled definite here).drainWithin compiled (fun _ _ h applied => h.applied applied)
      (fun _ => True) (fun _ _ _ _ => trivial) (fun _ _ _ _ _ h => h) _ 0 _ asked
  told h _ _ := h
  cancelled h _ := h
  heard _ _ _ _ _ := trivial

theorem ends_write_travelled {s : Session} (at' : s.navigator = some n) (target v : Value) :
    Ends (fun _ => Travelled e.survey n s.history) (fun _ => True) (e.write target v) s := by
  have still : Travelled e.survey n s.history s := ⟨n, [], at', (List.append_nil _).symm, .start⟩
  exact (serves_travelled compiled definite here s.history).writeWithin _ trivial v s still

end Engine

/-! ## The moves of the host -/

/-- What the host does in a session with a navigator. -/
inductive Move where
  | write (target value : Value)
  | next
  | previous
  | goTo (target : String)
  | subscribe (listener : Listener)
  | unsubscribe (id : String)

namespace Engine

open Act Session

/-- Jumps, and says whether a page was found. -/
def goTo (e : Engine) (target : String) : Act Bool := do
  modify fun s => { s with navigator := s.navigator.map (e.jump target) }
  return (e.jumpIndex? target).isSome

/-- Makes a move. -/
def make (e : Engine) : Move → Act Unit
  | .write target v => e.write target v
  | .next => modify fun s => { s with navigator := s.navigator.map (e.goOn s) }
  | .previous => modify fun s => { s with navigator := s.navigator.map (e.goBack s) }
  | .goTo target => do let _ ← e.goTo target
  | .subscribe listener => Engine.subscribe listener
  | .unsubscribe id => modify (Engine.unsubscribe id)

variable {e : Engine} {s t : Session} {n : Navigator} {i : Nat}

theorem hasPlace_nextIndex (s : Session) (here : e.survey.HasPlace i) : e.survey.HasPlace (e.nextIndex s i) := by
  rcases Nat.lt_or_ge i (e.survey.pages.length - 1) with ahead | behind
  · obtain ⟨-, -, last | visible⟩ := nextIndex_spec e s ahead
    · exact Or.inl (by omega)
    · exact Or.inl (lt_length_of_pageVisible visible)
  · rw [nextIndex]
    simp only [if_neg (Nat.not_lt_of_le behind)]
    exact here

theorem hasPlace_previousIndex (s : Session) (here : e.survey.HasPlace i) :
    e.survey.HasPlace (e.previousIndex s i) := by
  cases i with
  | zero => exact here
  | succ i =>
    rcases here with within | ⟨-, none⟩
    · have back := (previousIndex_spec e s i).1
      exact Or.inl (by omega)
    · cases none

/-- A session is on a page, and is completed if it was so before. -/
def Onward (survey : Survey) (n : Navigator) (s : Session) : Prop :=
  ∃ m, s.navigator = some m ∧ survey.HasPlace m.index ∧ (n.completed = true → m.completed = true)

theorem guards_make {bindings : List Binding} (compiled : e.Compiled bindings) (definite : e.survey.Definite)
    (n : Navigator) (move : Move) : Guards (Onward e.survey n) (fun _ => True) (e.make move) := by
  rintro s ⟨m, at', here, completed⟩
  cases move with
  | write target v =>
    refine (ends_write_travelled compiled definite here at' target v).mono ?_ fun _ h => h
    rintro _ t ⟨o, events, there, -, trail⟩
    exact ⟨o, there, trail.hasPlace here, fun h => trail.completed (completed h)⟩
  | next => exact ⟨_, congrArg (Option.map _) at', hasPlace_nextIndex s here, completed⟩
  | previous => exact ⟨_, congrArg (Option.map _) at', hasPlace_previousIndex s here, completed⟩
  | goTo target =>
    have lands := lands_jump definite.distinct target m
    refine ⟨_, congrArg (Option.map _) at', lands.hasPlace here, fun h => ?_⟩
    rw [jump_eq]
    exact completed h
  | subscribe | unsubscribe => exact ⟨m, at', here, completed⟩

theorem onward_of_start {survey : Survey} {settings : Settings} {given : Fields} (definite : survey.Definite)
    (begun : start survey settings given true = .ok (e, s)) : Onward survey {} s := by
  obtain ⟨bindings, problems, slots, bound, each, rfl, ended⟩ := start_ok begun
  have compiled := compiled_ofBindings bound settings
  have first : survey.HasPlace 0 := survey.hasPlace_zero
  have fires : Fires (ofBindings survey settings bindings) (fun _ => True) (Travelled survey {} []) fun _ => True :=
    fires_travelled definite first
  have opened : Travelled survey {} [] ((ofBindings survey settings bindings).opening problems slots given true) :=
    ⟨{}, [], rfl, rfl, .start⟩
  have ends : Ends (fun _ => Travelled survey {} []) (fun _ => True) (ofBindings survey settings bindings).applyAll
      ((ofBindings survey settings bindings).opening problems slots given true) := by
    rw [Ends, applyAll_eq compiled, ← Ends, ends_bind]
    refine (ends_sweep_ordered compiled _).mono (fun _ u swept => ?_) fun _ _ => trivial
    exact fires.prime u (opened.applied swept.1)
  obtain ⟨m, events, at', -, trail⟩ := ends.of_ok ended
  exact ⟨m, at', trail.hasPlace first, trail.completed⟩

/-- A respondent is on a page after any moves, on the only possible index if there are no pages, and a survey that is
completed stays so.  A write moves the respondent as its recorded events say, one after the other: a skip leads to the
first page of its target's name, without one to the page that holds the question of that name, and without that nowhere
else; a jump leads there too, and says whether it found a page. -/
theorem journey_stays_on_pages {document : Value} {survey : Survey} {settings : Settings} {given : Fields}
    {s₀ : Session} {moves : List Move} (loaded : Survey.ofDocument document = .ok survey)
    (begun : start survey settings given true = .ok (e, s₀)) (made : moves.forM e.make s₀ = .ok ⟨⟩ s) :
    ∃ n, s.navigator = some n ∧ survey.HasPlace n.index ∧
      (∀ (later : List Move) t, later.forM e.make s = .ok ⟨⟩ t →
        ∃ m, t.navigator = some m ∧ survey.HasPlace m.index ∧ (n.completed = true → m.completed = true)) ∧
      (∀ target v t, e.write target v s = .ok ⟨⟩ t →
        ∃ m events, t.navigator = some m ∧ t.history = s.history ++ events ∧ Trail survey n events m) ∧
      ∀ target, ∃ m found, e.goTo target s = .ok found { s with navigator := some m } ∧
        Lands survey (.text target) n.index m.index found ∧ m = { n with index := m.index } := by
  have definite := Survey.definite_of_ofDocument loaded
  obtain ⟨bindings, compiled⟩ := exists_compiled begun
  obtain rfl : e.survey = survey := by
    obtain ⟨_, _, _, _, _, rfl, _⟩ := start_ok begun
    rfl
  have goesOn {n : Navigator} {s t : Session} {moves : List Move} (onward : Onward e.survey n s)
      (made : moves.forM e.make s = .ok ⟨⟩ t) : Onward e.survey n t :=
    (Guards.forM (fun move _ => guards_make compiled definite n move) s onward).of_ok made
  obtain ⟨n, at', here, -⟩ := goesOn (onward_of_start definite begun) made
  refine ⟨n, at', here, fun later t made => goesOn ⟨n, at', here, id⟩ made, fun target v t run => ?_, fun target => ?_⟩
  · exact (ends_write_travelled compiled definite here at' target v).of_ok run
  · refine ⟨e.jump target n, (e.jumpIndex? target).isSome, ?_, lands_jump definite.distinct target n, jump_eq target n⟩
    have moved : s.navigator.map (e.jump target) = some (e.jump target n) := congrArg (Option.map _) at'
    rw [← moved]
    rfl

end Engine

/-! ## A survey with a shortcut -/

namespace Shortcut

/-- Three pages; a one on the first of them leads to a question inside a panel on the last, and completes the
survey. -/
def document : Value :=
  Sample.fields [
    ("pages", .sequence [
      Sample.fields [("name", .text "p1"), ("elements", .sequence [Sample.fields [("name", .text "a")]])],
      Sample.fields [("name", .text "p2")],
      Sample.fields [("name", .text "p3"), ("elements", .sequence [
        Sample.fields [("name", .text "g"), ("type", .text "panel"),
          ("elements", .sequence [Sample.fields [("name", .text "b")]])]])]]),
    ("triggers", .sequence [
      Sample.fields [("type", .text "skip"), ("expression", .text "{a} = 1"), ("gotoName", .text "b")],
      Sample.fields [("type", .text "complete"), ("expression", .text "{a} = 1")]])]

def survey : Survey :=
  match Survey.ofDocument document with
  | .ok survey => survey
  | .error _ => ⟨.undefined, .undefined, .undefined, [], [], []⟩

theorem loaded : Survey.ofDocument document = .ok survey := rfl

/-- A trigger that waits for a one. -/
def trigger (kind : TriggerKind) (gotoName : Value) : Trigger :=
  ⟨kind, "{a} = 1", .undefined, .undefined, .undefined, gotoName, .undefined⟩

theorem triggers : survey.triggers = [trigger .skip (.text "b"), trigger .complete .undefined] := rfl

def isOne : Expr := .binary .equal (.reference "a") (.literal (Sample.whole 1))

def slots : List (Slot × List Diagnostic) :=
  [(⟨trigger .skip (.text "b"), "skip:b", 0, some isOne, none, false, false, 0⟩, []),
    (⟨trigger .complete .undefined, "complete", 1, some isOne, none, false, false, 0⟩, [])]

theorem each : (survey.triggers.mapIdx Slot.ofTrigger).mapM id = .ok slots := by
  have parsed : Expr.ofText "{a} = 1" = .ok isOne := by cbv
  rw [triggers]
  simp [Slot.ofTrigger, Slot.parse, trigger, Trigger.label, parsed, bind, Except.bind, pure, Except.pure]
  rfl

theorem bound : survey.bindings = .ok ([], []) := rfl

def engine : Engine := Engine.ofBindings survey Sample.settings []

/-- What is seen of a session: where the respondent is, whether the survey is completed, and what triggers did. -/
def seen (s : Session) : Option (Nat × Bool) × List TriggerKind :=
  (s.navigator.map fun n => (n.index, n.completed), s.history.map (·.action))

/-- A one leads to the last page and completes the survey. -/
theorem taken : ∃ s₀ s, Engine.start survey Sample.settings [] true = .ok (engine, s₀) ∧
    engine.write (.text "a") (Sample.whole 1) s₀ = .ok ⟨⟩ s ∧ seen s = (some (2, true), [.skip, .complete]) := by
  have led : ∃ a s, (engine.applyAll >>= fun _ => engine.write (.text "a") (Sample.whole 1))
      (engine.opening [] slots [] true) = .ok a s ∧ seen s = (some (2, true), [.skip, .complete]) :=
    Act.exists_of_seen (by decide +kernel)
  obtain ⟨_, s, run, shown⟩ := led
  obtain ⟨s₀, begun, run⟩ := Engine.exists_start_of_run bound each run
  exact ⟨s₀, s, begun, run, shown⟩

end Shortcut

namespace Engine

/-- The shortcut leads from the first page to the page of the question and completes the survey, and from there one can
jump on. -/
theorem shortcut_journey : ∃ s₀ s n m events,
    start Shortcut.survey Sample.settings [] true = .ok (Shortcut.engine, s₀) ∧ s₀.navigator = some n ∧
    Shortcut.engine.write (.text "a") (Sample.whole 1) s₀ = .ok ⟨⟩ s ∧ s.navigator = some m ∧
    s.history = s₀.history ++ events ∧ Trail Shortcut.survey n events m ∧ m.index = 2 ∧ m.completed = true ∧
    s.history.map (·.action) = [.skip, .complete] ∧
    ∃ o found, Shortcut.engine.goTo "p1" s = .ok found { s with navigator := some o } ∧
      Lands Shortcut.survey (.text "p1") 2 o.index found := by
  obtain ⟨s₀, s, begun, run, shown⟩ := Shortcut.taken
  obtain ⟨place, actions⟩ := Prod.mk.inj shown
  have still : ([] : List Move).forM Shortcut.engine.make s₀ = .ok ⟨⟩ s₀ := rfl
  have written : [Move.write (.text "a") (Sample.whole 1)].forM Shortcut.engine.make s₀ = .ok ⟨⟩ s :=
    Act.bind_eq_of_ok run
  obtain ⟨n, first, -, -, writes, -⟩ := journey_stays_on_pages Shortcut.loaded begun still
  obtain ⟨m, events, at', recorded, trail⟩ := writes _ _ _ run
  obtain ⟨m', at'', -, -, -, jumps⟩ := journey_stays_on_pages Shortcut.loaded begun written
  obtain rfl : m = m' := Option.some.inj (at'.symm.trans at'')
  rw [at'] at place
  obtain ⟨last, completed⟩ := Prod.mk.inj (Option.some.inj place)
  obtain ⟨o, found, jumped, lands, -⟩ := jumps "p1"
  rw [last] at lands
  exact ⟨s₀, s, n, m, events, begun, first, run, at', recorded, trail, last, completed, actions,
    o, found, jumped, lands⟩

end Engine

end Questionnaire
