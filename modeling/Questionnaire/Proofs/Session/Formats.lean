import Questionnaire.Proofs.Session.Validity

/-!
# Answers of a given form

A pattern fits exactly the texts that its pieces take one after the other, whatever order the runs are tried in, and
these texts with a line break behind them.  So of a text question for addresses it is said that its answer is none
exactly if the answer, less one line break at its end, has not the form of an address.
-/
namespace Questionnaire

/-! ## What a pattern takes -/

namespace Text

/-- A row of pieces takes a text, each piece its part of it. -/
inductive Taken : List Piece → List Char → Prop
  | nil : Taken [] []
  | one {takes : Char → Bool} {later : List Piece} {c : Char} {rest : List Char} : takes c = true →
      Taken later rest → Taken (.one takes :: later) (c :: rest)
  | run {takes : Char → Bool} {later : List Piece} {part rest : List Char} : part ≠ [] →
      (∀ c ∈ part, takes c = true) → Taken later rest → Taken (.run takes :: later) (part ++ rest)

theorem taken_one_iff {takes : Char → Bool} {later : List Piece} {cs : List Char} :
    Taken (.one takes :: later) cs ↔ ∃ c rest, cs = c :: rest ∧ takes c = true ∧ Taken later rest := by
  constructor
  · rintro (_ | ⟨first, taken⟩)
    exact ⟨_, _, rfl, first, taken⟩
  · rintro ⟨c, rest, rfl, first, taken⟩
    exact .one first taken

theorem taken_run_iff {takes : Char → Bool} {later : List Piece} {cs : List Char} :
    Taken (.run takes :: later) cs ↔
      ∃ part rest, cs = part ++ rest ∧ part ≠ [] ∧ (∀ c ∈ part, takes c = true) ∧ Taken later rest := by
  constructor
  · rintro (_ | _ | ⟨some, all, taken⟩)
    exact ⟨_, _, rfl, some, all, taken⟩
  · rintro ⟨part, rest, rfl, some, all, taken⟩
    exact .run some all taken

/-- A run that is under way takes one character more. -/
theorem Taken.more {takes : Char → Bool} {later : List Piece} {cs : List Char} {c : Char} (first : takes c = true)
    (taken : Taken (.run takes :: later) cs) : Taken (.run takes :: later) (c :: cs) := by
  cases taken with
  | run _ all rest => exact .run (List.cons_ne_nil c _) (List.forall_mem_cons.mpr ⟨first, all⟩) rest

/-- A run that ends well does so after some of the characters that it may take. -/
theorem fits_run {takes : Char → Bool} {later : List Piece} {part rest : List Char} (some : part ≠ [])
    (all : ∀ c ∈ part, takes c = true) (fit : fits later rest = true) :
    fits (.run takes :: later) (part ++ rest) = true := by
  induction part with
  | nil => exact absurd rfl some
  | cons c part ih =>
    obtain ⟨first, all⟩ := List.forall_mem_cons.mp all
    rw [List.cons_append, fits, first, Bool.true_and, Bool.or_eq_true]
    cases part with
    | nil => exact Or.inr fit
    | cons _ _ => exact Or.inl (ih (List.cons_ne_nil _ _) all)

/-- A pattern fits what its pieces take, and that with a line break behind it. -/
theorem fits_iff {pieces : List Piece} {cs : List Char} :
    fits pieces cs = true ↔ ∃ taken, Taken pieces taken ∧ (cs = taken ∨ cs = taken ++ ['\n']) := by
  constructor
  · intro fit
    fun_induction fits pieces cs with
    | case1 rest =>
      rw [Bool.or_eq_true, List.isEmpty_iff, beq_iff_eq] at fit
      exact ⟨[], .nil, fit⟩
    | case2 => cases fit
    | case3 takes later c rest ih =>
      rw [Bool.and_eq_true] at fit
      obtain ⟨taken, found, same⟩ := ih fit.2
      exact ⟨c :: taken, .one fit.1 found, same.imp (congrArg (c :: ·)) (congrArg (c :: ·))⟩
    | case4 takes later c rest longer shorter =>
      rw [Bool.and_eq_true, Bool.or_eq_true] at fit
      obtain ⟨first, fit⟩ := fit
      rcases fit with fit | fit
      · obtain ⟨taken, found, same⟩ := longer fit
        exact ⟨c :: taken, found.more first, same.imp (congrArg (c :: ·)) (congrArg (c :: ·))⟩
      · obtain ⟨taken, found, same⟩ := shorter fit
        exact ⟨[c] ++ taken, .run (List.cons_ne_nil c []) (by simpa using first) found,
          same.imp (congrArg (c :: ·)) (congrArg (c :: ·))⟩
  · rintro ⟨taken, found, same⟩
    induction found generalizing cs with
    | nil => rcases same with rfl | rfl <;> rfl
    | @one takes later c rest first _ ih =>
      rcases same with rfl | rfl
      · rw [fits, first, Bool.true_and]
        exact ih (Or.inl rfl)
      · rw [List.cons_append, fits, first, Bool.true_and]
        exact ih (Or.inr rfl)
    | run some all _ ih =>
      rcases same with rfl | rfl
      · exact fits_run some all (ih (Or.inl rfl))
      · rw [List.append_assoc]
        exact fits_run some all (ih (Or.inr rfl))

end Text

/-! ## Addresses -/

/-- A user and a host around an `@`, the host with a point inside, nothing blank anywhere, and no other `@`. -/
def IsAddress (s : String) : Prop :=
  ∃ x y z : String, s = x ++ "@" ++ y ++ "." ++ z ∧ x ≠ "" ∧ y ≠ "" ∧ z ≠ "" ∧
    (∀ c ∈ s.toList, Text.isBlank c = false) ∧ ∀ c ∈ x.toList ++ y.toList ++ z.toList, c ≠ '@'

theorem Text.isAddressChar_iff {c : Char} : isAddressChar c = true ↔ isBlank c = false ∧ c ≠ '@' := by
  rw [isAddressChar, Bool.and_eq_true, Bool.not_eq_true', bne_iff_ne]

/-- What the pattern of addresses takes are the addresses. -/
theorem Text.taken_address_iff {s : String} : Taken address s.toList ↔ IsAddress s := by
  constructor
  · intro taken
    obtain ⟨x, rest, text, hx, user, taken⟩ := taken_run_iff.mp taken
    obtain ⟨at', rest, rfl, sign, taken⟩ := taken_one_iff.mp taken
    obtain ⟨y, rest, rfl, hy, host, taken⟩ := taken_run_iff.mp taken
    obtain ⟨point, rest, rfl, dot, taken⟩ := taken_one_iff.mp taken
    obtain ⟨z, rest, rfl, hz, domain, taken⟩ := taken_run_iff.mp taken
    cases taken
    obtain rfl : at' = '@' := beq_iff_eq.mp sign
    obtain rfl : point = '.' := beq_iff_eq.mp dot
    simp only [isAddressChar_iff] at user host domain
    refine ⟨String.ofList x, String.ofList y, String.ofList z, ?text, ?user, ?host, ?domain, ?blank, ?other⟩
    case text => simp [← String.toList_inj, text]
    case user => simpa [← String.toList_inj] using hx
    case host => simpa [← String.toList_inj] using hy
    case domain => simpa [← String.toList_inj] using hz
    case blank =>
      rw [text]
      simp only [List.forall_mem_append, List.forall_mem_cons, List.append_nil]
      exact ⟨fun c mem => (user c mem).1, by decide, fun c mem => (host c mem).1, by decide,
        fun c mem => (domain c mem).1⟩
    case other =>
      simp only [String.toList_ofList, List.forall_mem_append]
      exact ⟨⟨fun c mem => (user c mem).2, fun c mem => (host c mem).2⟩, fun c mem => (domain c mem).2⟩
  · rintro ⟨x, y, z, rfl, hx, hy, hz, blank, other⟩
    have text : (x ++ "@" ++ y ++ "." ++ z).toList = x.toList ++ '@' :: (y.toList ++ '.' :: (z.toList ++ [])) := by
      simp
    rw [text] at blank ⊢
    simp only [List.forall_mem_append, List.forall_mem_cons, List.append_nil] at blank other
    obtain ⟨user, -, host, -, domain⟩ := blank
    obtain ⟨⟨user', host'⟩, domain'⟩ := other
    have part {x : String} (some : x ≠ "") : x.toList ≠ [] := mt String.toList_eq_nil_iff.mp some
    exact .run (part hx) (fun c mem => isAddressChar_iff.mpr ⟨user c mem, user' c mem⟩) <| .one rfl <|
      .run (part hy) (fun c mem => isAddressChar_iff.mpr ⟨host c mem, host' c mem⟩) <| .one rfl <|
      .run (part hz) (fun c mem => isAddressChar_iff.mpr ⟨domain c mem, domain' c mem⟩) .nil

/-- What passes for an address is one, but for a line break at its end. -/
theorem isEmail_iff (s : String) : isEmail s = true ↔ IsAddress s ∨ ∃ t, s = t ++ "\n" ∧ IsAddress t := by
  rw [isEmail, Text.fits_iff]
  constructor
  · rintro ⟨taken, found, same | same⟩
    · exact Or.inl (Text.taken_address_iff.mp (same ▸ found))
    · refine Or.inr ⟨String.ofList taken, ?_, Text.taken_address_iff.mp ?_⟩
      · rw [← String.toList_inj, same]
        simp
      · rwa [String.toList_ofList]
  · rintro (address | ⟨t, rfl, address⟩)
    · exact ⟨s.toList, Text.taken_address_iff.mpr address, Or.inl rfl⟩
    · exact ⟨t.toList, Text.taken_address_iff.mpr address, Or.inr (by simp)⟩

/-! ## What is said of an answer -/

namespace Engine

variable {e : Engine} {s : Session} {p : Page} {q : Question}

/-- The errors of a page contain what is said of each of its questions. -/
theorem exists_of_pageErrors {errors : List String} (ends : e.pageErrors s p = .ok errors) (mem : q ∈ p.questions) :
    ∃ before own after, errors = before ++ own ++ after ∧ e.questionErrors s q = .ok own := by
  obtain ⟨gathered, each, rest⟩ := Outcome.bind_eq_ok.mp ends
  have own : ∃ own ∈ gathered, e.questionErrors s q = .ok own := by
    obtain ⟨i, bound, rfl⟩ := List.getElem_of_mem mem
    have pairs := Outcome.forall₂_of_mapM each
    exact ⟨_, List.getElem_mem (pairs.length_eq ▸ bound), pairs.get bound (pairs.length_eq ▸ bound)⟩
  obtain ⟨own, hown, said⟩ := own
  obtain ⟨first, last, rfl⟩ := List.append_of_mem hown
  have behind : ∃ more, errors = (first ++ own :: last).flatten ++ more := by
    dsimp only at rest
    split at rest
    · split at rest
      · obtain ⟨name, -, same⟩ := Outcome.bind_eq_ok.mp rest
        exact ⟨_, (Except.ok.inj same).symm⟩
      · exact ⟨_, (Except.ok.inj rest).symm⟩
    · exact ⟨[], by rw [List.append_nil, ← Except.ok.inj rest]⟩
  obtain ⟨more, rfl⟩ := behind
  exact ⟨first.flatten, own, last.flatten ++ more, by simp, said⟩

theorem lengthErrors_of_unlimited {limit : Value} (none : limit.truthy = false) (r : Relation) (words : String)
    (length : Nat) : lengthErrors q r words length limit = .ok [] := by
  rw [lengthErrors, exceeds, none]
  rfl

section

variable (kind : q.kind = .text "text") (leaf : q.elements = []) (form : q.properties .inputType = .text "email")
variable (least : (q.properties .minLength).truthy = false) (most : (q.properties .maxLength).truthy = false)
include kind leaf form least most

/-- Of an answer to a question for addresses nothing is said, or one thing. -/
theorem questionErrors_of_address (visible : e.isVisible s q.name = true) (enabled : e.isEnabled s q.name = true)
    {t : String} (answer : s.value q.name = .text t) (nonempty : t ≠ "") :
    e.questionErrors s q = if isEmail t then .ok [] else complaint q " must be a valid email" := by
  have single : q.isContainer = false :=
    Question.isContainer_eq_false_iff.mpr ⟨leaf, by simp [kind], by simp [kind]⟩
  have answered : (Value.text t).isEmpty = false := by simpa [Value.isEmpty] using nonempty
  have judged : e.questionErrors s q = textErrors q (.text t) := by
    unfold questionErrors
    simp [single, visible, enabled, answered, kind, answer]
  have short := lengthErrors_of_unlimited (q := q) least .less "at least" t.length
  have long := lengthErrors_of_unlimited (q := q) most .greater "no more than" t.length
  rw [judged, textErrors, Value.toText, form]
  cases accepted : isEmail t with
  | true => simp [accepted, short, long, bind, Except.bind, pure, Except.pure]
  | false =>
    cases complaint q " must be a valid email" <;>
      simp [accepted, short, long, bind, Except.bind, pure, Except.pure]

/-- What a page says of an answer to a question for addresses: nothing exactly if the answer is an address, and so it
does with one line break at the end; else that it is none. -/
theorem address_accepted_iff (visible : e.isVisible s q.name = true) (enabled : e.isEnabled s q.name = true)
    {t : String} (answer : s.value q.name = .text t) (nonempty : t ≠ "") (mem : q ∈ p.questions)
    {errors : List String} (ends : e.pageErrors s p = .ok errors) :
    ∃ before own after, errors = before ++ own ++ after ∧ e.questionErrors s q = .ok own ∧
      (t.toList.getLast? ≠ some '\n' → (own = [] ↔ IsAddress t)) ∧
      (own = [] ↔ IsAddress t ∨ ∃ body, t = body ++ "\n" ∧ IsAddress body) ∧
      (own ≠ [] → ∃ title, q.displayTitle.nameText = .ok title ∧ own = [title ++ " must be a valid email"]) := by
  obtain ⟨before, own, after, parts, said⟩ := exists_of_pageErrors ends mem
  have judged := questionErrors_of_address kind leaf form least most visible enabled answer nonempty
  have accepted : own = [] ↔ isEmail t = true := by
    rw [said] at judged
    split at judged
    · rename_i accepted
      exact iff_of_true (Except.ok.inj judged) accepted
    · rename_i refused
      exact iff_of_false (fun none => complaint_ne_nil _ (none ▸ judged.symm)) refused
  refine ⟨before, own, after, parts, said, ?unbroken, accepted.trans (isEmail_iff t), ?refused⟩
  case unbroken =>
    intro unbroken
    rw [accepted, isEmail_iff]
    refine or_iff_left ?_
    rintro ⟨body, rfl, -⟩
    exact unbroken (by simp)
  case refused =>
    intro more
    rw [said, if_neg (mt accepted.mpr more)] at judged
    obtain ⟨title, named, same⟩ := Outcome.bind_eq_ok.mp judged.symm
    exact ⟨title, named, (Except.ok.inj same).symm⟩

end

end Engine

/-! ## A survey with one question -/

namespace Contact

/-- One question, for an address. -/
def document : Value :=
  Sample.fields [("elements", .sequence [Sample.fields [("name", .text "email"), ("inputType", .text "email")]])]

def survey : Survey :=
  match Survey.ofDocument document with
  | .ok survey => survey
  | .error _ => ⟨.undefined, .undefined, .undefined, [], [], []⟩

theorem loaded : Survey.ofDocument document = .ok survey := rfl

def page : Page := survey.pages.get ⟨0, by decide⟩

def question : Question := page.questions.get ⟨0, by decide⟩

/-- The question is a plain text question for an address. -/
theorem plain : question.kind = .text "text" ∧ question.elements = [] ∧
    question.properties .inputType = .text "email" ∧ (question.properties .minLength).truthy = false ∧
    (question.properties .maxLength).truthy = false := ⟨rfl, rfl, rfl, rfl, rfl⟩

def engine : Engine := Engine.ofBindings survey Sample.settings []

/-- A session with an answer. -/
def session (t : String) : Session :=
  { answers := [(.text "email", .text t)], flags := [("page1", {}), ("email", {})] }

theorem started (t : String) :
    Engine.start survey Sample.settings [(.text "email", .text t)] false = .ok (engine, session t) := rfl

theorem asked (t : String) : engine.isVisible (session t) question.name = true ∧
    engine.isEnabled (session t) question.name = true ∧ (session t).value question.name = .text t := ⟨rfl, rfl, rfl⟩

end Contact

namespace Engine

/-- An address with two points side by side in its host is accepted, and so it is one. -/
theorem contact_accepted : start Contact.survey Sample.settings [(.text "email", .text "ann@home..net")] false =
      .ok (Contact.engine, Contact.session "ann@home..net") ∧
    Contact.engine.pageErrors (Contact.session "ann@home..net") Contact.page = .ok [] ∧
    IsAddress "ann@home..net" := by
  obtain ⟨kind, leaf, form, least, most⟩ := Contact.plain
  obtain ⟨visible, enabled, answer⟩ := Contact.asked "ann@home..net"
  have ends : Contact.engine.pageErrors (Contact.session "ann@home..net") Contact.page = .ok [] := by rfl
  obtain ⟨before, own, after, parts, -, accepted, -⟩ :=
    address_accepted_iff kind leaf form least most visible enabled answer (by decide) (List.get_mem _ _) ends
  have none : own = [] := by
    have parts := List.append_eq_nil_iff.mp parts.symm
    exact (List.append_eq_nil_iff.mp parts.1).2
  exact ⟨Contact.started _, ends, (accepted (by decide)).mp none⟩

/-- A line break behind an address is accepted, although it is blank. -/
theorem contact_line_break_accepted : Survey.ofDocument Contact.document = .ok Contact.survey ∧
    start Contact.survey Sample.settings [(.text "email", .text "a@b.c\n")] false =
      .ok (Contact.engine, Contact.session "a@b.c\n") ∧
    Contact.page ∈ Contact.survey.pages ∧ Contact.question ∈ Contact.page.questions ∧
    Contact.question.kind = .text "text" ∧ Contact.question.elements = [] ∧
    Contact.question.properties .inputType = .text "email" ∧
    Contact.question.properties .minLength = .undefined ∧ Contact.question.properties .maxLength = .undefined ∧
    Contact.engine.isVisible (Contact.session "a@b.c\n") Contact.question.name = true ∧
    Contact.engine.isEnabled (Contact.session "a@b.c\n") Contact.question.name = true ∧
    (Contact.session "a@b.c\n").value Contact.question.name = .text "a@b.c\n" ∧
    Contact.engine.pageErrors (Contact.session "a@b.c\n") Contact.page = .ok [] ∧ ¬ IsAddress "a@b.c\n" := by
  obtain ⟨visible, enabled, answer⟩ := Contact.asked "a@b.c\n"
  refine ⟨Contact.loaded, Contact.started _, List.get_mem _ _, List.get_mem _ _, rfl, rfl, rfl, rfl, rfl, visible,
    enabled, answer, rfl, ?_⟩
  rintro ⟨_, _, _, -, -, -, -, blank, -⟩
  exact absurd (blank '\n' (by decide)) (by decide)

end Engine

end Questionnaire
