import Questionnaire.Expr.Evaluation
import Questionnaire.Proofs.Expr.Printing

/-!
# The places that a reference can name

A path is written as its root, a dot in front of each further name, and each index in brackets.  What is written so is
read back as the same path, whatever names and indexes follow each other, and the reference leads to the value in that
place.
-/
namespace Questionnaire

namespace Path

/-! ## Paths in writing -/

/-- Texts that can be names in a path: some characters, and none that ends a name. -/
def Nameable (name : String) : Prop :=
  name ≠ "" ∧ ∀ c ∈ name.toList, Text.isBlank c = false ∧ c ∉ ['.', '[', ']', '\x7b', '\x7d']

-- The characters are checked one by one: they are a finite type, but too large a one.
instance (name : String) : Decidable (Nameable name) := @instDecidableAnd _ _ inferInstance (List.decidableBAll _ _)

end Path

/-- Steps that can be written: to a name, or to an item by a natural of few digits. -/
inductive Segment.Writable : Segment → Prop
  | name {s : String} : Path.Nameable s → Writable (.name s)
  | index {n : Nat} : n < digitBound → Writable (.index n)

def Segment.written : Segment → String
  | .name s => "." ++ s
  | .index n => "[" ++ toString n ++ "]"

namespace Path

def writtenSteps : List Segment → String
  | [] => ""
  | step :: rest => step.written ++ writtenSteps rest

/-- The text of a path. -/
def written (p : Path) : String := p.root ++ writtenSteps p.steps

/-- Paths of names and steps that can be written. -/
structure Writable (p : Path) : Prop where
  root : Nameable p.root
  steps : ∀ step ∈ p.steps, step.Writable

theorem toList_written_name (s : String) : (Segment.name s).written.toList = '.' :: s.toList := by
  simp [Segment.written]

theorem toList_written_index (n : Nat) :
    (Segment.index n).written.toList = '[' :: (decimalDigits n).toList ++ [']'] := by
  have number : toString (n : Int) = decimalDigits n := rfl
  simp [Segment.written, number]

theorem isNameChar_of_nameable {name : String} (nameable : Nameable name) : ∀ c ∈ name.toList, isNameChar c = true := by
  intro c mem
  obtain ⟨blank, apart⟩ := nameable.2 c mem
  simp only [List.mem_cons, List.not_mem_nil, or_false, not_or] at apart
  obtain ⟨dot, opening, closing, left, right⟩ := apart
  simp [isNameChar, blank, dot, opening, closing, left, right]

/-! ## Pieces between dots -/

theorem splitDots_append {front : List Char} (whole : '.' ∉ front) (rest : List Char) :
    splitDots (front ++ rest) = (front ++ (splitDots rest).1, (splitDots rest).2) := by
  induction front with
  | nil => rfl
  | cons c tail ih =>
    obtain ⟨dot, later⟩ := not_or.mp (mt List.mem_cons.mpr whole)
    have other : (c == '.') = false := beq_false_of_ne (Ne.symm dot)
    rw [List.cons_append, splitDots, ih later]
    simp only [other]
    rfl

theorem splitDots_dot (rest : List Char) :
    splitDots ('.' :: rest) = ([], (splitDots rest).1 :: (splitDots rest).2) := rfl

/-- Some digits and the bracket that closes them are read as one index, in front of those behind it. -/
theorem indexes?_digits {digits : List Char} (all : ∀ c ∈ digits, Text.isDigit c = true) (read : List Char)
    (some : read ++ digits ≠ []) (rest : List Char) :
    indexes? (.some read) (digits ++ ']' :: rest) = (indexes? none rest).map ((read ++ digits) :: ·) := by
  induction digits generalizing read with
  | nil =>
    rw [List.append_nil] at some ⊢
    rw [List.nil_append, indexes?, if_pos (beq_self_eq_true _), if_neg (by simpa using some)]
  | cons c tail ih =>
    obtain ⟨digit, later⟩ := List.forall_mem_cons.mp all
    have open' : ¬ (c == ']') = true := by
      rintro closing
      rw [eq_of_beq closing] at digit
      exact absurd digit (by decide)
    rw [List.cons_append, indexes?, if_neg open', if_pos digit, ih later _ (by simp), List.append_assoc]
    rfl

theorem indexes?_index {digits : List Char} (all : ∀ c ∈ digits, Text.isDigit c = true) (some : digits ≠ [])
    (rest : List Char) : indexes? none ('[' :: digits ++ ']' :: rest) = (indexes? none rest).map (digits :: ·) := by
  rw [List.cons_append, indexes?, if_pos (beq_self_eq_true _), indexes?_digits all [] some]
  rfl

/-- An index ends the name in front of it. -/
theorem takeWhile_of_indexes? {cs : List Char} {groups : List (List Char)} (read : indexes? none cs = some groups) :
    cs.takeWhile isNameChar = [] := by
  cases cs with
  | nil => rfl
  | cons c rest =>
    rw [indexes?] at read
    split at read
    · rename_i opening
      rw [eq_of_beq opening]
      exact List.takeWhile_cons_of_neg (by decide)
    · cases read

def indexSteps (groups : List (List Char)) : List Segment := groups.map fun digits => .index (Text.digitsValue digits)

theorem part_of_indexes? (path : String) {name : String} (nameable : Nameable name) {cs : List Char}
    {groups : List (List Char)} (read : indexes? none cs = some groups)
    (short : ∀ digits ∈ groups, digits.length ≤ digitLimit) :
    part path (name.toList ++ cs) = .ok (name, indexSteps groups) := by
  have taken : (name.toList ++ cs).takeWhile isNameChar = name.toList := by
    rw [List.takeWhile_append_of_pos (isNameChar_of_nameable nameable), takeWhile_of_indexes? read, List.append_nil]
  have left : (name.toList ++ cs).dropWhile isNameChar = cs := by
    have whole := List.takeWhile_append_dropWhile (p := isNameChar) (l := name.toList ++ cs)
    rw [taken] at whole
    exact List.append_cancel_left whole
  have some : name.toList.isEmpty = false := by
    have chars : name.toList ≠ [] := fun none => nameable.1 (String.toList_eq_nil_iff.mp none)
    simpa using chars
  have few : (groups.any (·.length > digitLimit)) = false := by
    simpa using short
  simp only [part, taken, left, read, some, few, String.ofList_toList]
  rfl

/-- The text behind a name, as it is read: indexes up to the next dot, and the parts between the dots from there on. -/
structure Reads (path : String) (cs : List Char) (groups : List (List Char)) (later : List Segment) : Prop where
  indexes : indexes? none (splitDots cs).1 = some groups
  short : ∀ digits ∈ groups, digits.length ≤ digitLimit
  parts : parts path (splitDots cs).2 = .ok later

variable {path : String} {cs : List Char} {groups : List (List Char)} {later : List Segment}

theorem Reads.name (behind : Reads path cs groups later) {name : String} (nameable : Nameable name) :
    Reads path ('.' :: (name.toList ++ cs)) [] (.name name :: indexSteps groups ++ later) := by
  have whole : '.' ∉ name.toList := fun mem => (nameable.2 _ mem).2 (by decide)
  refine ⟨rfl, List.forall_mem_nil _, ?_⟩
  rw [splitDots_dot, splitDots_append whole]
  show Path.parts path ((name.toList ++ (splitDots cs).1) :: (splitDots cs).2) = _
  rw [Path.parts, part_of_indexes? path nameable behind.indexes behind.short, behind.parts]
  rfl

theorem Reads.index (behind : Reads path cs groups later) {n : Nat} (small : n < digitBound) :
    Reads path ('[' :: (decimalDigits n).toList ++ ']' :: cs) ((decimalDigits n).toList :: groups) later := by
  have digits : ∀ c ∈ (decimalDigits n).toList, Text.isDigit c = true := fun c mem =>
    Numeral.isDigit_of_isDigit (Numeral.isDigit_of_mem_decimalDigits mem)
  have point : '.' ∉ '[' :: (decimalDigits n).toList ++ [']'] := by
    have none : '.' ∉ (decimalDigits n).toList := fun mem => absurd (digits _ mem) (by decide)
    simpa using none
  rw [List.append_cons]
  refine ⟨?_, List.forall_mem_cons.mpr ⟨Numeral.length_decimalDigits small, behind.short⟩, ?_⟩
  · rw [splitDots_append point, ← List.append_cons, indexes?_index digits (Numeral.decimalDigits_ne_nil n),
      behind.indexes]
    rfl
  · rw [splitDots_append point]
    exact behind.parts

theorem reads_writtenSteps (path : String) {steps : List Segment} (writable : ∀ step ∈ steps, step.Writable) :
    ∃ groups later, Reads path (writtenSteps steps).toList groups later ∧ indexSteps groups ++ later = steps := by
  induction steps with
  | nil => exact ⟨[], [], ⟨rfl, List.forall_mem_nil _, rfl⟩, rfl⟩
  | cons step rest ih =>
    obtain ⟨first, others⟩ := List.forall_mem_cons.mp writable
    obtain ⟨groups, later, behind, all⟩ := ih others
    cases first with
    | @name s nameable =>
      rw [writtenSteps, String.toList_append, toList_written_name]
      exact ⟨[], _, behind.name nameable, congrArg (Segment.name s :: ·) all⟩
    | @index n small =>
      rw [writtenSteps, String.toList_append, toList_written_index, ← List.append_cons]
      refine ⟨_, later, behind.index small, ?_⟩
      show .index (Text.digitsValue (decimalDigits n).toList) :: (indexSteps groups ++ later) = _
      rw [Numeral.digitsValue_decimalDigits, all]

/-! ## What is written is read back -/

theorem not_isBlank_of_mem_written {step : Segment} (writable : step.Writable) :
    ∀ c ∈ step.written.toList, Text.isBlank c = false := by
  cases writable with
  | name nameable =>
    rw [toList_written_name]
    exact List.forall_mem_cons.mpr ⟨by decide, fun c mem => (nameable.2 c mem).1⟩
  | index small =>
    rw [toList_written_index]
    refine List.forall_mem_append.mpr ⟨List.forall_mem_cons.mpr ⟨by decide, fun c mem => ?_⟩, ?_⟩
    · exact (Numeral.digit_of_isDigit (Numeral.isDigit_of_mem_decimalDigits mem)).2.1
    · exact List.forall_mem_singleton.mpr (by decide)

theorem not_isBlank_of_mem_writtenSteps {steps : List Segment} (writable : ∀ step ∈ steps, step.Writable) :
    ∀ c ∈ (writtenSteps steps).toList, Text.isBlank c = false := by
  induction steps with
  | nil => exact List.forall_mem_nil _
  | cons step rest ih =>
    obtain ⟨first, others⟩ := List.forall_mem_cons.mp writable
    rw [writtenSteps, String.toList_append]
    exact List.forall_mem_append.mpr ⟨not_isBlank_of_mem_written first, ih others⟩

theorem strip_written {p : Path} (writable : p.Writable) : Text.strip p.written.toList = p.written.toList := by
  refine Numeral.strip_of_not_isBlank ?_
  rw [written, String.toList_append]
  refine List.forall_mem_append.mpr ⟨fun c mem => (writable.root.2 c mem).1, ?_⟩
  exact not_isBlank_of_mem_writtenSteps writable.steps

/-- A path is read back from its text. -/
theorem ofText_written {p : Path} (writable : p.Writable) : ofText p.written = .ok p := by
  obtain ⟨groups, later, behind, all⟩ := reads_writtenSteps p.written writable.steps
  have chars : p.written.toList = p.root.toList ++ (writtenSteps p.steps).toList := String.toList_append
  have whole : '.' ∉ p.root.toList := fun mem => (writable.root.2 _ mem).2 (by decide)
  have some : p.written.toList.isEmpty = false := by
    have filled : p.root.toList ≠ [] := fun none => writable.root.1 (String.toList_eq_nil_iff.mp none)
    rw [chars]
    simp [filled]
  rw [ofText, strip_written writable]
  simp only [some]
  rw [if_neg Bool.false_ne_true, chars, splitDots_append whole]
  simp only [part_of_indexes? p.written writable.root behind.indexes behind.short, behind.parts]
  exact congrArg (fun steps => Except.ok (Path.mk p.root steps)) all

theorem isValid_written {p : Path} (writable : p.Writable) : isValid p.written = true := by
  rw [isValid, ofText_written writable]

/-! ## Where a path leads -/

/-- The value in the place that a step names: a field of a structured value, or an item of a sequence.  There is none if
the key is missing, the index is out of range, or the value is of another kind. -/
inductive Holds : Value → Segment → Value → Prop
  | field {fields : Fields} {s : String} {v : Value} :
      fields.find? (.text s) = some v → Holds (.structured fields) (.name s) v
  | item {items : List Value} {n : Nat} {v : Value} : items[n]? = some v → Holds (.sequence items) (.index n) v

/-- What is found by following steps into a value; nothing, as soon as there is no such place. -/
inductive Follows : Value → List Segment → Value → Prop
  | here (v : Value) : Follows v [] v
  | into {v x w : Value} {first : Segment} {rest : List Segment} :
      Holds v first x → Follows x rest w → Follows v (first :: rest) w
  | lost {v : Value} {first : Segment} (rest : List Segment) :
      (∀ x, ¬ Holds v first x) → Follows v (first :: rest) .undefined

theorem step_of_holds {v x : Value} {first : Segment} (holds : Holds v first x) : step v first = x := by
  cases holds with
  | @field fields s _ found =>
    show (fields.find? (.text s)).getD .undefined = x
    rw [found]
    rfl
  | @item items n _ found =>
    show (if (0 : Int) ≤ n then items.getD n .undefined else .undefined) = x
    rw [if_pos (Int.natCast_nonneg n), List.getD_eq_getElem?_getD, found]
    rfl

theorem step_of_not_holds {v : Value} {first : Segment} (writable : first.Writable) (lost : ∀ x, ¬ Holds v first x) :
    step v first = .undefined := by
  cases writable with
  | @name s _ =>
    cases v with
    | structured fields =>
      have missing : Table.find? fields (.text s) = none :=
        Option.eq_none_iff_forall_not_mem.mpr fun x found => lost x (.field found)
      exact congrArg (·.getD .undefined) missing
    | _ => rfl
  | @index n _ =>
    cases v with
    | sequence items =>
      have out : items[n]? = none := Option.eq_none_iff_forall_not_mem.mpr fun x found => lost x (.item found)
      show (if (0 : Int) ≤ n then items.getD n .undefined else .undefined) = .undefined
      rw [if_pos (Int.natCast_nonneg n), List.getD_eq_getElem?_getD, out]
      rfl
    | _ => rfl

theorem foldl_step_undefined (steps : List Segment) : steps.foldl step .undefined = .undefined := by
  induction steps with
  | nil => rfl
  | cons first rest ih => cases first <;> exact ih

/-- Steps that can be written lead to one value, which is the one that the program takes. -/
theorem follows_iff {steps : List Segment} (writable : ∀ first ∈ steps, first.Writable) {v w : Value} :
    Follows v steps w ↔ w = steps.foldl step v := by
  constructor
  · intro follows
    induction follows with
    | here v => rfl
    | into holds _ ih =>
      rw [List.foldl_cons, step_of_holds holds]
      exact ih (List.forall_mem_cons.mp writable).2
    | lost rest none =>
      rw [List.foldl_cons, step_of_not_holds (List.forall_mem_cons.mp writable).1 none, foldl_step_undefined]
  · rintro rfl
    induction steps generalizing v with
    | nil => exact .here v
    | cons first rest ih =>
      obtain ⟨here, later⟩ := List.forall_mem_cons.mp writable
      rw [List.foldl_cons]
      by_cases place : ∃ x, Holds v first x
      · obtain ⟨x, holds⟩ := place
        rw [step_of_holds holds]
        exact .into holds (ih later)
      · have lost := not_exists.mp place
        rw [step_of_not_holds here lost, foldl_step_undefined]
        exact .lost rest lost

theorem follows_resolve {p : Path} (writable : p.Writable) (answers : Fields) {w : Value} :
    Follows (.structured answers) (.name p.root :: p.steps) w ↔ w = p.resolve answers :=
  follows_iff (List.forall_mem_cons.mpr ⟨.name writable.root, writable.steps⟩)

end Path

/-! ## References -/

namespace Token

theorem ofText_reference {path : String} (valid : Path.isValid path = true)
    (trimmed : Text.strip path.toList = path.toList) :
    ofText ("\x7b" ++ path ++ "\x7d") = .ok [⟨.reference, "\x7b" ++ path ++ "\x7d", 0, .text path⟩,
      ⟨.endOfText, "", path.length + 2, .undefined⟩] := by
  have chars : ("\x7b" ++ path ++ "\x7d").toList = '\x7b' :: (path.toList ++ ['\x7d']) := by simp
  have cut := cuts_reference valid trimmed 0 [] Lexeme.parting_nil
  rw [List.append_nil, ← chars, String.ofList_toList, scan] at cut
  rw [ofText, cut, chars]
  simp [String.length_toList]

end Token

theorem Expr.ofText_reference {path : String} (valid : Path.isValid path = true)
    (trimmed : Text.strip path.toList = path.toList) :
    Expr.ofText ("\x7b" ++ path ++ "\x7d") = .ok (.reference path) := by
  have cut := Token.ofText_reference valid trimmed
  have noEnd : ∀ t ∈ [(⟨.reference, "\x7b" ++ path ++ "\x7d", 0, .text path⟩ : Token)], t.kind ≠ .endOfText :=
    List.forall_mem_singleton.mpr nofun
  exact (Expr.ofText_eq_ok_iff cut noEnd rfl).mpr (Grammar.Derives.ofPrimary (.reference rfl rfl))

/-- A path in braces is one reference, to exactly that path, and its value is found by following the path. -/
theorem Path.addresses {p : Path} (writable : p.Writable) (c : Context) :
    Token.ofText ("\x7b" ++ p.written ++ "\x7d") = .ok
      [⟨.reference, "\x7b" ++ p.written ++ "\x7d", 0, .text p.written⟩,
        ⟨.endOfText, "", p.written.length + 2, .undefined⟩] ∧
    Expr.ofText ("\x7b" ++ p.written ++ "\x7d") = .ok (.reference p.written) ∧
    Path.ofText p.written = .ok p ∧
    ∃ v, (Expr.reference p.written).evaluate c = .ok v ∧
      ∀ w, Path.Follows (.structured c.answers) (.name p.root :: p.steps) w ↔ w = v := by
  have valid := isValid_written writable
  have trimmed := strip_written writable
  have read := ofText_written writable
  refine ⟨Token.ofText_reference valid trimmed, Expr.ofText_reference valid trimmed, read, p.resolve c.answers, ?_, ?_⟩
  · rw [Expr.evaluate, Context.reference, read]
  · exact fun w => follows_resolve writable c.answers

namespace Sample

/-- A path of names that hold digits, a quote, an operator and a word of the language. -/
def marks : Path := ⟨"1'", [.index 10, .name "+\"", .name "and", .index 0]⟩

def marked : Context where
  answers := [(.text "1'", .sequence (List.replicate 10 .undefined ++
    [.structured [(.text "+\"", .structured [(.text "and", .sequence [.int 5, .int 6])])]]))]
  today := ⟨2024, 6, 15⟩
  functions := Library.standard

end Sample

theorem Path.addresses_marks : Sample.marks.Writable ∧
    Expr.ofText "\x7b1'[10].+\".and[0]\x7d" = .ok (.reference Sample.marks.written) ∧
    (Expr.reference Sample.marks.written).evaluate Sample.marked = .ok (.int 5) := by
  have writable : Sample.marks.Writable := by
    have few {n : Nat} (small : n < 11) : (Segment.index n).Writable := .index (small.trans (by decide +kernel))
    refine ⟨by decide, ?_⟩
    intro step mem
    simp only [Sample.marks, List.mem_cons, List.not_mem_nil, or_false] at mem
    rcases mem with rfl | rfl | rfl | rfl
    · exact few (by decide)
    · exact .name (by decide)
    · exact .name (by decide)
    · exact few (by decide)
  obtain ⟨-, parsed, -, v, evaluated, follows⟩ := Path.addresses writable Sample.marked
  have found : v = .int 5 := by
    refine ((follows (.int 5)).mp ?_).symm
    exact .into (.field rfl) (.into (.item rfl) (.into (.field rfl) (.into (.field rfl) (.into (.item rfl) (.here _)))))
  exact ⟨writable, parsed, found ▸ evaluated⟩

end Questionnaire
