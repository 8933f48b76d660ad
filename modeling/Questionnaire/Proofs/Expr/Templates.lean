import Mathlib
import Questionnaire.Expr.Template
import Questionnaire.Proofs.Expr.Boundaries

/-!
# Placeholders of a display text

A display text is cut into literal texts and references without the lexer.  The references are the brace groups that
the lexer takes for references: a brace group is an opening brace and the text up to the brace that closes it, without
a brace between them, and it is a placeholder if on its own it is cut into one reference.  `Splits` says how the parts
of a text and its placeholders come about from its end to its front.
-/
namespace Questionnaire

namespace Template

/-- The brace group at the front of a text. -/
def group? : List Char → Option (List Char)
  | '\x7b' :: rest => (Lexeme.closingBrace? rest).map fun n => '\x7b' :: rest.take n
  | _ => none

/-- The path of the one reference that some tokens are, but for the end of the text. -/
def onlyReference? : List Token → Option String
  | [⟨.reference, _, _, .text path⟩, ⟨.endOfText, _, _, _⟩] => some path
  | _ => none

/-- The path of a text that the lexer takes for one reference. -/
def lexedPath? (cs : List Char) : Option String :=
  (Token.ofText (String.ofList cs)).toOption.bind onlyReference?

/-- The brace group at the front of a text and its path, if the lexer takes the group for a reference. -/
def placeholder? (cs : List Char) : Option (List Char × String) := do
  let group ← group? cs
  let path ← lexedPath? group
  return (group, path)

/-- The placeholders of a text, in order. -/
def placeholders (cs : List Char) : List (List Char × String) := cs.tails.filterMap placeholder?

/-- A text put together from its parts, with the brace groups that the references were read from in their places. -/
def fill : List TemplatePart → List (List Char) → List Char
  | [], _ => []
  | .text s :: parts, groups => s.toList ++ fill parts groups
  | .reference _ :: parts, [] => fill parts []
  | .reference _ :: parts, group :: groups => group ++ fill parts groups

end Template

namespace TemplatePart

/-- The path of a reference. -/
def path? : TemplatePart → Option String
  | .text _ => none
  | .reference path => some path

def isText (part : TemplatePart) : Bool := part.path?.isNone

end TemplatePart

namespace Template

variable {c : Char} {cs rest after inner group : List Char} {path : String} {ps : List TemplatePart}
  {gs : List (List Char × String)}

/-! ## Brace groups -/

theorem group?_eq_some : group? cs = some group ↔
    ∃ inner, group = '\x7b' :: (inner ++ ['\x7d']) ∧ (∀ c ∈ inner, Path.Braceless c) ∧ group <+: cs := by
  constructor
  · intro found
    unfold group? at found
    split at found
    · rename_i rest
      obtain ⟨n, closing, rfl⟩ := Option.map_eq_some_iff.mp found
      obtain ⟨inner, after, rfl, rfl, free⟩ := Lexeme.closingBrace?_eq_some closing
      refine ⟨inner, ?_, free, ?_⟩
      · simp [List.take_append]
      · exact List.cons_prefix_cons.mpr ⟨rfl, List.take_prefix _ _⟩
    · cases found
  · rintro ⟨inner, rfl, free, after, rfl⟩
    have closing := Lexeme.closingBrace?_append free after
    simp [group?, closing, List.take_append]

/-- A brace group on its own is cut into one reference if it encloses a path, and cannot be cut otherwise. -/
theorem lexedPath?_group (free : ∀ c ∈ inner, Path.Braceless c) :
    lexedPath? ('\x7b' :: (inner ++ ['\x7d'])) =
      if Path.isValid (String.ofList (Text.strip inner)) then some (String.ofList (Text.strip inner)) else none := by
  have first := Lexeme.first_reference free []
  have body : (('\x7b' :: (inner ++ ['\x7d'])).drop 1).dropLast = inner := by simp
  by_cases valid : Path.isValid (String.ofList (Text.strip inner)) = true
  · have token : Lexeme.token? (.token .reference) ('\x7b' :: (inner ++ ['\x7d'])) 0 =
        .ok (some ⟨.reference, String.ofList ('\x7b' :: (inner ++ ['\x7d'])), 0,
          .text (String.ofList (Text.strip inner))⟩) := by
      simp only [Lexeme.token?, body, valid, if_true]
    have found := Token.scan_of_first first token
    rw [List.append_nil, Token.scan] at found
    rw [lexedPath?, Token.ofText, String.toList_ofList, found, if_pos valid]
    rfl
  · have fails : Lexeme.token? (.token .reference) ('\x7b' :: (inner ++ ['\x7d'])) 0 =
        .error ⟨.invalidReference (String.ofList ('\x7b' :: (inner ++ ['\x7d']))), 0⟩ := by
      simp only [Lexeme.token?, body, if_neg valid]
    rw [List.append_nil] at first
    rw [lexedPath?, Token.ofText, String.toList_ofList, Token.scan, first, if_neg valid]
    simp only [List.take_succ_cons, List.take_length, fails]
    rfl

theorem placeholder?_group (free : ∀ c ∈ inner, Path.Braceless c) (after : List Char) :
    placeholder? ('\x7b' :: (inner ++ '\x7d' :: after)) =
      if Path.isValid (String.ofList (Text.strip inner)) then
        some ('\x7b' :: (inner ++ ['\x7d']), String.ofList (Text.strip inner))
      else none := by
  have found : group? ('\x7b' :: (inner ++ '\x7d' :: after)) = some ('\x7b' :: (inner ++ ['\x7d'])) :=
    group?_eq_some.mpr ⟨inner, rfl, free, after, by simp⟩
  simp only [placeholder?, found, Option.bind_eq_bind, Option.bind_some, lexedPath?_group free]
  split
  · rfl
  · rfl

/-- The placeholder at the front of a text. -/
theorem placeholder?_eq_some : placeholder? cs = some (group, path) ↔
    ∃ inner after, cs = '\x7b' :: (inner ++ '\x7d' :: after) ∧ (∀ c ∈ inner, Path.Braceless c) ∧
      group = '\x7b' :: (inner ++ ['\x7d']) ∧ path = String.ofList (Text.strip inner) ∧ Path.isValid path = true := by
  constructor
  · intro found
    have opens : ∃ inner after, cs = '\x7b' :: (inner ++ '\x7d' :: after) ∧ ∀ c ∈ inner, Path.Braceless c := by
      obtain ⟨group, begins, -⟩ := Option.bind_eq_some_iff.mp found
      obtain ⟨inner, rfl, free, after, rfl⟩ := group?_eq_some.mp begins
      exact ⟨inner, after, by simp, free⟩
    obtain ⟨inner, after, rfl, free⟩ := opens
    rw [placeholder?_group free] at found
    split at found
    · rename_i valid
      cases found
      exact ⟨inner, after, rfl, free, rfl, rfl, valid⟩
    · cases found
  · rintro ⟨inner, after, rfl, free, rfl, rfl, valid⟩
    rw [placeholder?_group free, if_pos valid]

/-- The reference that is read behind an opening brace. -/
theorem reference?_eq_some : reference? cs = some (path, after) ↔
    ∃ inner, cs = inner ++ '\x7d' :: after ∧ (∀ c ∈ inner, Path.Braceless c) ∧
      path = String.ofList (Text.strip inner) ∧ Path.isValid path = true := by
  constructor
  · intro found
    unfold reference? at found
    split at found
    · rename_i d rest behind
      dsimp only at found
      split at found
      · rename_i valid
        cases found
        have closes : d = '\x7d' := by
          have stops := Lexeme.halts_dropWhile (· != '\x7d') cs
          rw [behind] at stops
          simpa using Lexeme.halts_cons.mp stops
        have split : cs = cs.takeWhile (· != '\x7d') ++ '\x7d' :: after := by
          rw [closes] at behind
          rw [← behind, List.takeWhile_append_dropWhile]
        exact ⟨_, split, Path.braceless_of_isValid_strip valid, rfl, valid⟩
      · cases found
    · cases found
  · rintro ⟨inner, rfl, free, rfl, valid⟩
    have goesOn : ∀ c ∈ inner, (c != '\x7d') = true := fun c mem => bne_iff_ne.mpr (free c mem).2
    have front : (inner ++ '\x7d' :: after).takeWhile (· != '\x7d') = inner := by
      rw [List.takeWhile_append_of_pos goesOn]
      simp
    have behind : (inner ++ '\x7d' :: after).dropWhile (· != '\x7d') = '\x7d' :: after := by
      rw [List.dropWhile_append_of_pos goesOn]
      simp
    simp only [reference?, front, behind, valid, if_true]

/-! ## The placeholders of a text, from its end to its front -/

theorem placeholders_cons (c : Char) (rest : List Char) :
    placeholders (c :: rest) = (placeholder? (c :: rest)).toList ++ placeholders rest := by
  rw [placeholders, List.tails_cons, List.filterMap_cons]
  cases placeholder? (c :: rest) with
  | none => rfl
  | some found => rfl

/-- Without an opening brace no placeholder begins. -/
theorem placeholders_append (free : ∀ c ∈ cs, c ≠ '\x7b') (rest : List Char) :
    placeholders (cs ++ rest) = placeholders rest := by
  induction cs with
  | nil => rfl
  | cons c tail ih =>
    obtain ⟨other, free⟩ := List.forall_mem_cons.mp free
    have none : placeholder? (c :: (tail ++ rest)) = none := by
      rw [Option.eq_none_iff_forall_ne_some]
      rintro ⟨group, path⟩ found
      obtain ⟨inner, after, split, -⟩ := placeholder?_eq_some.mp found
      exact other (List.cons.inj split).1
    rw [List.cons_append, placeholders_cons, none, ih free]
    rfl

/-- The parts of a text and its placeholders. -/
inductive Splits : List Char → List TemplatePart → List (List Char × String) → Prop
  | done : Splits [] [] []
  | text {c : Char} {rest : List Char} {ps : List TemplatePart} {gs : List (List Char × String)} :
      Splits rest ps gs → Splits (c :: rest) (addChar c ps) gs
  | reference {group after : List Char} {path : String} {ps : List TemplatePart} {gs : List (List Char × String)} :
      Splits after ps gs → Splits (group ++ after) (.reference path :: ps) ((group, path) :: gs)

/-- What is read behind an opening brace stands in a placeholder, and no other begins before its end. -/
theorem placeholders_of_reference? (found : reference? rest = some (path, after)) :
    ∃ group, '\x7b' :: rest = group ++ after ∧ placeholders ('\x7b' :: rest) = (group, path) :: placeholders after := by
  obtain ⟨inner, rfl, free, named, valid⟩ := reference?_eq_some.mp found
  have here : placeholder? ('\x7b' :: (inner ++ '\x7d' :: after)) = some ('\x7b' :: (inner ++ ['\x7d']), path) :=
    placeholder?_eq_some.mpr ⟨inner, after, rfl, free, rfl, named, valid⟩
  have closed : ∀ c ∈ inner ++ ['\x7d'], c ≠ '\x7b' := by
    intro c mem
    rcases List.mem_append.mp mem with within | closing
    · exact (free c within).1
    · rw [List.mem_singleton.mp closing]
      decide
  have others : placeholders (inner ++ '\x7d' :: after) = placeholders after := by
    rw [← placeholders_append closed after, List.append_assoc]
    rfl
  refine ⟨'\x7b' :: (inner ++ ['\x7d']), by simp, ?_⟩
  rw [placeholders_cons, here, others]
  rfl

example : placeholders "a \x7bx\x7b b \x7d\x7bc".toList = [("\x7b b \x7d".toList, "b")] := by cbv

theorem placeholders_of_text (literal : c = '\x7b' → reference? rest = none) :
    placeholders (c :: rest) = placeholders rest := by
  have here : placeholder? (c :: rest) = none := by
    rw [Option.eq_none_iff_forall_ne_some]
    rintro ⟨group, path⟩ found
    obtain ⟨inner, after, split, free, -, named, valid⟩ := placeholder?_eq_some.mp found
    obtain ⟨opens, behind⟩ := List.cons.inj split
    have read := reference?_eq_some.mpr ⟨inner, behind, free, named, valid⟩
    cases (literal opens).symm.trans read
  rw [placeholders_cons, here]
  rfl

theorem parts_of_reference? (found : reference? rest = some (path, after)) :
    parts ('\x7b' :: rest) = .reference path :: parts after := by
  rw [parts, if_pos (by decide)]
  split
  · rename_i other
    cases found.symm.trans other
    rfl
  · rename_i none
    cases found.symm.trans none

theorem parts_of_text (literal : c = '\x7b' → reference? rest = none) :
    parts (c :: rest) = addChar c (parts rest) := by
  rw [parts]
  split
  · rename_i opens
    split
    · rename_i found
      cases (literal (eq_of_beq opens)).symm.trans found
    · rfl
  · rfl

theorem splits (cs : List Char) : Splits cs (parts cs) (placeholders cs) := by
  have text {c : Char} {rest : List Char} (literal : c = '\x7b' → reference? rest = none)
      (ih : Splits rest (parts rest) (placeholders rest)) :
      Splits (c :: rest) (parts (c :: rest)) (placeholders (c :: rest)) := by
    rw [parts_of_text literal, placeholders_of_text literal]
    exact .text ih
  induction cs using parts.induct with
  | case1 =>
    rw [parts]
    exact .done
  | case2 c rest opens path after found _ ih =>
    obtain rfl := eq_of_beq opens
    obtain ⟨group, split, others⟩ := placeholders_of_reference? found
    rw [parts_of_reference? found, others, split]
    exact .reference ih
  | case3 c rest opens none ih => exact text (fun _ => none) ih
  | case4 c rest other ih => exact text (fun opens => absurd (beq_iff_eq.mpr opens) other) ih

/-! ## What the parts are -/

theorem fill_addChar (c : Char) (ps : List TemplatePart) (groups : List (List Char)) :
    fill (addChar c ps) groups = c :: fill ps groups := by
  unfold addChar
  split
  · simp [fill]
  · simp [fill]

theorem paths_addChar (c : Char) (ps : List TemplatePart) :
    (addChar c ps).filterMap TemplatePart.path? = ps.filterMap TemplatePart.path? := by
  unfold addChar
  split
  · rfl
  · rfl

theorem Splits.fill (splits : Splits cs ps gs) : fill ps (gs.map (·.1)) = cs := by
  induction splits with
  | done => rfl
  | text _ ih => rw [fill_addChar, ih]
  | reference _ ih => rw [List.map_cons, Template.fill, ih]

theorem Splits.paths (splits : Splits cs ps gs) : ps.filterMap TemplatePart.path? = gs.map (·.2) := by
  induction splits with
  | done => rfl
  | text _ ih => rw [paths_addChar, ih]
  | reference _ ih => exact congrArg (_ :: ·) ih

/-- Of two neighbours one is a reference. -/
def Apart (p q : TemplatePart) : Prop := p.isText = true → q.isText = false

theorem apart_text (s : String) {q : TemplatePart} : Apart (.text s) q ↔ q.isText = false :=
  ⟨fun apart => apart rfl, fun other _ => other⟩

theorem isChain_addChar (c : Char) (chain : ps.IsChain Apart) : (addChar c ps).IsChain Apart := by
  unfold addChar
  split
  · obtain ⟨next, others⟩ := List.isChain_cons.mp chain
    refine List.isChain_cons.mpr ⟨fun q first => ?_, others⟩
    exact (apart_text _).mpr ((apart_text _).mp (next q first))
  · rename_i noText
    refine List.isChain_cons.mpr ⟨fun q first => (apart_text _).mpr ?_, chain⟩
    cases q with
    | text s =>
      obtain ⟨others, rfl⟩ : ∃ others, ps = .text s :: others := ⟨ps.tail, (List.cons_head?_tail first).symm⟩
      exact absurd rfl (noText s others)
    | reference path => rfl

theorem not_mem_addChar (c : Char) (filled : .text "" ∉ ps) : .text "" ∉ addChar c ps := by
  unfold addChar
  split
  · simp only [List.mem_cons, not_or] at filled ⊢
    exact ⟨by simp, filled.2⟩
  · simp only [List.mem_cons, not_or]
    exact ⟨by simp, filled⟩

theorem Splits.isChain (splits : Splits cs ps gs) : ps.IsChain Apart := by
  induction splits with
  | done => exact .nil
  | text _ ih => exact isChain_addChar _ ih
  | reference _ ih => exact List.isChain_cons.mpr ⟨by rintro q first ⟨⟩, ih⟩

theorem Splits.filled (splits : Splits cs ps gs) : .text "" ∉ ps := by
  induction splits with
  | done => exact List.not_mem_nil
  | text _ ih => exact not_mem_addChar _ ih
  | reference _ ih => simpa using ih

/-- The parts of a display text, with the brace groups of its references in their places, are the text; its references
are its brace groups that the lexer takes for one reference, in order, with the paths that the lexer gives them; and
its literal texts are not empty and have no other literal text beside them. -/
theorem parts_agree_with_lexer (source : String) :
    fill (ofText source) ((placeholders source.toList).map (·.1)) = source.toList ∧
      (ofText source).filterMap TemplatePart.path? = (placeholders source.toList).map (·.2) ∧
      .text "" ∉ ofText source ∧ (ofText source).IsChain Apart := by
  have split := splits source.toList
  exact ⟨split.fill, split.paths, split.filled, split.isChain⟩

end Template

end Questionnaire
