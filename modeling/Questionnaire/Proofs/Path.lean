import Mathlib.Data.List.TakeWhile
import Questionnaire.Path
import Questionnaire.Proofs.Outcome

/-!
# The characters of a path

A text that writes a path is made of names, dots and bracketed indexes.  So it holds no brace, and a reference ends at
the first brace that closes it.
-/
namespace Questionnaire.Path

/-- A character that is no brace. -/
def Braceless (c : Char) : Prop := c ≠ '\x7b' ∧ c ≠ '\x7d'

theorem braceless_of_isNameChar {c : Char} (h : isNameChar c = true) : Braceless c := by
  simp only [isNameChar, Bool.and_eq_true, bne_iff_ne] at h
  exact ⟨h.1.2, h.2⟩

theorem braceless_of_isDigit {c : Char} (h : Text.isDigit c = true) : Braceless c := by
  constructor
  · rintro rfl
    exact absurd h (by decide)
  · rintro rfl
    exact absurd h (by decide)

theorem braceless_of_indexes? {digits : Option (List Char)} {cs : List Char} {groups : List (List Char)}
    (h : indexes? digits cs = some groups) : ∀ c ∈ cs, Braceless c := by
  induction cs generalizing digits groups with
  | nil => exact List.forall_mem_nil _
  | cons c rest ih =>
    refine List.forall_mem_cons.mpr ?_
    rw [indexes?.eq_def] at h
    cases digits with
    | none =>
      simp only at h
      split at h
      · rename_i opening
        rw [eq_of_beq opening]
        exact ⟨⟨by decide, by decide⟩, ih h⟩
      · cases h
    | some read =>
      simp only at h
      split at h
      · rename_i closing
        rw [eq_of_beq closing]
        split at h
        · cases h
        · obtain ⟨others, later, -⟩ := Option.map_eq_some_iff.mp h
          exact ⟨⟨by decide, by decide⟩, ih later⟩
      · split at h
        · rename_i digit
          exact ⟨braceless_of_isDigit digit, ih h⟩
        · cases h

theorem braceless_of_part {path : String} {cs : List Char} {found : String × List Segment}
    (h : part path cs = .ok found) : ∀ c ∈ cs, Braceless c := by
  rw [part] at h
  split at h
  · cases h
  · rename_i groups indexes
    intro c mem
    rw [← List.takeWhile_append_dropWhile (p := isNameChar) (l := cs)] at mem
    rcases List.mem_append.mp mem with name | index
    · exact braceless_of_isNameChar (List.mem_takeWhile_imp name)
    · exact braceless_of_indexes? indexes c index

theorem braceless_of_parts {path : String} {pieces : List (List Char)} {steps : List Segment}
    (h : parts path pieces = .ok steps) : ∀ cs ∈ pieces, ∀ c ∈ cs, Braceless c := by
  induction pieces generalizing steps with
  | nil => exact List.forall_mem_nil _
  | cons cs rest ih =>
    rw [parts] at h
    obtain ⟨found, first, h⟩ := Outcome.bind_eq_ok.mp h
    obtain ⟨others, later, -⟩ := Outcome.bind_eq_ok.mp h
    exact List.forall_mem_cons.mpr ⟨braceless_of_part first, ih later⟩

/-- The characters of a text are dots and the characters of its pieces. -/
theorem mem_splitDots {c : Char} {cs : List Char} (mem : c ∈ cs) :
    c = '.' ∨ ∃ piece ∈ (splitDots cs).1 :: (splitDots cs).2, c ∈ piece := by
  induction cs with
  | nil => cases mem
  | cons d rest ih =>
    rw [splitDots]
    simp only
    rcases List.mem_cons.mp mem with rfl | later
    · split
      · rename_i dot
        exact Or.inl (eq_of_beq dot)
      · exact Or.inr ⟨_, List.mem_cons_self, List.mem_cons_self⟩
    · refine (ih later).imp_right ?_
      rintro ⟨piece, among, mem⟩
      split
      · exact ⟨piece, List.mem_cons_of_mem _ among, mem⟩
      · rcases List.mem_cons.mp among with rfl | among
        · exact ⟨_, List.mem_cons_self, List.mem_cons_of_mem _ mem⟩
        · exact ⟨piece, List.mem_cons_of_mem _ among, mem⟩

theorem braceless_of_isBlank {c : Char} (h : Text.isBlank c = true) : Braceless c := by
  constructor
  · rintro rfl
    exact absurd h (by decide)
  · rintro rfl
    exact absurd h (by decide)

/-- Only blanks are stripped off a text. -/
theorem isBlank_or_mem_strip {c : Char} {cs : List Char} (mem : c ∈ cs) :
    Text.isBlank c = true ∨ c ∈ Text.strip cs := by
  have split {front : List Char} (mem : c ∈ front) :
      Text.isBlank c = true ∨ c ∈ front.dropWhile Text.isBlank := by
    rw [← List.takeWhile_append_dropWhile (p := Text.isBlank) (l := front)] at mem
    exact (List.mem_append.mp mem).imp_left List.mem_takeWhile_imp
  rcases split mem with blank | later
  · exact Or.inl blank
  · rw [Text.strip, List.mem_reverse]
    exact split (List.mem_reverse.mpr later)

/-- Without the blanks at its ends, a text that writes a path is made of its pieces and dots. -/
theorem braceless_strip_of_isValid {path : String} (valid : isValid path = true) :
    ∀ c ∈ Text.strip path.toList, Braceless c := by
  rw [isValid] at valid
  split at valid
  · rename_i p found
    rw [ofText] at found
    simp only at found
    split at found
    · cases found
    · obtain ⟨⟨root, indexes⟩, first, found⟩ := Outcome.bind_eq_ok.mp found
      obtain ⟨steps, others, -⟩ := Outcome.bind_eq_ok.mp found
      intro c mem
      rcases mem_splitDots mem with rfl | ⟨piece, among, mem⟩
      · exact ⟨by decide, by decide⟩
      · rcases List.mem_cons.mp among with rfl | among
        · exact braceless_of_part first c mem
        · exact braceless_of_parts others piece among c mem
  · cases valid

/-- A text that writes a path holds no brace. -/
theorem braceless_of_isValid {path : String} (valid : isValid path = true) : ∀ c ∈ path.toList, Braceless c := by
  intro c mem
  rcases isBlank_or_mem_strip mem with blank | kept
  · exact braceless_of_isBlank blank
  · exact braceless_strip_of_isValid valid c kept

/-- A text that writes a path without the blanks at its ends holds no brace, not at its ends either. -/
theorem braceless_of_isValid_strip {cs : List Char} (valid : isValid (String.ofList (Text.strip cs)) = true) :
    ∀ c ∈ cs, Braceless c := by
  intro c mem
  rcases isBlank_or_mem_strip mem with blank | kept
  · exact braceless_of_isBlank blank
  · exact braceless_of_isValid valid c (by rwa [String.toList_ofList])

end Questionnaire.Path
