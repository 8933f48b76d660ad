import Mathlib
import Questionnaire.Proofs.Expr.Boundaries
import Questionnaire.Proofs.Outcome

/-!
# Tokens tile their source

`Lexed position cs body` says that a text, which begins at a position, is a row of blanks and tokens.
-/
namespace Questionnaire

namespace Lexeme

variable {c : Char} {rest tail raw : List Char} {n : Nat} {kind : LexemeKind}

theorem Begins.ne_endOfText (begins : Begins c rest kind n) : kind ≠ .token .endOfText := by
  rintro rfl
  cases begins

/-- What a lexeme stands for, wherever it stands: it is no part of an expression, it stands for nothing, or it stands
for a token with its text. -/
theorem token?_cases (kind : LexemeKind) (raw : List Char) :
    (∃ cause, ∀ position, token? kind raw position = .error ⟨cause, position⟩) ∨
    (kind = .blank ∧ ∀ position, token? kind raw position = .ok none) ∨
    (kind.isPart = true ∧ ∃ tokenKind value, (tokenKind = .endOfText → kind = .token .endOfText) ∧
      ∀ position, token? kind raw position = .ok (some ⟨tokenKind, String.ofList raw, position, value⟩)) := by
  cases kind with
  | openReference | openString | unknown => exact Or.inl ⟨_, fun position => rfl⟩
  | blank => exact Or.inr (Or.inl ⟨rfl, fun position => rfl⟩)
  | token kind =>
    cases kind with
    | string | operator => exact Or.inr (Or.inr ⟨rfl, _, _, by rintro ⟨⟩, fun position => rfl⟩)
    | punctuation | endOfText => exact Or.inr (Or.inr ⟨rfl, _, _, congrArg _, fun position => rfl⟩)
    | reference =>
      by_cases valid : Path.isValid (String.ofList (Text.strip (raw.drop 1).dropLast)) = true
      · exact Or.inr (Or.inr ⟨rfl, _, _, by rintro ⟨⟩, fun position => if_pos valid⟩)
      · exact Or.inl ⟨_, fun position => if_neg valid⟩
    | number =>
      cases found : numberValue raw with
      | ok v =>
        refine Or.inr (Or.inr ⟨rfl, .number, v, by rintro ⟨⟩, fun position => ?_⟩)
        simp only [token?, found]
      | error cause =>
        refine Or.inl ⟨cause, fun position => ?_⟩
        simp only [token?, found]
    | identifier =>
      by_cases word : wordOperators.contains (lowered (String.ofList raw)) = true
      · exact Or.inr (Or.inr ⟨rfl, _, _, by rintro ⟨⟩, fun position => if_pos word⟩)
      · exact Or.inr (Or.inr ⟨rfl, _, _, by rintro ⟨⟩, fun position => if_neg word⟩)

theorem token?_part (kind : LexemeKind) (raw : List Char) (position : Nat) :
    (∃ cause, token? kind raw position = .error ⟨cause, position⟩) ∨
      kind.isPart = true ∧ ∃ found, token? kind raw position = .ok found := by
  rcases token?_cases kind raw with ⟨cause, fails⟩ | ⟨rfl, nothing⟩ | ⟨part, _, _, -, stands⟩
  · exact Or.inl ⟨cause, fails position⟩
  · exact Or.inr ⟨rfl, _, nothing position⟩
  · exact Or.inr ⟨part, _, stands position⟩

end Lexeme

namespace Token
open Lexeme

/-- A text that begins at a position is a row of lexemes, and these are the tokens among them. -/
inductive Lexed : Nat → List Char → List Token → Prop
  | done {position : Nat} : Lexed position [] []
  | blank {position : Nat} {c : Char} {tail rest : List Char} {body : List Token} :
      Begins c (tail ++ rest) .blank tail.length → Lexed (position + (tail.length + 1)) rest body →
      Lexed position (c :: (tail ++ rest)) body
  | token {position : Nat} {c : Char} {tail rest : List Char} {kind : LexemeKind} {t : Token} {body : List Token} :
      Begins c (tail ++ rest) kind tail.length → t.position = position →
      (∀ position, token? kind (c :: tail) position = .ok (some { t with position })) →
      Lexed (position + (tail.length + 1)) rest body → Lexed position (c :: (tail ++ rest)) (t :: body)

/-- The token for the end of a text. -/
def ending (position : Nat) : Token := ⟨.endOfText, "", position, .undefined⟩

variable {position : Nat} {cs : List Char} {tokens body : List Token}

theorem Lexed.scan (lexed : Lexed position cs body) :
    scan position cs = .ok (body ++ [ending (position + cs.length)]) := by
  induction lexed with
  | done =>
    rw [Token.scan]
    rfl
  | @blank position c tail rest body begins _ ih =>
    have length : position + (c :: (tail ++ rest)).length = position + (tail.length + 1) + rest.length := by
      simp only [List.length_cons, List.length_append]
      omega
    rw [scan_of_first begins.first rfl, Nat.add_assoc, ih, length]
    rfl
  | @token position c tail rest kind t body begins place found _ ih =>
    have length : position + (c :: (tail ++ rest)).length = position + (tail.length + 1) + rest.length := by
      simp only [List.length_cons, List.length_append]
      omega
    subst place
    rw [scan_of_first begins.first (found _), Nat.add_assoc, ih, length]
    rfl

/-- A lexeme in front of a row of lexemes, which may be the front part of the text that the lexeme was found in. -/
theorem Lexed.behind {c : Char} {tail front rest : List Char} {kind : LexemeKind} {found : Option Token}
    (lexed : Lexed (position + (tail.length + 1)) front body) (begins : Begins c (tail ++ rest) kind tail.length)
    (part : front <+: rest) (token : token? kind (c :: tail) position = .ok found) :
    ∃ body, Lexed position (c :: (tail ++ front)) body := by
  have begins' : Begins c (tail ++ front) kind tail.length := begins.milder (Or.inl part)
  rcases token?_cases kind (c :: tail) with ⟨cause, fails⟩ | ⟨rfl, -⟩ | ⟨-, tokenKind, value, -, stands⟩
  · cases (fails _).symm.trans token
  · exact ⟨body, .blank begins' lexed⟩
  · exact ⟨⟨tokenKind, String.ofList (c :: tail), position, value⟩ :: body, .token begins' rfl stands lexed⟩

/-- A text is a row of lexemes, or it is so up to a place where it cannot be cut. -/
theorem lexed_or_error (position : Nat) (cs : List Char) : (∃ body, Lexed position cs body) ∨
    ∃ front c rest body cause, cs = front ++ c :: rest ∧ Lexed position front body ∧
      Token.scan position cs = .error ⟨cause, position + front.length⟩ := by
  induction length : cs.length using Nat.strongRecOn generalizing position cs with
  | ind m ih =>
    cases cs with
    | nil => exact Or.inl ⟨[], .done⟩
    | cons c rest =>
      obtain ⟨kind, n, here⟩ : ∃ kind n, first c rest = (kind, n) := ⟨_, _, rfl⟩
      rcases token?_part kind ((c :: rest).take n) position with ⟨cause, fails⟩ | ⟨part, found, token⟩
      · refine Or.inr ⟨[], c, rest, [], cause, rfl, .done, ?_⟩
        rw [Token.scan, here]
        simp only [fails]
        rfl
      obtain ⟨tail, others, rfl, rfl, begins⟩ := exists_begins here part
      rw [List.take_succ_cons, List.take_left] at token
      have shorter : others.length < m := by
        rw [← length, List.length_cons, List.length_append]
        omega
      rcases ih _ shorter (position + (tail.length + 1)) others rfl with
        ⟨body, lexed⟩ | ⟨front, d, rest, body, cause, rfl, lexed, fails⟩
      · exact Or.inl (lexed.behind begins (List.prefix_refl others) token)
      · obtain ⟨body', lexed'⟩ := lexed.behind begins (List.prefix_append front (d :: rest)) token
        refine Or.inr ⟨c :: (tail ++ front), d, rest, body', cause, by simp, lexed', ?_⟩
        have moved : position + (c :: (tail ++ front)).length = position + (tail.length + 1) + front.length := by
          simp only [List.length_cons, List.length_append]
          omega
        rw [scan_of_first begins.first token, Nat.add_assoc, fails, moved]
        rfl

/-- What is found when a text is cut without error. -/
theorem scan_eq_ok_iff : Token.scan position cs = .ok tokens ↔
    ∃ body, tokens = body ++ [ending (position + cs.length)] ∧ Lexed position cs body := by
  constructor
  · intro found
    rcases lexed_or_error position cs with ⟨body, lexed⟩ | ⟨_, _, _, _, _, _, _, fails⟩
    · rw [lexed.scan] at found
      exact ⟨body, (Except.ok.inj found).symm, lexed⟩
    · cases fails.symm.trans found
  · rintro ⟨body, rfl, lexed⟩
    exact lexed.scan

/-! ## Where tokens stand -/

/-- A token of a text, which begins at a position, is no end of a text, and its text is there at its place. -/
structure Stands (position : Nat) (cs : List Char) (t : Token) : Prop where
  kind : t.kind ≠ .endOfText
  text : t.text ≠ ""
  after : position ≤ t.position
  slice : (cs.drop (t.position - position)).take t.text.length = t.text.toList

theorem Stands.behind {front rest : List Char} {t : Token} (stands : Stands (position + front.length) rest t) :
    Stands position (front ++ rest) t where
  kind := stands.kind
  text := stands.text
  after := Nat.le_of_add_right_le stands.after
  slice := by
    have after := stands.after
    have place : t.position - position = front.length + (t.position - (position + front.length)) := by omega
    rw [place, ← List.drop_drop, List.drop_left, stands.slice]

/-- A lexeme that stands for a token is its text. -/
theorem stands_of_begins {c : Char} {tail rest : List Char} {kind : LexemeKind} {t : Token}
    (begins : Begins c (tail ++ rest) kind tail.length) (found : token? kind (c :: tail) t.position = .ok (some t)) :
    t.text.toList = c :: tail ∧ Stands t.position (c :: (tail ++ rest)) t := by
  rcases token?_cases kind (c :: tail) with ⟨cause, fails⟩ | ⟨-, nothing⟩ | ⟨-, tokenKind, value, ends, stands⟩
  · cases (fails _).symm.trans found
  · cases (nothing _).symm.trans found
  · have same := (stands _).symm.trans found
    simp only [Except.ok.injEq, Option.some.injEq] at same
    have text : t.text.toList = c :: tail := by rw [← same, String.toList_ofList]
    refine ⟨text, ?_, ?_, Nat.le_refl _, ?_⟩
    · intro kind
      rw [← same] at kind
      exact begins.ne_endOfText (ends kind)
    · intro empty
      rw [empty] at text
      cases text
    · rw [← String.length_toList, text, Nat.sub_self, List.drop_zero, ← List.cons_append, List.take_left]

/-- Tokens stand behind one another in their text, and what is between them is blank. -/
structure Tiles (position : Nat) (cs : List Char) (body : List Token) : Prop where
  stands : ∀ t ∈ body, Stands position cs t
  ordered : body.Pairwise fun t u => t.position + t.text.length ≤ u.position
  blank : ∀ i c, cs[i]? = some c →
    (∀ t ∈ body, position + i < t.position ∨ t.position + t.text.length ≤ position + i) → Text.isBlank c = true

theorem Tiles.behind {front rest : List Char} (tiles : Tiles (position + front.length) rest body)
    (gap : ∀ c ∈ front, Text.isBlank c = true) : Tiles position (front ++ rest) body where
  stands t mem := (tiles.stands t mem).behind
  ordered := tiles.ordered
  blank i c found apart := by
    rcases Nat.lt_or_ge i front.length with inside | behind
    · rw [List.getElem?_append_left inside] at found
      exact gap c (List.mem_of_getElem? found)
    · rw [List.getElem?_append_right behind] at found
      refine tiles.blank _ c found fun t mem => ?_
      have := apart t mem
      omega

theorem Lexed.tiles (lexed : Lexed position cs body) : Tiles position cs body := by
  induction lexed with
  | done => exact ⟨List.forall_mem_nil _, .nil, fun i c found => by simp at found⟩
  | @blank position c tail rest body begins _ ih =>
    have gap : ∀ d ∈ c :: tail, Text.isBlank d = true := by
      generalize length : tail.length = n at begins
      cases begins with
      | blank first => exact List.forall_mem_cons.mpr ⟨first, (leading_append_eq_iff.mp length.symm).1⟩
    exact Tiles.behind ih gap
  | @token position c tail rest kind t body begins place found _ ih =>
    subst place
    obtain ⟨text, stands⟩ := stands_of_begins begins (found t.position)
    have length : t.text.length = tail.length + 1 := by rw [← String.length_toList, text, List.length_cons]
    have behind : ∀ u ∈ body, t.position + t.text.length ≤ u.position := fun u mem => by
      rw [length]
      exact (ih.stands u mem).after
    have later : ∀ u ∈ body, Stands t.position (c :: tail ++ rest) u := fun u mem => (ih.stands u mem).behind
    exact {
      stands := List.forall_mem_cons.mpr ⟨stands, later⟩
      ordered := List.pairwise_cons.mpr ⟨behind, ih.ordered⟩
      blank := fun i d here apart => by
        obtain ⟨own, others⟩ := List.forall_mem_cons.mp apart
        have past : tail.length + 1 ≤ i := by omega
        rw [← List.cons_append, List.getElem?_append_right past] at here
        refine ih.blank _ d here fun u mem => ?_
        have := others u mem
        rw [List.length_cons]
        omega }

/-- Cutting a text loses nothing but blanks: the tokens stand where they say they do, in order and apart, and each
character that belongs to none of them is blank; the last token, and only it, is the end of the text.  Where a text
cannot be cut, all of it that stands in front of the fault can be. -/
theorem tokens_tile_source (source : String) :
    (∀ tokens, ofText source = .ok tokens →
      ∃ body, tokens = body ++ [⟨.endOfText, "", source.length, .undefined⟩] ∧
        (∀ t ∈ body, t.kind ≠ .endOfText ∧ t.text ≠ "" ∧
          (source.toList.drop t.position).take t.text.length = t.text.toList) ∧
        (body.Pairwise fun t u => t.position + t.text.length ≤ u.position) ∧
        ∀ i c, source.toList[i]? = some c →
          (∀ t ∈ body, i < t.position ∨ t.position + t.text.length ≤ i) → Text.isBlank c = true) ∧
    ∀ error, ofText source = .error error →
      error.position < source.length ∧
        ∃ tokens, ofText (String.ofList (source.toList.take error.position)) = .ok tokens := by
  constructor
  · intro tokens found
    obtain ⟨body, rfl, lexed⟩ := scan_eq_ok_iff.mp found
    have tiles := lexed.tiles
    refine ⟨body, by rw [Nat.zero_add, String.length_toList]; rfl, fun t mem => ?_, tiles.ordered, ?_⟩
    · have stands := tiles.stands t mem
      exact ⟨stands.kind, stands.text, stands.slice⟩
    · simpa using tiles.blank
  · intro error found
    rcases lexed_or_error 0 source.toList with ⟨body, lexed⟩ | ⟨front, c, rest, body, cause, split, lexed, fails⟩
    · cases lexed.scan.symm.trans found
    · obtain rfl : ⟨cause, 0 + front.length⟩ = error := Except.error.inj (fails.symm.trans found)
      have length : source.length = front.length + (rest.length + 1) := by
        rw [← String.length_toList, split, List.length_append, List.length_cons]
      refine ⟨?_, body ++ [ending (0 + front.length)], ?_⟩
      · simp only
        omega
      · rw [ofText, String.toList_ofList, split, Nat.zero_add, List.take_left, lexed.scan, Nat.zero_add]

theorem samples_tile :
    (∃ body, ofText "\x7ba\x7d >=12" = .ok (body ++ [⟨.endOfText, "", 8, .undefined⟩]) ∧
      body.map (fun t => (t.text, t.position)) = [("\x7ba\x7d", 0), (">=", 4), ("12", 6)] ∧
      body.Pairwise fun t u => t.position + t.text.length ≤ u.position) ∧
    ofText "1 \x7ba" = .error ⟨.unterminatedReference, 2⟩ ∧ ∃ tokens, ofText "1 " = .ok tokens := by
  have cut : ofText "\x7ba\x7d >=12" = .ok ([⟨.reference, "\x7ba\x7d", 0, .text "a"⟩,
      ⟨.operator, ">=", 4, .text ">="⟩, ⟨.number, "12", 6, .number (.int 12)⟩] ++
        [⟨.endOfText, "", 8, .undefined⟩]) := by cbv
  have fault : ofText "1 \x7ba" = .error ⟨.unterminatedReference, 2⟩ := by cbv
  obtain ⟨body, same, -, ordered, -⟩ := (tokens_tile_source _).1 _ cut
  obtain ⟨-, front⟩ := (tokens_tile_source _).2 _ fault
  obtain rfl := (List.append_inj' same rfl).1
  exact ⟨⟨_, cut, rfl, ordered⟩, fault, front⟩

end Token

end Questionnaire
