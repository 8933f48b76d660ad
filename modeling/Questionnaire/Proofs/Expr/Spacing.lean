import Questionnaire.Proofs.Expr.Parsing
import Questionnaire.Proofs.Expr.Tiling

/-!
# Spacing

What is between tokens has no part in what they say.  A lexeme ends in the same place in front of a blank, so the texts
of the tokens with one blank between neighbours are cut into tokens that differ from them only in where they stand; and
the rules of the grammar do not see where a token stands.
-/
namespace Questionnaire

namespace Token
open Lexeme

/-- What a token says, apart from where it stands. -/
def content (t : Token) : TokenKind × String × Value := (t.kind, t.text, t.value)

/-- The texts of some tokens, but for the end of their text, with one blank between neighbours. -/
def spaced (tokens : List Token) : String :=
  String.intercalate " " ((tokens.filter (·.kind != .endOfText)).map (·.text))

variable {position : Nat} {cs : List Char} {t u : Token} {body : List Token}

theorem content_eq_iff : t.content = u.content ↔ t.kind = u.kind ∧ t.text = u.text ∧ t.value = u.value := by
  simp [content]

/-- Wherever the text of a token stands, it is cut into that token in front of what parts lexemes. -/
def Recurs (t : Token) : Prop := ∀ position, Cuts position t.text.toList [{ t with position }]

theorem Lexed.recurs (lexed : Lexed position cs body) : ∀ t ∈ body, t.Recurs := by
  induction lexed with
  | done => exact List.forall_mem_nil _
  | blank _ _ ih => exact ih
  | @token position c tail rest kind t body begins place found _ ih =>
    refine List.forall_mem_cons.mpr ⟨fun position => ?_, ih⟩
    have noBlank : kind ≠ .blank := by
      rintro rfl
      cases found position
    rw [(stands_of_begins begins (found t.position)).1]
    exact cuts_of_first (fun others parting => (begins.milder (Or.inr ⟨noBlank, parting⟩)).first) (found position)

/-- With one blank between neighbours, the texts of tokens are cut into these tokens again. -/
theorem cuts_spaced (recur : ∀ t ∈ body, t.Recurs) (position : Nat) : ∃ others, others.map content = body.map content ∧
    Cuts position ([' '].intercalate (body.map (·.text.toList))) others := by
  induction body generalizing position with
  | nil => exact ⟨[], rfl, cuts_nil position⟩
  | cons t body ih =>
    obtain ⟨own, later⟩ := List.forall_mem_cons.mp recur
    cases body with
    | nil => exact ⟨[{ t with position }], rfl, by simpa using own position⟩
    | cons u body =>
      obtain ⟨others, same, cuts⟩ := ih later (position + t.text.toList.length + 1)
      refine ⟨{ t with position } :: others, congrArg (t.content :: ·) same, ?_⟩
      have parting : Parting (' ' :: [' '].intercalate ((u :: body).map (·.text.toList))) :=
        parting_cons.mpr (by decide)
      have whole : [' '].intercalate ((t :: u :: body).map (·.text.toList)) =
          t.text.toList ++ ' ' :: [' '].intercalate ((u :: body).map (·.text.toList)) := by
        simp [List.intercalate]
      rw [whole]
      exact (own position).append cuts.blank parting

/-! ## What the grammar sees of a token -/

/-- Operators, punctuation marks and names are told by what tokens say. -/
theorem says_of_content {kind : TokenKind} {symbol : String} (same : u.content = t.content)
    (h : t.kind = kind ∧ t.value = .text symbol) : u.kind = kind ∧ u.value = .text symbol := by
  obtain ⟨kind, -, value⟩ := content_eq_iff.mp same
  exact ⟨kind.trans h.1, value.trans h.2⟩

end Token

namespace Grammar
open Token

variable {t : Token} {tokens others before following : List Token}

theorem Callee.of_content {u : Token} {name : String} (h : Callee t name) (same : u.content = t.content) :
    Callee u name := by
  cases h with
  | name named => exact .name (says_of_content same named)
  | contains operates => exact .contains (says_of_content same operates)
  | notContains operates => exact .notContains (says_of_content same operates)

theorem content_eq_cons (same : others.map content = (t :: tokens).map content) :
    ∃ u tail, others = u :: tail ∧ u.content = t.content ∧ tail.map content = tokens.map content :=
  List.map_eq_cons_iff.mp same

theorem content_eq_append (same : others.map content = (before ++ following).map content) :
    ∃ front tail, others = front ++ tail ∧ front.map content = before.map content ∧
      tail.map content = following.map content := by
  rw [List.map_append] at same
  exact List.map_eq_append_iff.mp same

theorem content_eq_one (same : others.map content = [t].map content) : ∃ u, others = [u] ∧ u.content = t.content := by
  obtain ⟨u, tail, rfl, here, last⟩ := content_eq_cons same
  obtain rfl := List.map_eq_nil_iff.mp last
  exact ⟨u, rfl, here⟩

/-- Tokens that say the same as the arguments of a call are the arguments of a call. -/
theorem Separated.of_content {arguments : List (List Token × Expr)} {n : Phrase}
    (separated : Separated (arguments.map (·.1)) tokens)
    (derive : ∀ a ∈ arguments, ∀ others : List Token, others.map content = a.1.map content → Derives n others a.2)
    (same : others.map content = tokens.map content) :
    ∃ found : List (List Token × Expr), Separated (found.map (·.1)) others ∧ (∀ a ∈ found, Derives n a.1 a.2) ∧
      found.map (·.2) = arguments.map (·.2) := by
  induction arguments generalizing tokens others with
  | nil =>
    cases separated
    obtain rfl := List.map_eq_nil_iff.mp same
    exact ⟨[], .none, List.forall_mem_nil _, rfl⟩
  | cons a arguments ih =>
    obtain ⟨own, later⟩ := List.forall_mem_cons.mp derive
    cases arguments with
    | nil =>
      cases separated with
      | one => exact ⟨[(others, a.2)], .one, List.forall_mem_singleton.mpr (own _ same), rfl⟩
      | more _ some _ => exact absurd rfl some
    | cons b arguments =>
      cases separated with
      | more separates some separated =>
        obtain ⟨front, behind, rfl, first, same⟩ := content_eq_append same
        obtain ⟨comma, tail, rfl, mark, same⟩ := content_eq_cons same
        obtain ⟨found, separated', derived, trees⟩ := ih separated later same
        have some' : found.map (·.1) ≠ [] := by
          rintro none
          rw [List.map_eq_nil_iff.mp none] at trees
          cases trees
        exact ⟨(front, a.2) :: found, .more (says_of_content mark separates) some' separated',
          List.forall_mem_cons.mpr ⟨own _ first, derived⟩, congrArg (a.2 :: ·) trees⟩

/-- Where tokens stand has no part in what they derive. -/
theorem Derives.of_content {n : Phrase} {x : Expr} (h : Derives n tokens x)
    (same : others.map content = tokens.map content) : Derives n others x := by
  induction h generalizing others with
  | operand _ ih => exact .operand (ih same)
  | joined _ operates between _ ih ih' =>
    obtain ⟨front, behind, rfl, first, same⟩ := content_eq_append same
    obtain ⟨u, tail, rfl, here, last⟩ := content_eq_cons same
    exact .joined (ih first) (says_of_content here operates) between (ih' last)
  | marked _ operates behind ih =>
    obtain ⟨front, behind', rfl, first, same⟩ := content_eq_append same
    obtain ⟨u, rfl, here⟩ := content_eq_one same
    exact .marked (ih first) (says_of_content here operates) behind
  | base _ ih => exact .base (ih same)
  | raised _ raises _ ih ih' =>
    obtain ⟨front, behind, rfl, first, same⟩ := content_eq_append same
    obtain ⟨u, tail, rfl, here, last⟩ := content_eq_cons same
    exact .raised (ih first) (says_of_content here raises) (ih' last)
  | plain _ ih => exact .plain (ih same)
  | signed operates leads _ ih =>
    obtain ⟨u, tail, rfl, here, last⟩ := content_eq_cons same
    exact .signed (says_of_content here operates) leads (ih last)
  | number kind =>
    obtain ⟨u, rfl, here⟩ := content_eq_one same
    obtain ⟨kind', -, value⟩ := content_eq_iff.mp here
    rw [← value]
    exact .number (kind'.trans kind)
  | string kind =>
    obtain ⟨u, rfl, here⟩ := content_eq_one same
    obtain ⟨kind', -, value⟩ := content_eq_iff.mp here
    rw [← value]
    exact .string (kind'.trans kind)
  | reference kind value =>
    obtain ⟨u, rfl, here⟩ := content_eq_one same
    obtain ⟨kind', -, value'⟩ := content_eq_iff.mp here
    exact .reference (kind'.trans kind) (value'.trans value)
  | group opens _ closes ih =>
    obtain ⟨u, tail, rfl, here, same⟩ := content_eq_cons same
    obtain ⟨inner, behind, rfl, within, last⟩ := content_eq_append same
    obtain ⟨w, rfl, there⟩ := content_eq_one last
    exact .group (says_of_content here opens) (ih within) (says_of_content there closes)
  | call callee opens separated derived closes ih =>
    obtain ⟨u, tail, rfl, here, same⟩ := content_eq_cons same
    obtain ⟨v, tail, rfl, first, same⟩ := content_eq_cons same
    obtain ⟨inner, behind, rfl, within, last⟩ := content_eq_append same
    obtain ⟨w, rfl, there⟩ := content_eq_one last
    obtain ⟨found, separated', derived', trees⟩ := separated.of_content (fun a mem _ => ih a mem) within
    rw [← trees]
    exact .call (callee.of_content here) (says_of_content first opens) separated' derived'
      (says_of_content there closes)
  | keyword named keyword =>
    obtain ⟨u, rfl, here⟩ := content_eq_one same
    exact .keyword (says_of_content here named) keyword
  | question named noKeyword valid =>
    obtain ⟨u, rfl, here⟩ := content_eq_one same
    exact .question (says_of_content here named) noKeyword valid

end Grammar

/-! ## Texts that are spaced out -/

namespace Token
open Lexeme

variable {position : Nat} {body : List Token}

theorem ofText_of_cuts {source : String} (cuts : Cuts 0 source.toList body) :
    ofText source = .ok (body ++ [ending source.length]) := by
  have found := cuts [] parting_nil
  rw [List.append_nil, scan, Nat.zero_add, String.length_toList] at found
  exact found

theorem toList_spaced (noEnd : ∀ t ∈ body, t.kind ≠ .endOfText) (position : Nat) :
    (spaced (body ++ [ending position])).toList = [' '].intercalate (body.map (·.text.toList)) := by
  have kept : body.filter (·.kind != .endOfText) = body := List.filter_eq_self.mpr (by simpa using noEnd)
  simp [spaced, ending, kept, Function.comp_def]

/-- A text that can be cut into tokens says the same as the texts of its tokens with one blank between neighbours: these
are cut into tokens of the same kinds, with the same texts and values, in the same order, and they form the same
expression if they form one. -/
theorem spaced_says_same {source : String} {tokens : List Token} (cut : ofText source = .ok tokens) :
    ∃ others, ofText (spaced tokens) = .ok others ∧ others.map content = tokens.map content ∧
      ∀ tree, Expr.ofText source = .ok tree ↔ Expr.ofText (spaced tokens) = .ok tree := by
  obtain ⟨body, rfl, lexed⟩ := scan_eq_ok_iff.mp cut
  obtain ⟨others, same, cuts⟩ := cuts_spaced lexed.recurs 0
  have noEnd : ∀ t ∈ body, t.kind ≠ .endOfText := fun t mem => (lexed.tiles.stands t mem).kind
  have noEnd' : ∀ u ∈ others, u.kind ≠ .endOfText := by
    intro u mem ends
    obtain ⟨t, mem', here⟩ := List.mem_map.mp (same ▸ List.mem_map_of_mem mem)
    exact noEnd t mem' ((content_eq_iff.mp here).1.trans ends)
  rw [← toList_spaced noEnd (0 + source.toList.length)] at cuts
  have cut' := ofText_of_cuts cuts
  refine ⟨_, cut', ?_, fun tree => ?_⟩
  · rw [List.map_append, List.map_append, same]
    rfl
  · rw [Expr.ofText_eq_ok_iff cut noEnd rfl, Expr.ofText_eq_ok_iff cut' noEnd' rfl]
    exact ⟨fun h => h.of_content same, fun h => h.of_content same.symm⟩

/-- The tokens of `{ a }<=-12and'b c'!=d`, in which no blank stands between tokens. -/
def glued : List Token :=
  [⟨.reference, "\x7b a \x7d", 0, .text "a"⟩, ⟨.operator, "<=", 5, .text "<="⟩, ⟨.operator, "-", 7, .text "-"⟩,
    ⟨.number, "12", 8, .number (.int 12)⟩, ⟨.operator, "and", 10, .text "and"⟩,
    ⟨.string, "'b c'", 13, .text "b c"⟩, ⟨.operator, "!=", 18, .text "!="⟩, ⟨.identifier, "d", 20, .text "d"⟩,
    ⟨.endOfText, "", 21, .undefined⟩]

/-- The expression that they form. -/
def gluedTree : Expr :=
  .logical .and
    (.binary (.relation .lessEqual) (.reference "a") (.unary .negate (.literal (.number (.int 12)))))
    (.binary .notEqual (.literal (.text "b c")) (.reference "d"))

theorem glued_says_same :
    ofText "\x7b a \x7d<=-12and'b c'!=d" = .ok glued ∧
      (∃ others, ofText "\x7b a \x7d <= - 12 and 'b c' != d" = .ok others ∧
        others.map content = glued.map content) ∧
      Expr.ofText "\x7b a \x7d <= - 12 and 'b c' != d" = .ok gluedTree := by
  have cut : ofText "\x7b a \x7d<=-12and'b c'!=d" = .ok glued := by cbv
  have tree : Expr.ofText "\x7b a \x7d<=-12and'b c'!=d" = .ok gluedTree := by cbv
  have texts : spaced glued = "\x7b a \x7d <= - 12 and 'b c' != d" := by decide
  obtain ⟨others, found, same, forms⟩ := spaced_says_same cut
  rw [texts] at found forms
  exact ⟨cut, ⟨others, found, same⟩, (forms gluedTree).mp tree⟩

end Token

end Questionnaire
