import Questionnaire.Proofs.Expr.Lexemes

/-!
# Where lexemes end

A lexeme is as long as it can be, so where it ends depends on the text behind it.  `Begins` says by one rule for each
kind what the lexeme at the front of a text is, and how much of the text behind its first character belongs to it.  Not
all of the text behind a lexeme matters: it ends in the same place if some of that text is taken away from its end, and
if it is replaced by a blank, a parenthesis or a comma with whatever follows them.
-/
namespace Questionnaire

/-- Whether lexemes of a kind belong to expressions, between tokens or as tokens. -/
def LexemeKind.isPart : LexemeKind → Bool
  | .blank | .token _ => true
  | .openReference | .openString | .unknown => false

namespace Lexeme

variable {c : Char} {cs rest next tail raw : List Char} {n : Nat} {kind : LexemeKind}

theorem leading_le_length (p : Char → Bool) (cs : List Char) : leading p cs ≤ cs.length :=
  (List.takeWhile_prefix p).length_le

/-! ## What may stand behind a lexeme in the place of another text -/

/-- A text with which no lexeme goes on that does not go on with `rest`: the front part of that text, or, but for
blanks, a text that parts lexemes. -/
def Milder (kind : LexemeKind) (next rest : List Char) : Prop :=
  next <+: rest ∨ kind ≠ .blank ∧ Parting next

theorem Milder.halts {p : Char → Bool} (milder : Milder kind next rest) (stops : Halts p rest)
    (none : kind ≠ .blank → [' ', '(', ')', ','].any p = false) : Halts p next := by
  cases next with
  | nil => simp [Halts]
  | cons d tail =>
    rw [halts_cons]
    rcases milder with ⟨others, rfl⟩ | ⟨token, parting⟩
    · exact halts_cons.mp stops
    · simpa using List.any_eq_false.mp (none token) d (parting_cons.mp parting)

/-! ## Braces and quotes -/

theorem closingBrace?_eq_some (h : closingBrace? cs = some n) :
    ∃ inner rest, cs = inner ++ '\x7d' :: rest ∧ n = inner.length + 1 ∧ ∀ c ∈ inner, Path.Braceless c := by
  induction cs generalizing n with
  | nil => cases h
  | cons c tail ih =>
    rw [closingBrace?] at h
    split at h
    · rename_i closing
      cases h
      exact ⟨[], tail, by rw [eq_of_beq closing, List.nil_append], rfl, List.forall_mem_nil _⟩
    · rename_i notClosing
      split at h
      · cases h
      · rename_i notOpening
        obtain ⟨m, found, rfl⟩ := Option.map_eq_some_iff.mp h
        obtain ⟨inner, rest, rfl, rfl, free⟩ := ih found
        refine ⟨c :: inner, rest, rfl, rfl, List.forall_mem_cons.mpr ⟨?_, free⟩⟩
        exact ⟨by simpa using notOpening, by simpa using notClosing⟩

/-- A reference ends at its closing brace, whatever follows it. -/
theorem closingBrace?_append_of_append (h : closingBrace? (cs ++ rest) = some cs.length) :
    closingBrace? (cs ++ next) = some cs.length := by
  obtain ⟨inner, others, split, length, free⟩ := closingBrace?_eq_some h
  obtain ⟨rfl, rfl⟩ : cs = inner ++ ['\x7d'] ∧ rest = others := by
    refine List.append_inj ?_ ?_
    · rw [split, List.append_assoc]
      rfl
    · rw [length, List.length_append]
      rfl
  rw [List.append_assoc, length]
  exact closingBrace?_append free next

/-- A quoted text ends at a place that what follows has no part in. -/
theorem closingQuote?_eq_some {quote : Char} (h : closingQuote? quote cs = some n) :
    ∃ inner rest, cs = inner ++ rest ∧ n = inner.length ∧ ∀ next, closingQuote? quote (inner ++ next) = some n := by
  induction cs using closingQuote?.induct quote generalizing n with
  | case1 => simp [closingQuote?] at h
  | case2 c tail closing =>
    rw [closingQuote?.eq_def] at h
    obtain rfl : 1 = n := by simpa [closing] using h
    refine ⟨[c], tail, rfl, rfl, fun next => ?_⟩
    rw [closingQuote?.eq_def]
    exact if_pos closing
  | case3 c notClosing escapes =>
    rw [closingQuote?.eq_def] at h
    simp [notClosing, escapes] at h
  | case4 c notClosing escapes d tail ih =>
    rw [closingQuote?.eq_def] at h
    simp only [notClosing, escapes, Bool.false_eq_true, if_false, if_true] at h
    obtain ⟨m, found, rfl⟩ := Option.map_eq_some_iff.mp h
    obtain ⟨inner, rest, rfl, rfl, closes⟩ := ih found
    refine ⟨c :: d :: inner, rest, rfl, rfl, fun next => ?_⟩
    rw [closingQuote?.eq_def]
    simp [notClosing, escapes, closes]
  | case5 c tail notClosing plain ih =>
    rw [closingQuote?.eq_def] at h
    simp only [notClosing, plain, Bool.false_eq_true, if_false] at h
    obtain ⟨m, found, rfl⟩ := Option.map_eq_some_iff.mp h
    obtain ⟨inner, rest, rfl, rfl, closes⟩ := ih found
    refine ⟨c :: inner, rest, rfl, rfl, fun next => ?_⟩
    rw [closingQuote?.eq_def]
    simp [notClosing, plain, closes]

theorem closingQuote?_append_of_append {quote : Char} (h : closingQuote? quote (cs ++ rest) = some cs.length) :
    closingQuote? quote (cs ++ next) = some cs.length := by
  obtain ⟨inner, others, split, length, closes⟩ := closingQuote?_eq_some h
  obtain ⟨rfl, -⟩ := List.append_inj split length
  exact closes next

/-! ## Numbers -/

/-- A text is a number that ends in front of another text: digits, a point between them, or a point in front of them.
With a point the number ends where the digits end; digits alone also go on with a point that digits follow. -/
inductive Numeral : List Char → List Char → Prop
  | whole {digits rest : List Char} : (∀ d ∈ digits, Text.isDigit d = true) → Halts Text.isDigit rest →
      (∀ tail, rest = '.' :: tail → Halts Text.isDigit tail) → Numeral digits rest
  | fraction {digits others rest : List Char} : (∀ d ∈ digits, Text.isDigit d = true) → others ≠ [] →
      (∀ d ∈ others, Text.isDigit d = true) → Halts Text.isDigit rest → Numeral (digits ++ '.' :: others) rest

theorem halts_point (rest : List Char) : Halts Text.isDigit ('.' :: rest) := halts_cons.mpr (by decide)

theorem halts_dropWhile (p : Char → Bool) (cs : List Char) : Halts p (cs.dropWhile p) := by
  intro c first
  have stops := List.head?_dropWhile_not p cs
  rw [Option.mem_def.mp first] at stops
  exact stops

/-- At the front of every text there is a number, which may be empty. -/
theorem exists_numeral (cs : List Char) : ∃ raw rest, cs = raw ++ rest ∧ Numeral raw rest := by
  have whole := (List.takeWhile_append_dropWhile (p := Text.isDigit) (l := cs)).symm
  have digits : ∀ d ∈ cs.takeWhile Text.isDigit, Text.isDigit d = true := fun d => List.mem_takeWhile_imp
  by_cases point : ∃ tail, cs.dropWhile Text.isDigit = '.' :: tail ∧ ¬ Halts Text.isDigit tail
  · obtain ⟨tail, after, goesOn⟩ := point
    have some : tail.takeWhile Text.isDigit ≠ [] := by
      rwa [Ne, ← List.length_eq_zero_iff, ← leading, leading_eq_zero_iff]
    refine ⟨_, tail.dropWhile Text.isDigit, ?_, .fraction digits some (fun d => List.mem_takeWhile_imp)
      (halts_dropWhile Text.isDigit tail)⟩
    rw [List.append_assoc, List.cons_append, List.takeWhile_append_dropWhile, ← after]
    exact whole
  · refine ⟨_, _, whole, .whole digits (halts_dropWhile Text.isDigit cs) fun tail after => ?_⟩
    by_contra goesOn
    exact point ⟨tail, after, goesOn⟩

theorem Numeral.length (numeral : Numeral raw rest) : numberLength (raw ++ rest) = raw.length := by
  cases numeral with
  | whole digits ends noFraction =>
    rw [numberLength, leading_append_eq_iff.mpr ⟨digits, ends⟩]
    simp only [List.drop_left]
    split
    · rename_i tail
      simp [leading_eq_zero_iff.mpr (noFraction tail rfl)]
    · rfl
  | @fraction digits others _ whole some fraction ends =>
    have length : leading Text.isDigit (digits ++ '.' :: (others ++ rest)) = digits.length :=
      leading_append_eq_iff.mpr ⟨whole, halts_point _⟩
    have more : leading Text.isDigit (others ++ rest) = others.length := leading_append_eq_iff.mpr ⟨fraction, ends⟩
    rw [List.append_assoc, List.cons_append, numberLength, length]
    simp only [List.drop_left, more]
    simp [some, Nat.add_assoc, Nat.add_comm 1]

/-- What the length of a number at the front of a text says. -/
theorem numberLength_append_iff : numberLength (raw ++ rest) = raw.length ↔ Numeral raw rest := by
  refine ⟨fun length => ?_, Numeral.length⟩
  obtain ⟨front, others, split, numeral⟩ := exists_numeral (raw ++ rest)
  rw [split, numeral.length] at length
  obtain ⟨rfl, rfl⟩ := List.append_inj split length.symm
  exact numeral

theorem numberLength_le_length (cs : List Char) : numberLength cs ≤ cs.length := by
  obtain ⟨raw, rest, rfl, numeral⟩ := exists_numeral cs
  rw [numeral.length, List.length_append]
  exact Nat.le_add_right _ _

theorem Numeral.milder (numeral : Numeral raw rest) (milder : Milder (.token .number) next rest) :
    Numeral raw next := by
  have parts : LexemeKind.token .number ≠ .blank → [' ', '(', ')', ','].any Text.isDigit = false := fun _ => by decide
  cases numeral with
  | whole digits ends noFraction =>
    refine .whole digits (milder.halts ends parts) fun tail after => ?_
    subst after
    rcases milder with ⟨others, rfl⟩ | ⟨-, parting⟩
    · have stops := noFraction (tail ++ others) rfl
      have front : Milder (.token .number) tail (tail ++ others) := Or.inl (List.prefix_append _ _)
      exact front.halts stops parts
    · exact absurd (parting_cons.mp parting) (by decide)
  | fraction digits some fraction ends => exact .fraction digits some fraction (milder.halts ends parts)

/-! ## The lexeme at the front of a text -/

/-- A text begins with a lexeme of a kind, to which so many characters after the first one belong. -/
inductive Begins (c : Char) (rest : List Char) : LexemeKind → Nat → Prop
  | blank : Text.isBlank c = true → Begins c rest .blank (leading Text.isBlank rest)
  | reference {n : Nat} : c = '\x7b' → closingBrace? rest = some n → Begins c rest (.token .reference) n
  | string {n : Nat} : c ∈ ['\'', '"'] → closingQuote? c rest = some n → Begins c rest (.token .string) n
  | number {n : Nat} : Text.isBlank c = false → c ∉ ['\x7b', '\'', '"'] → numberLength (c :: rest) = n + 1 →
      Begins c rest (.token .number) n
  | pair {d : Char} : rest.head? = some d → [c, d] ∈ pairs → Begins c rest (.token .operator) 1
  | single : c ∈ singles → Halts (fun d => pairs.contains [c, d]) rest → Begins c rest (.token .operator) 0
  | mark : c ∈ ['(', ')', ','] → Begins c rest (.token .punctuation) 0
  | name : isNameStart c = true → Begins c rest (.token .identifier) (leading isNamePart rest)

theorem begins_of_first (here : first c rest = (kind, n + 1)) (part : kind.isPart = true) : Begins c rest kind n := by
  unfold first at here
  split at here
  case isTrue blank =>
    obtain ⟨rfl, length⟩ := Prod.mk.inj here
    obtain rfl : leading Text.isBlank rest = n := by omega
    exact .blank blank
  case isFalse notBlank =>
  split at here
  case isTrue brace =>
    split at here
    · rename_i m closing
      obtain ⟨rfl, length⟩ := Prod.mk.inj here
      obtain rfl : m = n := by omega
      exact .reference (eq_of_beq brace) closing
    · obtain ⟨rfl, -⟩ := Prod.mk.inj here
      cases part
  case isFalse noBrace =>
  split at here
  case isTrue quote =>
    split at here
    · rename_i m closing
      obtain ⟨rfl, length⟩ := Prod.mk.inj here
      obtain rfl : m = n := by omega
      exact .string (by simpa using quote) closing
    · obtain ⟨rfl, -⟩ := Prod.mk.inj here
      cases part
  case isFalse noQuote =>
  split at here
  case isTrue number =>
    obtain ⟨rfl, length⟩ := Prod.mk.inj here
    refine .number (by simpa using notBlank) ?_ length
    simp only [Bool.or_eq_true, beq_iff_eq, not_or] at noBrace noQuote
    simp [noBrace, noQuote]
  case isFalse noNumber =>
  split at here
  case isTrue pair =>
    obtain ⟨rfl, length⟩ := Prod.mk.inj here
    obtain rfl : 1 = n := by omega
    cases rest with
    | nil => exact absurd pair (by simp [pairs])
    | cons d tail => exact .pair rfl (by simpa using pair)
  case isFalse noPair =>
  split at here
  case isTrue single =>
    obtain ⟨rfl, length⟩ := Prod.mk.inj here
    obtain rfl : 0 = n := by omega
    refine .single (by simpa using single) fun d next => ?_
    obtain ⟨tail, rfl⟩ : ∃ tail, rest = d :: tail := ⟨rest.tail, (List.cons_head?_tail next).symm⟩
    exact Bool.eq_false_iff.mpr noPair
  case isFalse noSingle =>
  split at here
  case isTrue mark =>
    obtain ⟨rfl, length⟩ := Prod.mk.inj here
    obtain rfl : 0 = n := by omega
    exact .mark (by simpa [or_assoc] using mark)
  case isFalse noMark =>
  split at here
  case isTrue start =>
    obtain ⟨rfl, length⟩ := Prod.mk.inj here
    obtain rfl : leading isNamePart rest = n := by omega
    exact .name start
  case isFalse =>
    obtain ⟨rfl, -⟩ := Prod.mk.inj here
    cases part

theorem Begins.first (begins : Begins c rest kind n) : first c rest = (kind, n + 1) := by
  cases begins with
  | blank blank => rw [Lexeme.first, if_pos blank, Nat.add_comm]
  | reference brace closing =>
    subst brace
    rw [Lexeme.first, if_neg (by decide), if_pos (by decide), closing]
    simp only [Nat.add_comm]
  | string quote closing =>
    rw [Lexeme.first]
    simp only [List.mem_cons, List.not_mem_nil, or_false] at quote
    rcases quote with rfl | rfl <;>
      rw [if_neg (by decide), if_neg (by decide), if_pos (by decide), closing] <;> simp only [Nat.add_comm]
  | number notBlank others length =>
    simp only [List.mem_cons, List.not_mem_nil, or_false, not_or] at others
    simp [Lexeme.first, notBlank, others, length]
  | @pair d next pair =>
    obtain ⟨tail, rfl⟩ : ∃ tail, rest = d :: tail := ⟨rest.tail, (List.cons_head?_tail next).symm⟩
    exact Token.first_pair pair tail
  | single single alone => exact Token.first_single single alone
  | mark mark => exact first_mark mark rest
  | name start =>
    have split := (List.takeWhile_append_dropWhile (p := isNamePart) (l := rest)).symm
    have name : isName (c :: rest.takeWhile isNamePart) = true := by
      simp only [isName, start, Bool.true_and, List.all_eq_true]
      exact fun d => List.mem_takeWhile_imp
    have found := first_name name (halts_dropWhile isNamePart rest)
    rwa [← split] at found

theorem Begins.le_length (begins : Begins c rest kind n) : n ≤ rest.length := by
  cases begins with
  | blank => exact leading_le_length _ rest
  | name => exact leading_le_length _ rest
  | reference _ closing =>
    obtain ⟨inner, others, rfl, rfl, -⟩ := closingBrace?_eq_some closing
    simp
  | string _ closing =>
    obtain ⟨inner, others, rfl, rfl, -⟩ := closingQuote?_eq_some closing
    simp
  | number _ _ length =>
    have := numberLength_le_length (c :: rest)
    rw [length, List.length_cons] at this
    omega
  | pair next =>
    obtain ⟨tail, rfl⟩ : ∃ tail, rest = _ :: tail := ⟨rest.tail, (List.cons_head?_tail next).symm⟩
    simp
  | single | mark => exact Nat.zero_le _

theorem first_length_pos (c : Char) (rest : List Char) : 0 < (first c rest).2 := by
  unfold first
  repeat' split
  all_goals
    simp only
    omega

/-- A lexeme that belongs to expressions is a front part of its text. -/
theorem exists_begins (here : first c rest = (kind, n)) (part : kind.isPart = true) :
    ∃ tail others, rest = tail ++ others ∧ n = tail.length + 1 ∧ Begins c (tail ++ others) kind tail.length := by
  have positive := first_length_pos c rest
  rw [here] at positive
  obtain ⟨m, rfl⟩ := Nat.exists_eq_add_one_of_ne_zero (Nat.ne_of_gt positive)
  have begins : Begins c rest kind m := begins_of_first here part
  have length : (rest.take m).length = m := List.length_take_of_le begins.le_length
  exact ⟨rest.take m, rest.drop m, (List.take_append_drop m rest).symm, by rw [length], by
    rwa [List.take_append_drop, length]⟩

/-- A lexeme ends in the same place in front of a milder text. -/
theorem Begins.milder (begins : Begins c (tail ++ rest) kind tail.length) (milder : Milder kind next rest) :
    Begins c (tail ++ next) kind tail.length := by
  generalize length : tail.length = n at begins
  cases begins with
  | blank blank =>
    obtain ⟨all, ends⟩ := leading_append_eq_iff.mp length.symm
    have ends' := milder.halts ends fun token => absurd rfl token
    rw [← length, ← leading_append_eq_iff.mpr ⟨all, ends'⟩]
    exact .blank blank
  | name start =>
    obtain ⟨all, ends⟩ := leading_append_eq_iff.mp length.symm
    have ends' := milder.halts ends fun _ => by decide
    rw [← length, ← leading_append_eq_iff.mpr ⟨all, ends'⟩]
    exact .name start
  | reference brace closing =>
    subst length
    exact .reference brace (closingBrace?_append_of_append closing)
  | string quote closing =>
    subst length
    exact .string quote (closingQuote?_append_of_append closing)
  | number notBlank others size =>
    subst length
    have numeral : Numeral (c :: tail) rest := numberLength_append_iff.mp size
    exact .number notBlank others (numeral.milder milder).length
  | @pair d here pair =>
    obtain ⟨d', rfl⟩ := List.length_eq_one_iff.mp length
    exact .pair here pair
  | single single alone =>
    obtain rfl := List.length_eq_zero_iff.mp length
    exact .single single (milder.halts alone fun _ => Token.not_pair_of_single single)
  | mark mark => exact .mark mark

end Lexeme

end Questionnaire
