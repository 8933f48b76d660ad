import Mathlib.Data.List.Basic
import Questionnaire.Expr.Printer
import Questionnaire.Proofs.Expr.Grammar
import Questionnaire.Proofs.Number.Numerals
import Questionnaire.Proofs.Path

/-!
# Cutting a text into tokens

A text is cut at its front, one lexeme at a time, and how long a lexeme is depends on what follows it: `<` goes on with
`=`, a name with a letter.  A blank, a parenthesis and a comma go on with nothing, so in front of them a text is cut as
it is on its own.  `Cuts position cs tokens` says this of a text that begins at a position.  Texts that are cut can be
put in a row, and each kind of lexeme is cut into its one token.
-/
namespace Questionnaire

namespace Lexeme

/-- A text that no lexeme in front of it goes on with: it is empty, or begins with a blank, a parenthesis or a
comma. -/
def Parting (rest : List Char) : Prop := ∀ c ∈ rest.head?, c ∈ [' ', '(', ')', ',']

theorem parting_nil : Parting [] := by simp [Parting]

theorem parting_cons {c : Char} {rest : List Char} : Parting (c :: rest) ↔ c ∈ [' ', '(', ')', ','] := by
  simp [Parting]

theorem Parting.append {front rest : List Char} (first : Parting front) (second : Parting rest) :
    Parting (front ++ rest) := by
  cases front with
  | nil => exact second
  | cons c tail => exact parting_cons.mpr (parting_cons.mp first)

/-- A run of characters of some class does not go on with a text. -/
def Halts (p : Char → Bool) (rest : List Char) : Prop := ∀ c ∈ rest.head?, p c = false

theorem halts_cons {p : Char → Bool} {c : Char} {rest : List Char} : Halts p (c :: rest) ↔ p c = false := by
  simp [Halts]

theorem leading_append_eq_iff {p : Char → Bool} {cs rest : List Char} :
    leading p (cs ++ rest) = cs.length ↔ (∀ c ∈ cs, p c = true) ∧ Halts p rest := by
  have stops : (rest.takeWhile p).length = 0 ↔ Halts p rest := by
    cases rest with
    | nil => simp [Halts]
    | cons d tail => cases holds : p d <;> simp [Halts, holds]
  have all : (cs.takeWhile p).length = cs.length ↔ ∀ c ∈ cs, p c = true := by
    rw [← List.takeWhile_eq_self_iff]
    exact ⟨(List.takeWhile_prefix p).eq_of_length, congrArg List.length⟩
  rw [leading, List.takeWhile_append, ← stops, ← all]
  split
  · rename_i whole
    simp [whole]
  · rename_i part
    simp [part]

theorem leading_eq_zero_iff {p : Char → Bool} {rest : List Char} : leading p rest = 0 ↔ Halts p rest := by
  simpa using @leading_append_eq_iff p [] rest

/-- A run of characters ends in front of what parts lexemes, if none of the characters that do so belongs to it. -/
theorem Parting.halts {p : Char → Bool} {rest : List Char} (parting : Parting rest)
    (none : [' ', '(', ')', ','].any p = false) : Halts p rest := by
  intro c first
  simpa using List.any_eq_false.mp none c (parting c first)

end Lexeme

namespace Token
open Lexeme

/-- In front of what parts lexemes, a text that begins at a position is cut into some tokens. -/
def Cuts (position : Nat) (cs : List Char) (tokens : List Token) : Prop :=
  ∀ rest, Parting rest →
    scan position (cs ++ rest) = (tokens ++ ·) <$> scan (position + cs.length) rest

variable {position : Nat} {cs others rest : List Char} {tokens following : List Token}

theorem cuts_nil (position : Nat) : Cuts position [] [] := by
  intro rest _
  simp

/-- Texts in a row are cut one after the other, if the first one ends where the second one begins. -/
theorem Cuts.append (first : Cuts position cs tokens) (second : Cuts (position + cs.length) others following)
    (parting : Parting others) : Cuts position (cs ++ others) (tokens ++ following) := by
  intro rest hrest
  rw [List.append_assoc, first _ (parting.append hrest), second rest hrest, List.length_append, ← Nat.add_assoc]
  cases scan (position + cs.length + others.length) rest with
  | error e => rfl
  | ok tail => simp

/-- A lexeme is cut off from what follows it, and leaves the token that it stands for, if it stands for one. -/
theorem scan_of_first {c : Char} {raw : List Char} {kind : LexemeKind} {found : Option Token}
    (first : Lexeme.first c (raw ++ rest) = (kind, raw.length + 1))
    (token : Lexeme.token? kind (c :: raw) position = .ok found) :
    scan position (c :: (raw ++ rest)) = (found.toList ++ ·) <$> scan (position + raw.length + 1) rest := by
  rw [scan, first]
  simp only [List.take_succ_cons, List.take_left, token, Nat.add_sub_cancel, List.drop_left, ← Nat.add_assoc]
  rfl

theorem cuts_of_first {c : Char} {raw : List Char} {kind : LexemeKind} {t : Token}
    (first : ∀ rest, Parting rest → Lexeme.first c (raw ++ rest) = (kind, raw.length + 1))
    (token : Lexeme.token? kind (c :: raw) position = .ok (some t)) : Cuts position (c :: raw) [t] := by
  intro rest parting
  rw [List.cons_append, scan_of_first (first rest parting) token, List.length_cons, ← Nat.add_assoc]
  rfl

/-! ## Blanks and punctuation -/

theorem scan_blanks {c : Char} (blank : Text.isBlank c = true) (position : Nat) (rest : List Char) :
    scan position (c :: rest) =
      scan (position + 1 + leading Text.isBlank rest) (rest.drop (leading Text.isBlank rest)) := by
  have first : Lexeme.first c rest = (.blank, 1 + leading Text.isBlank rest) := by rw [Lexeme.first, if_pos blank]
  rw [scan, first]
  simp only [Lexeme.token?, Nat.add_sub_cancel_left, ← Nat.add_assoc]
  change (do let others ← scan _ _; pure ([] ++ others)) = _
  simp

/-- A blank is left out. -/
theorem scan_blank {c : Char} (blank : Text.isBlank c = true) (position : Nat) (rest : List Char) :
    scan position (c :: rest) = scan (position + 1) rest := by
  rw [scan_blanks blank]
  cases rest with
  | nil => rfl
  | cons d tail =>
    by_cases more : Text.isBlank d = true
    · rw [scan_blanks more]
      simp only [leading, List.takeWhile_cons_of_pos more, List.length_cons, List.drop_succ_cons]
      rw [Nat.add_assoc (position + 1), Nat.add_comm 1]
    · rw [leading, List.takeWhile_cons_of_neg more]
      rfl

theorem Cuts.blank (cut : Cuts (position + 1) cs tokens) : Cuts position (' ' :: cs) tokens := by
  intro rest parting
  rw [List.cons_append, scan_blank (by decide), cut rest parting, List.length_cons, Nat.add_right_comm, Nat.add_assoc]

end Token

namespace Lexeme

/-- A character that begins no blank, reference, text or number. -/
def isPlain (c : Char) : Bool :=
  !Text.isBlank c && c != '\x7b' && c != '\'' && c != '"' && !Text.isDigit c && c != '.'

/-- The characters that operators of two characters begin with. -/
def doubled : List Char := ['<', '>', '!', '=', '&', '|']

theorem numberLength_eq_zero {c : Char} (digit : Text.isDigit c = false) (point : c ≠ '.') (rest : List Char) :
    numberLength (c :: rest) = 0 := by
  have none : leading Text.isDigit (c :: rest) = 0 := by rw [leading, List.takeWhile_cons_of_neg (by simp [digit])]; rfl
  rw [numberLength, none]
  simp only [List.drop_zero]
  split
  · rename_i tail same
    exact absurd (List.cons.inj same).1 point
  · rfl

/-- What a plain character begins: an operator, a punctuation mark or a name. -/
theorem first_of_plain {c : Char} (plain : isPlain c = true) (rest : List Char) :
    first c rest =
      if pairs.contains ((c :: rest).take 2) then (.token .operator, 2)
      else if singles.contains c then (.token .operator, 1)
      else if c == '(' || c == ')' || c == ',' then (.token .punctuation, 1)
      else if isNameStart c then (.token .identifier, 1 + leading isNamePart rest)
      else (.unknown, 1) := by
  simp only [isPlain, Bool.and_eq_true, Bool.not_eq_true', bne_iff_ne] at plain
  obtain ⟨⟨⟨⟨⟨blank, brace⟩, single⟩, double⟩, digit⟩, point⟩ := plain
  simp [first, blank, brace, single, double, numberLength_eq_zero digit point]

theorem not_pair {c : Char} (other : c ∉ doubled) (rest : List Char) :
    pairs.contains ((c :: rest).take 2) = false := by
  simp only [doubled, List.mem_cons, List.not_mem_nil, or_false, not_or] at other
  simp [pairs, other]

theorem first_mark {c : Char} (punctuation : c ∈ ['(', ')', ',']) (rest : List Char) :
    first c rest = (.token .punctuation, 1) := by
  have apart : ['(', ')', ','].all (fun c => isPlain c && (!doubled.contains c && !singles.contains c)) = true := by
    decide
  have here := List.all_eq_true.mp apart c punctuation
  simp only [Bool.and_eq_true, Bool.not_eq_true', List.contains_eq_mem, decide_eq_false_iff_not] at here
  obtain ⟨plain, single, double⟩ := here
  have marks : (c == '(' || c == ')' || c == ',') = true := by simpa [or_assoc] using punctuation
  rw [first_of_plain plain, not_pair single, List.contains_eq_mem, decide_eq_false double, marks]
  rfl

end Lexeme

namespace Token
open Lexeme

variable {position : Nat} {cs others rest : List Char} {tokens following : List Token}

/-- The token of a punctuation mark. -/
def mark (position : Nat) (c : Char) : Token :=
  ⟨.punctuation, String.ofList [c], position, .text (String.ofList [c])⟩

theorem scan_mark {c : Char} (punctuation : c ∈ ['(', ')', ',']) (position : Nat) (rest : List Char) :
    scan position (c :: rest) = (mark position c :: ·) <$> scan (position + 1) rest := by
  have token : Lexeme.token? (.token .punctuation) [c] position = .ok (some (mark position c)) := rfl
  exact scan_of_first (first_mark punctuation rest) token

theorem cuts_mark {c : Char} (punctuation : c ∈ ['(', ')', ',']) (position : Nat) :
    Cuts position [c] [mark position c] := fun rest _ => scan_mark punctuation position rest

/-- In parentheses a text is cut as it is on its own. -/
theorem Cuts.grouped (cut : Cuts (position + 1) cs tokens) :
    Cuts position (Expr.grouped cs)
      (mark position '(' :: (tokens ++ [mark (position + 1 + cs.length) ')'])) := by
  intro rest _
  have closed : Parting (')' :: rest) := parting_cons.mpr (by decide)
  have whole : Expr.grouped cs ++ rest = '(' :: (cs ++ ')' :: rest) := by simp [Expr.grouped]
  have length : position + (Expr.grouped cs).length = position + 1 + cs.length + 1 := by
    simp only [Expr.grouped, List.length_cons, List.length_append, List.length_nil]
    omega
  rw [whole, scan_mark (by decide), cut _ closed, scan_mark (by decide), length]
  cases scan (position + 1 + cs.length + 1) rest with
  | error e => rfl
  | ok tail => simp

/-! ## Operators and names -/

/-- The token of an operator. -/
def operator (position : Nat) (symbol : String) : Token :=
  ⟨.operator, symbol, position, .text (canonical symbol)⟩

/-- The symbols that are written with other characters than letters. -/
def symbols : List String := ["!", "-", "+", "*", "/", "%", "^", "=", "!=", "<", "<=", ">", ">="]

theorem first_single {c : Char} (single : c ∈ singles) (alone : Halts (fun d => pairs.contains [c, d]) rest) :
    Lexeme.first c rest = (.token .operator, 1) := by
  have plain : singles.all isPlain = true := by decide
  have short : singles.all (fun c => !pairs.contains [c]) = true := by decide
  have noPair : pairs.contains ((c :: rest).take 2) = false := by
    cases rest with
    | nil => simpa using List.all_eq_true.mp short c single
    | cons d tail => exact halts_cons.mp alone
  rw [first_of_plain (List.all_eq_true.mp plain c single), noPair, List.contains_iff_mem.mpr single]
  rfl

/-- An operator of one character does not go on with what parts lexemes. -/
theorem not_pair_of_single {c : Char} (single : c ∈ singles) :
    [' ', '(', ')', ','].any (fun d => pairs.contains [c, d]) = false := by
  have apart : singles.all (fun c => !([' ', '(', ')', ','].any fun d => pairs.contains [c, d])) = true := by decide
  rw [← Bool.not_eq_true']
  exact List.all_eq_true.mp apart c single

theorem first_pair {c d : Char} (pair : [c, d] ∈ pairs) (rest : List Char) :
    Lexeme.first c (d :: rest) = (.token .operator, 2) := by
  have plain : ∀ pair ∈ pairs, isPlain (pair.headD ' ') = true := by decide
  have begins : isPlain c = true := plain [c, d] pair
  have found : pairs.contains ((c :: d :: rest).take 2) = true := List.contains_iff_mem.mpr pair
  rw [first_of_plain begins, found]
  rfl

theorem cuts_operator {symbol : String} (mem : symbol ∈ symbols) (position : Nat) :
    Cuts position symbol.toList [operator position symbol] := by
  have split : ∀ symbol ∈ symbols, symbol.toList ∈ singles.map ([·]) ∨ symbol.toList ∈ pairs := by decide
  have text : String.ofList symbol.toList = symbol := String.ofList_toList
  rcases split symbol mem with alone | pair
  · obtain ⟨c, single, same⟩ := List.mem_map.mp alone
    rw [← same] at text ⊢
    refine cuts_of_first (fun rest parting => first_single single (parting.halts (not_pair_of_single single))) ?_
    rw [token?, text]
    rfl
  · have two : ∀ pair ∈ pairs, pair.length = 2 := by decide
    obtain ⟨c, d, same⟩ := List.length_eq_two.mp (two _ pair)
    rw [same] at text pair ⊢
    refine cuts_of_first (fun rest _ => first_pair pair rest) ?_
    rw [token?, text]
    rfl

end Token

namespace Lexeme

/-- A name: a letter of ASCII or an underscore, and then those and digits. -/
def isName : List Char → Bool
  | [] => false
  | c :: tail => isNameStart c && tail.all isNamePart

/-- What holds of the characters of ASCII one by one. -/
theorem ascii_of_isNameStart {c : Char} (start : isNameStart c = true) : c.toNat < 128 := by
  have letter : c.isAlpha = (decide (c.val ≥ 'A'.val ∧ c.val ≤ 'Z'.val) ||
      decide (c.val ≥ 'a'.val) && decide (c.val ≤ 'z'.val)) := rfl
  simp only [isNameStart, letter, Bool.or_eq_true, Bool.and_eq_true, decide_eq_true_eq, UInt32.le_iff_toNat_le,
    ge_iff_le, beq_iff_eq] at start
  have code : c.toNat = c.val.toNat := rfl
  have last : 'Z'.val.toNat = 90 := rfl
  have small : 'z'.val.toNat = 122 := rfl
  rcases start with (⟨-, le⟩ | ⟨-, le⟩) | rfl
  · omega
  · omega
  · decide

/-- What begins a name begins nothing else. -/
theorem apart_of_isNameStart {c : Char} (start : isNameStart c = true) :
    isPlain c = true ∧ c ∉ doubled ∧ c ∉ singles ∧ c ∉ ['(', ')', ','] := by
  have each : ∀ n < 128, (!isNameStart (Char.ofNat n) || (isPlain (Char.ofNat n) && !doubled.contains (Char.ofNat n) &&
      !singles.contains (Char.ofNat n) && !(['(', ')', ','].contains (Char.ofNat n)))) = true := by decide +kernel
  have found := Numeral.of_ascii (p := fun c => !isNameStart c || (isPlain c && !doubled.contains c &&
      !singles.contains c && !(['(', ')', ','].contains c))) each (ascii_of_isNameStart start)
  simpa [start, and_assoc] using found

theorem first_name {c : Char} {tail rest : List Char} (name : isName (c :: tail) = true)
    (ends : Halts isNamePart rest) : first c (tail ++ rest) = (.token .identifier, tail.length + 1) := by
  obtain ⟨start, all⟩ := Bool.and_eq_true_iff.mp name
  obtain ⟨plain, double, single, mark⟩ := apart_of_isNameStart start
  have length : leading isNamePart (tail ++ rest) = tail.length :=
    leading_append_eq_iff.mpr ⟨List.all_eq_true.mp all, ends⟩
  have noMark : (c == '(' || c == ')' || c == ',') = false := by simpa [not_or, and_assoc] using mark
  rw [first_of_plain plain, not_pair double, List.contains_eq_mem, decide_eq_false single, noMark, start, length,
    Nat.add_comm]
  rfl

end Lexeme

namespace Token
open Lexeme

theorem cuts_of_isName {name : String} (h : isName name.toList = true) {position : Nat} {t : Token}
    (token : Lexeme.token? (.token .identifier) name.toList position = .ok (some t)) :
    Cuts position name.toList [t] := by
  cases chars : name.toList with
  | nil =>
    rw [chars] at h
    cases h
  | cons c tail =>
    rw [chars] at h token
    exact cuts_of_first (fun rest parting => first_name h (parting.halts (by decide))) token

/-- A name that is no operator. -/
theorem cuts_name {name : String} (h : isName name.toList = true) (plain : lowered name ∉ wordOperators)
    (position : Nat) : Cuts position name.toList [⟨.identifier, name, position, .text name⟩] := by
  refine cuts_of_isName h ?_
  simp [Lexeme.token?, String.ofList_toList, plain]

/-- A name that is an operator. -/
theorem cuts_word {name : String} (h : isName name.toList = true) (word : lowered name ∈ wordOperators)
    (position : Nat) : Cuts position name.toList [⟨.operator, name, position, .text (lowered name)⟩] := by
  refine cuts_of_isName h ?_
  simp [Lexeme.token?, String.ofList_toList, word]

end Token

/-! ## Texts and references -/

namespace Lexeme

theorem closingQuote?_escape (cs rest : List Char) :
    closingQuote? '\'' (escape cs ++ '\'' :: rest) = some ((escape cs).length + 1) := by
  induction cs with
  | nil =>
    rw [escape, List.nil_append, closingQuote?.eq_def]
    rfl
  | cons c tail ih =>
    rw [escape]
    split
    · rw [List.cons_append, List.cons_append, closingQuote?.eq_def]
      simp [ih]
    · rename_i ordinary
      simp only [Bool.or_eq_true, beq_iff_eq, not_or] at ordinary
      rw [List.cons_append, closingQuote?.eq_def]
      simp [ordinary, ih]

/-- The escapes of a text stand for the text. -/
theorem unescape_escape (cs : List Char) : unescape (escape cs) = cs := by
  induction cs with
  | nil => rfl
  | cons c tail ih =>
    rw [escape]
    split
    · rename_i special
      have self : escaped c = c := by
        rcases Bool.or_eq_true_iff.mp special with same | same
        · rw [eq_of_beq same]
          rfl
        · rw [eq_of_beq same]
          rfl
      rw [unescape, ih, self]
    · rename_i ordinary
      simp only [Bool.or_eq_true, beq_iff_eq, not_or] at ordinary
      simp [unescape, ordinary.1, ih]

theorem first_quoted (cs rest : List Char) :
    first '\'' (escape cs ++ ['\''] ++ rest) = (.token .string, (escape cs ++ ['\'']).length + 1) := by
  have closing : closingQuote? '\'' (escape cs ++ ['\''] ++ rest) = some ((escape cs).length + 1) := by
    rw [List.append_assoc]
    exact closingQuote?_escape cs rest
  rw [first, if_neg (by decide), if_neg (by decide), if_pos (by decide), closing, List.length_append]
  simp only [List.length_singleton, Nat.add_comm 1]

theorem closingBrace?_append {cs : List Char} (free : ∀ c ∈ cs, Path.Braceless c) (rest : List Char) :
    closingBrace? (cs ++ '\x7d' :: rest) = some (cs.length + 1) := by
  induction cs with
  | nil => rfl
  | cons c tail ih =>
    obtain ⟨⟨opening, closing⟩, later⟩ := List.forall_mem_cons.mp free
    simp [closingBrace?, opening, closing, ih later]

theorem first_reference {cs : List Char} (free : ∀ c ∈ cs, Path.Braceless c) (rest : List Char) :
    first '\x7b' (cs ++ ['\x7d'] ++ rest) = (.token .reference, (cs ++ ['\x7d']).length + 1) := by
  have closing : closingBrace? (cs ++ ['\x7d'] ++ rest) = some (cs.length + 1) := by
    rw [List.append_assoc]
    exact closingBrace?_append free rest
  rw [first, if_neg (by decide), if_pos (by decide), closing, List.length_append]
  simp only [List.length_singleton, Nat.add_comm 1]

end Lexeme

namespace Token
open Lexeme

theorem cuts_quoted (s : String) (position : Nat) :
    Cuts position (quoted s.toList) [⟨.string, String.ofList (quoted s.toList), position, .text s⟩] := by
  refine cuts_of_first (fun rest _ => first_quoted s.toList rest) ?_
  simp [Lexeme.token?, quoted, unescape_escape, String.ofList_toList]

theorem cuts_reference {path : String} (valid : Path.isValid path = true)
    (trimmed : Text.strip path.toList = path.toList) (position : Nat) :
    Cuts position ('\x7b' :: (path.toList ++ ['\x7d']))
      [⟨.reference, String.ofList ('\x7b' :: (path.toList ++ ['\x7d'])), position, .text path⟩] := by
  refine cuts_of_first (fun rest _ => first_reference (Path.braceless_of_isValid valid) rest) ?_
  simp [Lexeme.token?, trimmed, String.ofList_toList, valid]

end Token

/-! ## Digits -/

namespace Lexeme

/-- A number is as long as its digits. -/
theorem numberLength_digits {cs rest : List Char} (all : ∀ c ∈ cs, c.isDigit = true) (parting : Parting rest) :
    numberLength (cs ++ rest) = cs.length := by
  have whole : leading Text.isDigit (cs ++ rest) = cs.length :=
    leading_append_eq_iff.mpr ⟨fun c mem => Numeral.isDigit_of_isDigit (all c mem), parting.halts (by decide)⟩
  rw [numberLength, whole]
  simp only [List.drop_left]
  split
  · exact absurd (parting_cons.mp parting) (by decide)
  · rfl

theorem first_digits {c : Char} {tail rest : List Char} (all : ∀ d ∈ c :: tail, d.isDigit = true)
    (parting : Parting rest) : first c (tail ++ rest) = (.token .number, tail.length + 1) := by
  obtain ⟨-, blank, apart⟩ := Numeral.digit_of_isDigit (all c List.mem_cons_self)
  have length : numberLength (c :: (tail ++ rest)) = tail.length + 1 := numberLength_digits all parting
  simp only [List.mem_cons, List.not_mem_nil, or_false, not_or] at apart
  obtain ⟨brace, single, double, -⟩ := apart
  simp [first, blank, brace, single, double, length]

end Lexeme

namespace Token
open Lexeme

theorem cuts_number {n : Nat} (small : n < digitBound) (position : Nat) :
    Cuts position (decimalDigits n).toList [⟨.number, decimalDigits n, position, .number (.int n)⟩] := by
  have all : ∀ c ∈ (decimalDigits n).toList, c.isDigit = true := fun _ => Numeral.isDigit_of_mem_decimalDigits
  have whole : '.' ∉ (decimalDigits n).toList := fun mem => absurd (all _ mem) (by decide)
  have token : Lexeme.token? (.token .number) (decimalDigits n).toList position =
      .ok (some ⟨.number, decimalDigits n, position, .number (.int n)⟩) := by
    simp [Lexeme.token?, numberValue, whole, Numeral.integer?_decimalDigits small, String.ofList_toList, Value.int]
  cases chars : (decimalDigits n).toList with
  | nil =>
    have empty := Numeral.integer?_decimalDigits small
    rw [chars] at empty
    cases empty
  | cons c tail =>
    rw [chars] at all token
    exact cuts_of_first (fun rest parting => first_digits all parting) token

end Token

end Questionnaire
