import Questionnaire.Json.Reader
import Questionnaire.Text.Quoted

/-!
# Quoted texts read again

A document writes every text between double quotes in ASCII.  Reading takes one character at a time, so it is enough
that what stands for a character is read as that character, whatever follows it, and does not begin with the quote
that ends the text.  A character outside ASCII is written in units of sixteen bits.  One with a code of more than
sixteen bits takes two units from the range that no character has, and the reader puts them together again.
-/
namespace Questionnaire.Json

open Text

/-! ## Units of sixteen bits -/

theorem hexValue?_digitChar : ∀ d < 16, hexValue? (Nat.digitChar d) = some d := by decide

theorem hex_one {n : Nat} (small : n < 16) : hex 1 n = [Nat.digitChar n] := by
  rw [hex, Nat.toDigits_of_lt_base small]
  rfl

theorem hex_succ (width n : Nat) : hex (width + 2) n = hex (width + 1) (n / 16) ++ [Nat.digitChar (n % 16)] := by
  rcases Nat.lt_or_ge n 16 with small | large
  · rw [hex, hex, Nat.toDigits_of_lt_base small, Nat.div_eq_of_lt small, Nat.mod_eq_of_lt small, Nat.toDigits_zero]
    simp [List.replicate_succ']
  · rw [hex, hex, Nat.toDigits_of_base_le (by decide) large]
    simp

/-- Four hexadecimal digits are read as the number that they write. -/
theorem unit?_hex {n : Nat} (small : n < 0x10000) (rest : List Char) : unit? (hex 4 n ++ rest) = some (n, rest) := by
  have digit (m : Nat) : hexValue? (Nat.digitChar (m % 16)) = some (m % 16) :=
    hexValue?_digitChar _ (Nat.mod_lt m (by decide))
  have top : n / 16 / 16 / 16 < 16 := by omega
  have value : 256 * (16 * (n / 16 / 16 / 16) + n / 16 / 16 % 16) + (16 * (n / 16 % 16) + n % 16) = n := by omega
  rw [hex_succ, hex_succ, hex_succ, hex_one top]
  simp [unit?, digit, hexValue?_digitChar _ top, value]

/-- No character has a code from the range of the units of pairs. -/
theorem toNat_out_of_pairs (c : Char) : c.toNat < 0xD800 ∨ 0xE000 ≤ c.toNat ∧ c.toNat < 0x110000 := by
  have valid : c.toNat < 0xD800 ∨ 0xDFFF < c.toNat ∧ c.toNat < 0x110000 := c.valid
  omega

/-- A character of one unit. -/
theorem codeEscape?_unit {c : Char} (small : c.toNat < 0x10000) (rest : List Char) :
    codeEscape? (hex 4 c.toNat ++ rest) = some (c, rest) := by
  have range := toNat_out_of_pairs c
  have single : ¬ (0xD800 ≤ c.toNat ∧ c.toNat < 0xDC00) ∧ ¬ (0xDC00 ≤ c.toNat ∧ c.toNat < 0xE000) := by omega
  simp [codeEscape?, unit?_hex small, single, Char.ofNat_toNat]

/-- Two units of a pair are put together. -/
theorem codeEscape?_pair {high low : Nat} (first : 0xD800 ≤ high ∧ high < 0xDC00)
    (second : 0xDC00 ≤ low ∧ low < 0xE000) (rest : List Char) :
    codeEscape? (hex 4 high ++ '\\' :: 'u' :: (hex 4 low ++ rest)) =
      some (Char.ofNat (0x10000 + (high - 0xD800) * 0x400 + (low - 0xDC00)), rest) := by
  have sixteen : high < 0x10000 ∧ low < 0x10000 := by omega
  rw [codeEscape?, unit?_hex sixteen.1]
  simp [first, second, unit?_hex sixteen.2]

/-! ## Characters and texts -/

theorem codeEscape?_documentChar {c : Char} (large : 0x10000 ≤ c.toNat) (rest : List Char) :
    codeEscape? (hex 4 (0xD800 + (c.toNat - 0x10000) / 0x400) ++
      '\\' :: 'u' :: (hex 4 (0xDC00 + (c.toNat - 0x10000) % 0x400) ++ rest)) = some (c, rest) := by
  have range := toNat_out_of_pairs c
  rw [codeEscape?_pair (by omega) (by omega)]
  have joined : 0x10000 + (0xD800 + (c.toNat - 0x10000) / 0x400 - 0xD800) * 0x400 +
      (0xDC00 + (c.toNat - 0x10000) % 0x400 - 0xDC00) = c.toNat := by omega
  rw [joined, Char.ofNat_toNat]

theorem character?_code (cs : List Char) : character? ('\\' :: 'u' :: cs) = codeEscape? cs := rfl

theorem character?_plain {c : Char} (plain : c ≠ '\\') (visible : 32 ≤ c.toNat) (rest : List Char) :
    character? (c :: rest) = some (c, rest) := by
  have readable : ¬ (c == '\\' || decide (c.toNat < 32)) = true := by simpa [plain] using visible
  rw [character?.eq_def]
  split
  · rename_i escape
    exact absurd (List.cons.inj escape).1 plain
  · rename_i escape
    exact absurd (List.cons.inj escape).1 plain
  · rename_i same
    cases same
    rw [if_neg readable]
  · rename_i none
    cases none

/-- What stands for a character is read as the character. -/
theorem character?_documentChar (c : Char) (rest : List Char) :
    character? (documentChar c ++ rest) = some (c, rest) := by
  have code {n : Nat} (h : (c.toNat == n) = true) : c = Char.ofNat n := by
    rw [← eq_of_beq h, Char.ofNat_toNat]
  unfold documentChar
  split
  · rename_i special
    rcases (by simpa using special : c = '"' ∨ c = '\\') with rfl | rfl <;> rfl
  rename_i ordinary
  split
  · rename_i newline
    cases eq_of_beq newline
    rfl
  split
  · rename_i carriageReturn
    cases eq_of_beq carriageReturn
    rfl
  split
  · rename_i tab
    cases eq_of_beq tab
    rfl
  split
  · rename_i backspace
    rw [code backspace]
    rfl
  split
  · rename_i formFeed
    rw [code formFeed]
    rfl
  split
  · rename_i visible
    have plain : c ≠ '\\' := fun same => ordinary (by simp [same])
    exact character?_plain plain (by simpa using (Bool.and_eq_true_iff.mp visible).1) rest
  split
  · rename_i small
    rw [List.cons_append, List.cons_append, character?_code, codeEscape?_unit small]
  · rename_i large
    rw [List.append_assoc, List.cons_append, List.cons_append, List.cons_append, List.cons_append, character?_code,
      codeEscape?_documentChar (Nat.le_of_not_lt large)]

/-- No character is written with a quote at the front: only a quote would be read from it, and a quote is escaped. -/
theorem documentChar_append_ne (c : Char) (rest tail : List Char) : documentChar c ++ rest ≠ '"' :: tail := by
  intro same
  have read := character?_documentChar c rest
  rw [same, character?_plain (by decide) (by decide)] at read
  cases read
  cases same

/-- The characters of a text are read up to the quote behind them. -/
theorem characters_document (cs rest : List Char) {most : Nat} (enough : cs.length ≤ most) :
    characters most (cs.flatMap documentChar ++ '"' :: rest) = .ok (cs, rest) := by
  induction cs generalizing most with
  | nil => rw [characters.eq_def]; rfl
  | cons c cs ih =>
    obtain ⟨most, rfl⟩ := Nat.exists_eq_add_of_le' (Nat.one_le_of_lt enough)
    rw [List.flatMap_cons, List.append_assoc, characters.eq_def]
    split
    · rename_i quote
      exact absurd quote (documentChar_append_ne _ _ _)
    · rename_i counted _
      cases counted
      simp only [character?_documentChar]
      rw [ih (Nat.le_of_succ_le_succ enough)]
      rfl
    · rename_i counted _
      cases counted

theorem length_le_length_document (cs : List Char) : cs.length ≤ (cs.flatMap documentChar).length := by
  induction cs with
  | nil => exact Nat.le_refl 0
  | cons c cs ih =>
    have written : documentChar c ≠ [] := fun none => documentChar_append_ne c ['"'] [] (by rw [none]; rfl)
    have := List.length_pos_iff.mpr written
    rw [List.flatMap_cons, List.length_append, List.length_cons]
    omega

/-- A text is read from what a document writes for it. -/
theorem string_document (s : String) (rest : List Char) :
    string (s.toList.flatMap documentChar ++ '"' :: rest) = .ok (s, rest) := by
  have enough : s.toList.length ≤ (s.toList.flatMap documentChar ++ '"' :: rest).length := by
    rw [List.length_append]
    exact Nat.le_trans (length_le_length_document s.toList) (Nat.le_add_right _ _)
  rw [string, characters_document s.toList rest enough]
  simp [bind, Except.bind, pure, Except.pure]

end Questionnaire.Json
