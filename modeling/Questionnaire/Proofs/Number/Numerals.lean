import Mathlib.Data.List.Basic
import Questionnaire.Number.Logarithm
import Questionnaire.Number.Numeral

/-!
# Numerals that write numbers

The digits of a natural write it, with a minus sign in front they write what is opposite to it, and no whole number is
written with a point or an exponent.
-/
namespace Questionnaire.Numeral

/-! ## Digits -/

theorem of_ascii {p : Char → Bool} (each : ∀ n < 128, p (Char.ofNat n) = true) {c : Char} (ascii : c.toNat < 128) :
    p c = true := by
  have found := each c.toNat ascii
  rwa [Char.ofNat_toNat] at found

theorem toNat_of_isDigit {c : Char} (digit : c.isDigit = true) : 48 ≤ c.toNat ∧ c.toNat ≤ 57 := by
  simp only [Char.isDigit, Bool.and_eq_true, decide_eq_true_eq, UInt32.le_iff_toNat_le] at digit
  exact digit

theorem of_digits {p : Char → Bool} (each : ∀ k < 10, p (Char.ofNat (48 + k)) = true) {c : Char}
    (digit : c.isDigit = true) : p c = true := by
  obtain ⟨least, most⟩ := toNat_of_isDigit digit
  have found := each (c.toNat - 48) (by omega)
  rwa [Nat.add_sub_cancel' least, Char.ofNat_toNat] at found

/-- What the digits of ASCII are. -/
theorem digit_of_isDigit {c : Char} (digit : c.isDigit = true) :
    Text.digitValue? c = some (c.toNat - '0'.toNat) ∧ Text.isBlank c = false ∧
      c ∉ ['\x7b', '\'', '"', '.', '_', '-', '+'] := by
  have ascii : c.toNat < 128 := Nat.lt_of_le_of_lt (toNat_of_isDigit digit).2 (by decide)
  have others : (!Text.isBlank c && !(['\x7b', '\'', '"', '.', '_', '-', '+'].contains c)) = true :=
    of_digits (p := fun c => !Text.isBlank c && !(['\x7b', '\'', '"', '.', '_', '-', '+'].contains c))
      (by decide) digit
  refine ⟨?_, ?_⟩
  · rw [Text.digitValue?, if_pos ascii, if_pos digit]
    rfl
  · simpa using others

theorem toLower_of_isDigit {c : Char} (digit : c.isDigit = true) : c.toLower = c := by
  refine dif_neg ?_
  rintro ⟨above, -⟩
  have above : 65 ≤ c.toNat := UInt32.le_iff_toNat_le.mp above
  have most := (toNat_of_isDigit digit).2
  omega

theorem isDigit_of_isDigit {c : Char} (digit : c.isDigit = true) : Text.isDigit c = true := by
  rw [Text.isDigit, (digit_of_isDigit digit).1]
  rfl

/-- A text without underscores has none to be left out. -/
theorem dropUnderscores?_of_not_mem {cs : List Char} (none : '_' ∉ cs) : dropUnderscores? cs = some cs := by
  have fits (afterDigit : Bool) : underscoresFit afterDigit cs = true := by
    induction cs generalizing afterDigit with
    | nil => rfl
    | cons c tail ih =>
      obtain ⟨apart, later⟩ := not_or.mp (mt List.mem_cons.mpr none)
      rw [underscoresFit]
      · exact ih later _
      · exact fun same => apart same.symm
  have kept : cs.filter (· != '_') = cs := by
    refine List.filter_eq_self.mpr fun c mem => bne_iff_ne.mpr ?_
    rintro rfl
    exact none mem
  rw [dropUnderscores?, if_pos (fits false), kept]

theorem underscore_not_mem {cs : List Char} (all : ∀ c ∈ cs, c.isDigit = true) : '_' ∉ cs := fun mem =>
  absurd (all _ mem) (by decide)

theorem integer?_digits {cs : List Char} (all : ∀ c ∈ cs, c.isDigit = true) (some : cs ≠ [])
    (short : cs.length ≤ digitLimit) : integer? cs = Option.some (Text.digitsValue cs : Int) := by
  have unsigned : splitSign cs = (false, cs) := by
    rw [splitSign.eq_def]
    split
    · exact absurd (digit_of_isDigit (all _ List.mem_cons_self)).2.2 (by decide)
    · exact absurd (digit_of_isDigit (all _ List.mem_cons_self)).2.2 (by decide)
    · rfl
  have digits : ∀ c ∈ cs, Text.isDigit c = true := fun c mem => isDigit_of_isDigit (all c mem)
  rw [integer?, dropUnderscores?_of_not_mem (underscore_not_mem all)]
  simpa [unsigned, some, short] using digits

theorem digitsValue_eq {cs : List Char} (all : ∀ c ∈ cs, c.isDigit = true) :
    Text.digitsValue cs = Nat.ofDigitChars 10 cs 0 := by
  rw [Text.digitsValue, Nat.ofDigitChars_eq_foldl]
  refine List.foldl_ext _ _ _ fun n c mem => ?_
  rw [(digit_of_isDigit (all c mem)).1, Option.getD_some]

theorem toList_decimalDigits (n : Nat) : (decimalDigits n).toList = Nat.toDigits 10 n := by
  rw [decimalDigits, Nat.repr_eq_ofList_toDigits, String.toList_ofList]

theorem isDigit_of_mem_decimalDigits {n : Nat} {c : Char} (mem : c ∈ (decimalDigits n).toList) : c.isDigit = true := by
  rw [toList_decimalDigits] at mem
  exact Nat.isDigit_of_mem_toDigits (by decide) (by decide) mem

theorem decimalDigits_ne_nil (n : Nat) : (decimalDigits n).toList ≠ [] := by
  rw [toList_decimalDigits]
  exact Nat.toDigits_ne_nil

theorem digitsValue_decimalDigits (n : Nat) : Text.digitsValue (decimalDigits n).toList = n := by
  rw [digitsValue_eq fun _ => isDigit_of_mem_decimalDigits, toList_decimalDigits, Nat.ofDigitChars_ten_toDigits]

theorem length_decimalDigits {n : Nat} (small : n < digitBound) : (decimalDigits n).toList.length ≤ digitLimit := by
  have positive : 0 < digitLimit := by decide
  rw [toList_decimalDigits]
  unfold digitBound at small
  generalize digitLimit = limit at small positive ⊢
  exact (Nat.length_toDigits_le_iff (by decide) positive).mpr small

/-- The digits of a natural write it. -/
theorem integer?_decimalDigits {n : Nat} (small : n < digitBound) :
    integer? (decimalDigits n).toList = some (n : Int) := by
  have all : ∀ c ∈ (decimalDigits n).toList, c.isDigit = true := fun _ => isDigit_of_mem_decimalDigits
  rw [integer?_digits all (decimalDigits_ne_nil n) (length_decimalDigits small), digitsValue_decimalDigits]

theorem eq_zero_of_digitChar : ∀ d < 10, Nat.digitChar d = '0' → d = 0 := by decide

/-- The digits of a number begin with a zero only if it is zero. -/
theorem eq_zero_of_head {n : Nat} (zero : (Nat.toDigits 10 n).head? = some '0') : n = 0 := by
  induction n using Nat.strongRecOn with
  | _ n ih =>
    rcases Nat.lt_or_ge n 10 with small | large
    · rw [Nat.toDigits_of_lt_base small] at zero
      exact eq_zero_of_digitChar n small (Option.some.inj zero)
    · rw [Nat.toDigits_of_base_le (by decide) large, List.head?_append_of_ne_nil _ Nat.toDigits_ne_nil] at zero
      have := ih (n / 10) (by omega) zero
      omega

/-- Digits behind a minus sign. -/
theorem integer?_negative {n : Nat} (small : n < digitBound) :
    integer? ('-' :: (decimalDigits n).toList) = some (-(n : Int)) := by
  have all : ∀ c ∈ (decimalDigits n).toList, c.isDigit = true := fun _ => isDigit_of_mem_decimalDigits
  have none : '_' ∉ '-' :: (decimalDigits n).toList := List.not_mem_cons_of_ne_of_not_mem (by decide)
    (underscore_not_mem all)
  have digits : ∀ c ∈ (decimalDigits n).toList, Text.isDigit c = true :=
    fun c mem => isDigit_of_isDigit (all c mem)
  have some := decimalDigits_ne_nil n
  have short := length_decimalDigits small
  have value := digitsValue_decimalDigits n
  rw [integer?, dropUnderscores?_of_not_mem none]
  generalize (decimalDigits n).toList = ds at digits some short value
  simpa [splitSign, some, short, value] using digits

/-- An integer of few digits is written by its text. -/
theorem integer?_integerText {n : Int} {s : String} (h : integerText? n = some s) : integer? s.toList = some n := by
  unfold integerText? at h
  split at h
  · rename_i small
    cases h
    split
    · rename_i negative
      rw [String.toList_append]
      exact (integer?_negative small).trans (congrArg some (by omega))
    · exact (integer?_decimalDigits small).trans (congrArg some (by omega))
  · cases h

/-! ## Points and exponents -/

/-- The characters that numbers are written with. -/
def Plain (c : Char) : Prop := c.isDigit = true ∨ c ∈ ['.', 'e', '+', '-']

instance : DecidablePred Plain := fun c => inferInstanceAs (Decidable (c.isDigit = true ∨ c ∈ ['.', 'e', '+', '-']))

theorem Plain.apart {c : Char} (plain : Plain c) : Text.isBlank c = false ∧ c ≠ '_' := by
  rcases plain with digit | mark
  · refine ⟨(digit_of_isDigit digit).2.1, ?_⟩
    rintro rfl
    cases digit
  · simp only [List.mem_cons, List.not_mem_nil, or_false] at mark
    rcases mark with rfl | rfl | rfl | rfl <;> decide

theorem plain_of_all {cs : List Char} (each : cs.all (fun c => decide (Plain c)) = true) : ∀ c ∈ cs, Plain c :=
  fun c mem => of_decide_eq_true (List.all_eq_true.mp each c mem)

/-- A text without blanks has none to be stripped. -/
theorem strip_of_not_isBlank {cs : List Char} (full : ∀ c ∈ cs, Text.isBlank c = false) : Text.strip cs = cs := by
  have kept {front : List Char} (full : ∀ c ∈ front, Text.isBlank c = false) :
      front.dropWhile Text.isBlank = front := by
    cases front with
    | nil => rfl
    | cons c tail => rw [List.dropWhile_cons_of_neg (Bool.eq_false_iff.mp (full c List.mem_cons_self))]
  rw [Text.strip, kept full, kept fun c mem => full c (List.mem_reverse.mp mem), List.reverse_reverse]

theorem strip_of_plain {cs : List Char} (each : ∀ c ∈ cs, Plain c) : Text.strip cs = cs :=
  strip_of_not_isBlank fun c mem => (each c mem).apart.1

theorem mem_splitSign {cs : List Char} {c : Char} (mem : c ∈ cs) (apart : c ∉ ['-', '+']) : c ∈ (splitSign cs).2 := by
  rw [splitSign.eq_def]
  split
  · exact (List.mem_cons.mp mem).resolve_left fun same => apart (by rw [same]; decide)
  · exact (List.mem_cons.mp mem).resolve_left fun same => apart (by rw [same]; decide)
  · exact mem

/-- A text of such characters with a point or an exponent in it. -/
structure Marked (cs : List Char) : Prop where
  plain : ∀ c ∈ cs, Plain c
  mark : ∃ c ∈ cs, c ∈ ['.', 'e']

theorem Marked.append {front cs : List Char} (marked : Marked cs) (plain : ∀ c ∈ front, Plain c) :
    Marked (front ++ cs) where
  plain := List.forall_mem_append.mpr ⟨plain, marked.plain⟩
  mark := by
    obtain ⟨c, mem, mark⟩ := marked.mark
    exact ⟨c, List.mem_append_right front mem, mark⟩

/-- No whole number is written with a point or an exponent. -/
theorem Marked.integer?_eq_none {cs : List Char} (marked : Marked cs) : integer? cs = none := by
  obtain ⟨c, mem, mark⟩ := marked.mark
  have none : '_' ∉ cs := fun mem => (marked.plain _ mem).apart.2 rfl
  have stop : c ∉ ['-', '+'] ∧ Text.isDigit c = false := by
    simp only [List.mem_cons, List.not_mem_nil, or_false] at mark
    rcases mark with rfl | rfl <;> decide
  have fails : (splitSign cs).2.all Text.isDigit = false :=
    List.all_eq_false.mpr ⟨c, mem_splitSign mem stop.1, Bool.eq_false_iff.mp stop.2⟩
  rw [integer?, dropUnderscores?_of_not_mem none]
  simp only [Option.bind_eq_bind, Option.bind_some, fails, Bool.not_false, Bool.or_true, Bool.true_or, if_true]

end Questionnaire.Numeral
