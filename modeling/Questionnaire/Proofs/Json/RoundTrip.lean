import Questionnaire.Proofs.Expr.Lexemes
import Questionnaire.Proofs.Json.Quoted
import Questionnaire.Proofs.Json.Tidy

/-!
# Values read again from their JSON text

A value that JSON has words for is read from its text as itself, with the fields of every object in the order of their
keys.  Each text is read in front of what may follow a value: a comma, a closing bracket or brace, or nothing.  For the
reader goes on with a number as long as it can.  It counts down a depth, and twice the length of a text is enough for
it.
-/
namespace Questionnaire

namespace Json

/-! ## Words and numbers -/

/-- What may follow a value in a text. -/
def Ends (rest : List Char) : Prop := ∀ c ∈ rest.head?, c ∈ [',', ']', '\x7d']

theorem ends_nil : Ends [] := by simp [Ends]

theorem ends_cons {c : Char} {rest : List Char} : Ends (c :: rest) ↔ c ∈ [',', ']', '\x7d'] := by simp [Ends]

variable {rest : List Char}

/-- A number does not go on with what may follow a value. -/
theorem Ends.stops (ends : Ends rest) :
    rest.takeWhile Char.isDigit = [] ∧ fraction rest = ([], rest) ∧ exponent rest = ([], rest) := by
  cases rest with
  | nil => exact ⟨rfl, rfl, rfl⟩
  | cons c tail =>
    have one := ends_cons.mp ends
    simp only [List.mem_cons, List.not_mem_nil, or_false] at one
    rcases one with rfl | rfl | rfl <;> exact ⟨rfl, rfl, rfl⟩

/-- A number is read to the last digit. -/
theorem number_digits {ds : List Char} (all : ∀ c ∈ ds, c.isDigit = true) (nonempty : ds ≠ [])
    (leading : ds.head? = some '0' → ds = ['0']) {negative : Bool} {k : Int}
    (read : Numeral.integer? ((if negative then ['-'] else []) ++ ds) = some k) (ends : Ends rest) :
    number negative (ds ++ rest) = .ok (.int k, rest) := by
  obtain ⟨stop, point, power⟩ := ends.stops
  have run : (ds ++ rest).takeWhile Char.isDigit = ds := by
    rw [List.takeWhile_append_of_pos all, stop, List.append_nil]
  have whole : (if ds.head? == some '0' then ['0'] else ds) = ds := by
    split
    · rename_i zero
      exact (leading (eq_of_beq zero)).symm
    · rfl
  have left : (ds ++ rest).drop ds.length = rest := List.drop_left
  simp only [number, run, whole, left, point, power, List.isEmpty_eq_false_iff.mpr nonempty, read]
  rfl

theorem number_decimalDigits {n : Nat} (small : n < digitBound) (negative : Bool) (ends : Ends rest) :
    number negative ((decimalDigits n).toList ++ rest) = .ok (.int (if negative then -(n : Int) else n), rest) := by
  refine number_digits (fun _ => Numeral.isDigit_of_mem_decimalDigits) (Numeral.decimalDigits_ne_nil n) ?_ ?_ ends
  · intro zero
    rw [Numeral.toList_decimalDigits] at zero
    rw [Numeral.eq_zero_of_head zero]
    rfl
  · cases negative with
    | false => exact Numeral.integer?_decimalDigits small
    | true => exact Numeral.integer?_negative small

theorem afterWord?_eq_none {word : String} {front cs : List Char} (spelled : word.toList = front)
    (differs : ∀ behind, front ++ behind ≠ cs) : afterWord? word cs = none := by
  rw [afterWord?, if_neg]
  intro begins
  obtain ⟨behind, same⟩ := List.isPrefixOf_iff_prefix.mp begins
  exact differs behind (spelled ▸ same)

/-- What begins with none of the words is a number, with a minus sign or without. -/
theorem scalar_of_wordless {c : Char} {cs : List Char}
    (wordless : ∀ word ∈ ["null", "true", "false", "NaN", "Infinity", "-Infinity"], afterWord? word (c :: cs) = none) :
    scalar (c :: cs) = if c = '-' then number true cs else number false (c :: cs) := by
  simp only [List.forall_mem_cons] at wordless
  obtain ⟨null, yes, no, nan, infinity, negative, -⟩ := wordless
  simp only [scalar, List.findSome?, null, yes, no, nan, infinity, negative, Option.map_none]
  split
  · rename_i same
    cases same
    rw [if_pos rfl]
  · rename_i other
    rw [if_neg]
    rintro rfl
    exact other cs rfl

/-- Digits begin no word, and with a minus sign neither. -/
theorem scalar_of_digit {c : Char} (digit : c.isDigit = true) (cs : List Char) :
    scalar (c :: cs) = number false (c :: cs) ∧ scalar ('-' :: c :: cs) = number true (c :: cs) := by
  have differs {w : Char} (other : w.isDigit = false) : w ≠ c := by
    rintro rfl
    cases other.symm.trans digit
  have apart {w d : Char} {front behind ds : List Char} (other : w ≠ d) : w :: front ++ behind ≠ d :: ds :=
    fun same => other (List.cons.inj same).1
  have behind {w : Char} {front behind : List Char} (other : w.isDigit = false) :
      '-' :: w :: front ++ behind ≠ '-' :: c :: cs :=
    fun same => apart (differs other) (List.cons.inj same).2
  constructor
  · rw [scalar_of_wordless, if_neg (differs rfl).symm]
    simp only [List.forall_mem_cons]
    refine ⟨?_, ?_, ?_, ?_, ?_, ?_, List.forall_mem_nil _⟩ <;>
      exact afterWord?_eq_none rfl fun _ => apart (differs rfl)
  · rw [scalar_of_wordless, if_pos rfl]
    simp only [List.forall_mem_cons]
    refine ⟨?_, ?_, ?_, ?_, ?_, afterWord?_eq_none rfl fun _ => behind rfl, List.forall_mem_nil _⟩ <;>
      exact afterWord?_eq_none rfl fun _ => apart (by decide)

/-! ## Values -/

/-- A text begins with no blank and with nothing that ends an array or an object. -/
def Visible (text : List Char) : Prop := ∃ c tail, text = c :: tail ∧ isSpace c = false ∧ c ≠ ']' ∧ c ≠ '\x7d'

theorem Visible.append {text : List Char} (h : Visible text) (behind : List Char) : Visible (text ++ behind) := by
  obtain ⟨c, tail, rfl, begins⟩ := h
  exact ⟨c, tail ++ behind, rfl, begins⟩

theorem Visible.length_pos {text : List Char} (h : Visible text) : 0 < text.length := by
  obtain ⟨c, tail, rfl, -⟩ := h
  exact Nat.succ_pos _

theorem Visible.skipSpace {text : List Char} (h : Visible text) : skipSpace text = text := by
  obtain ⟨c, tail, rfl, visible, -⟩ := h
  rw [Json.skipSpace, List.dropWhile_cons_of_neg (by simp [visible])]

/-- A text is read as a value, in front of anything that may follow it. -/
structure Holds (text : List Char) (v : Value) : Prop where
  visible : Visible text
  reads : ∀ {depth : Nat} {rest : List Char}, 2 * text.length ≤ depth + 1 → Ends rest →
    value depth (text ++ rest) = .ok (v, rest)

theorem value_scalar {c : Char} (other : c ∉ ['"', '[', '\x7b']) (depth : Nat) (cs : List Char) :
    value (depth + 1) (c :: cs) = scalar (c :: cs) := by
  simp only [List.mem_cons, List.not_mem_nil, or_false, not_or] at other
  obtain ⟨quote, bracket, brace⟩ := other
  rw [value.eq_def]
  split
  · rename_i none
    cases none
  · rename_i counted
    cases counted
    split
    · rename_i same
      exact absurd (List.cons.inj same).1 quote
    · rename_i same
      exact absurd (List.cons.inj same).1 bracket
    · rename_i same
      exact absurd (List.cons.inj same).1 brace
    · rfl

/-- A word or a number that is read as a value. -/
theorem holds_of_scalar {c : Char} {tail : List Char} {v : Value}
    (visible : isSpace c = false) (apart : c ∉ [']', '\x7d', '"', '[', '\x7b'])
    (reads : ∀ {rest}, Ends rest → scalar (c :: tail ++ rest) = .ok (v, rest)) : Holds (c :: tail) v := by
  simp only [List.mem_cons, List.not_mem_nil, or_false, not_or] at apart
  refine ⟨⟨c, tail, rfl, visible, apart.1, apart.2.1⟩, fun {depth rest} enough ends => ?_⟩
  obtain ⟨depth, rfl⟩ : ∃ d, depth = d + 1 := Nat.exists_eq_succ_of_ne_zero (by simp at enough; omega)
  rw [List.cons_append, value_scalar (by simp [apart])]
  exact reads ends

theorem holds_null : Holds "null".toList .undefined :=
  holds_of_scalar (by decide) (by decide) fun _ => rfl

theorem holds_boolean (b : Bool) : Holds (if b then "true" else "false").toList (.boolean b) := by
  cases b
  · exact holds_of_scalar (by decide) (by decide) fun _ => rfl
  · exact holds_of_scalar (by decide) (by decide) fun _ => rfl

theorem exactText_of_small {n : Int} (small : n.natAbs < digitBound) :
    exactText n = .ok (if n < 0 then "-" ++ decimalDigits n.natAbs else decimalDigits n.natAbs) := by
  unfold exactText integerText?
  -- the bound has thousands of digits, and nothing here depends on it
  generalize digitBound = bound at small
  rw [if_pos small]

theorem holds_integer {n : Int} (small : n.natAbs < digitBound) :
    Holds (if n < 0 then "-" ++ decimalDigits n.natAbs else decimalDigits n.natAbs).toList (.int n) := by
  obtain ⟨c, tail, digits⟩ := List.exists_cons_of_ne_nil (Numeral.decimalDigits_ne_nil n.natAbs)
  have digit : c.isDigit = true := Numeral.isDigit_of_mem_decimalDigits (digits ▸ List.mem_cons_self)
  have read (negative : Bool) {rest : List Char} (ends : Ends rest) :=
    digits ▸ number_decimalDigits small negative ends
  have differs {w : Char} (other : w.isDigit = false) : c ≠ w := by
    rintro rfl
    cases other.symm.trans digit
  split
  · rename_i negative
    have value : -(n.natAbs : Int) = n := by rw [Int.ofNat_natAbs_of_nonpos (Int.le_of_lt negative), Int.neg_neg]
    rw [String.toList_append, digits]
    refine holds_of_scalar (by decide) (by decide) fun {rest} ends => ?_
    refine (scalar_of_digit digit (tail ++ rest)).2.trans ?_
    rw [← List.cons_append, read true ends, if_pos rfl, value]
  · rename_i natural
    have value : (n.natAbs : Int) = n := Int.natAbs_of_nonneg (Int.not_lt.mp natural)
    rw [digits]
    refine holds_of_scalar ?_ ?_ fun {rest} ends => ?_
    · simp [isSpace, differs]
    · simp [differs]
    · rw [List.cons_append, (scalar_of_digit digit (tail ++ rest)).1, ← List.cons_append, read false ends]
      simp [value]

theorem holds_text (s : String) : Holds (Text.document s).toList (.text s) := by
  rw [Text.document, String.toList_ofList]
  refine ⟨⟨_, _, rfl, by decide, by decide, by decide⟩, fun {depth rest} enough _ => ?_⟩
  obtain ⟨depth, rfl⟩ : ∃ d, depth = d + 1 := Nat.exists_eq_succ_of_ne_zero (by simp at enough; omega)
  rw [List.cons_append, List.cons_append, List.append_assoc, value]
  simp only [List.cons_append, List.nil_append, string_document]
  rfl

/-! ## Arrays -/

theorem toList_intercalate_cons (text next : String) (texts : List String) :
    (", ".intercalate (text :: next :: texts)).toList =
      text.toList ++ ',' :: ' ' :: (", ".intercalate (next :: texts)).toList := by
  rw [String.intercalate_cons_cons, String.toList_append, String.toList_append]
  simp

theorem visible_intercalate {text : String} (visible : Visible text.toList) (texts : List String) :
    Visible (", ".intercalate (text :: texts)).toList := by
  cases texts with
  | nil => rwa [String.intercalate_singleton]
  | cons next texts =>
    rw [toList_intercalate_cons]
    exact visible.append _

section

variable {text : List Char} {v : Value} (h : Holds text v) {depth : Nat} (enough : 2 * text.length ≤ depth + 1)
include h enough

theorem items_last : items (depth + 1) (text ++ ']' :: rest) = .ok ([v], rest) := by
  rw [items, h.reads enough (ends_cons.mpr (by decide))]
  rfl

theorem items_next {behind : List Char} (visible : Visible behind) {vs : List Value}
    (later : items depth behind = .ok (vs, rest)) :
    items (depth + 1) (text ++ ',' :: ' ' :: behind) = .ok (v :: vs, rest) := by
  have blank : skipSpace (' ' :: behind) = behind := visible.skipSpace
  rw [items, h.reads enough (ends_cons.mpr (by decide))]
  change (items depth (skipSpace (' ' :: behind)) >>= fun read => pure (v :: read.1, read.2)) = _
  rw [blank, later]
  rfl

end

/-- The text of a value, with the value that is read from it. -/
structure Piece where
  text : String
  value : Value
  holds : Holds text.toList value

/-- The texts of some items are read up to the closing bracket. -/
theorem items_intercalate (p : Piece) (ps : List Piece) {depth : Nat}
    (enough : 2 * (", ".intercalate ((p :: ps).map (·.text))).toList.length ≤ depth) :
    items depth ((", ".intercalate ((p :: ps).map (·.text))).toList ++ ']' :: rest) =
      .ok ((p :: ps).map (·.value), rest) := by
  simp only [List.map_cons] at enough ⊢
  induction ps generalizing p depth with
  | nil =>
    rw [List.map_nil, String.intercalate_singleton] at enough ⊢
    have length := p.holds.visible.length_pos
    obtain ⟨depth, rfl⟩ : ∃ d, depth = d + 1 := Nat.exists_eq_succ_of_ne_zero (by omega)
    exact items_last p.holds (by omega)
  | cons q ps ih =>
    have visible := visible_intercalate q.holds.visible (ps.map (·.text))
    rw [List.map_cons, toList_intercalate_cons] at enough ⊢
    simp only [List.length_append, List.length_cons] at enough
    obtain ⟨depth, rfl⟩ : ∃ d, depth = d + 1 := Nat.exists_eq_succ_of_ne_zero (by omega)
    rw [List.append_assoc]
    exact items_next p.holds (by omega) (visible.append _) (ih q (by omega))

theorem value_bracket {inner : List Char} (visible : Visible inner) {depth : Nat} {vs : List Value}
    (read : items depth inner = .ok (vs, rest)) : value (depth + 1) ('[' :: inner) = .ok (.sequence vs, rest) := by
  rw [value, visible.skipSpace]
  split
  · rename_i closed
    obtain ⟨c, tail, same, -, bracket, -⟩ := visible
    exact absurd (List.cons.inj same).1.symm bracket
  · rw [read]
    rfl

/-- The text of an array. -/
theorem holds_sequence (ps : List Piece) :
    Holds ("[" ++ ", ".intercalate (ps.map (·.text)) ++ "]").toList (.sequence (ps.map (·.value))) := by
  have shape : ("[" ++ ", ".intercalate (ps.map (·.text)) ++ "]").toList =
      '[' :: ((", ".intercalate (ps.map (·.text))).toList ++ [']']) := by simp
  rw [shape]
  refine ⟨⟨_, _, rfl, by decide, by decide, by decide⟩, fun {depth rest} enough _ => ?_⟩
  simp only [List.length_append, List.length_cons, List.length_nil] at enough
  obtain ⟨depth, rfl⟩ : ∃ d, depth = d + 1 := Nat.exists_eq_succ_of_ne_zero (by omega)
  cases ps with
  | nil => rfl
  | cons p ps =>
    have visible := visible_intercalate p.holds.visible (ps.map (·.text))
    rw [List.cons_append, List.append_assoc]
    exact value_bracket (visible.append _) (items_intercalate p ps (by omega))

/-! ## Objects -/

/-- The text of a field's value, with the name of the field. -/
structure Member extends Piece where
  name : String

namespace Member

/-- The text of a field. -/
def written (m : Member) : String := Text.document m.name ++ ": " ++ m.text

def field (m : Member) : Key × Value := (.text m.name, m.value)

theorem toList_written (m : Member) : m.written.toList =
    '"' :: (m.name.toList.flatMap Text.documentChar ++ '"' :: ':' :: ' ' :: m.text.toList) := by
  simp [written, Text.document]

theorem visible (m : Member) : Visible m.written.toList :=
  ⟨_, _, m.toList_written, by decide, by decide, by decide⟩

section

variable (m : Member) (fields : Fields) {depth : Nat} (enough : 2 * m.written.toList.length ≤ depth + 1)
include enough

/-- One field is read, and what is behind it decides how the object goes on. -/
theorem members_written {c : Char} (follows : c ∈ [',', ']', '\x7d']) (behind : List Char) :
    members (depth + 1) fields (m.written.toList ++ c :: behind) =
      match skipSpace (c :: behind) with
      | '\x7d' :: behind => .ok (Table.set (.text m.name) m.value fields, behind)
      | ',' :: tail => members depth (Table.set (.text m.name) m.value fields) (skipSpace tail)
      | _ => .error .malformed := by
  have blank : skipSpace (' ' :: (m.text.toList ++ c :: behind)) = m.text.toList ++ c :: behind :=
    (m.holds.visible.append _).skipSpace
  rw [toList_written] at enough ⊢
  simp only [List.length_append, List.length_cons] at enough
  rw [List.cons_append, List.append_assoc, members]
  simp only [List.cons_append, string_document]
  change (value depth (skipSpace (' ' :: (m.text.toList ++ c :: behind))) >>= _) = _
  rw [blank, m.holds.reads (by omega) (ends_cons.mpr follows)]
  rfl

theorem members_last : members (depth + 1) fields (m.written.toList ++ '\x7d' :: rest) =
    .ok (Table.set (.text m.name) m.value fields, rest) := members_written m fields enough (by decide) rest

theorem members_next {behind : List Char} (visible : Visible behind) :
    members (depth + 1) fields (m.written.toList ++ ',' :: ' ' :: behind) =
      members depth (Table.set (.text m.name) m.value fields) behind := by
  have blank : skipSpace (' ' :: behind) = behind := visible.skipSpace
  refine (members_written m fields enough (by decide) (' ' :: behind)).trans ?_
  exact congrArg (members depth _) blank

end

end Member

/-- The fields that some others leave when they are read. -/
def readInto (fields : Fields) (ms : List Member) : Fields :=
  ms.foldl (fun fields m => Table.set (.text m.name) m.value fields) fields

/-- The texts of some fields are read up to the closing brace. -/
theorem members_intercalate (m : Member) (ms : List Member) (fields : Fields) {depth : Nat}
    (enough : 2 * (", ".intercalate ((m :: ms).map Member.written)).toList.length ≤ depth) :
    members depth fields ((", ".intercalate ((m :: ms).map Member.written)).toList ++ '\x7d' :: rest) =
      .ok (readInto fields (m :: ms), rest) := by
  simp only [List.map_cons] at enough ⊢
  induction ms generalizing m fields depth with
  | nil =>
    rw [List.map_nil, String.intercalate_singleton] at enough ⊢
    have length := m.visible.length_pos
    obtain ⟨depth, rfl⟩ : ∃ d, depth = d + 1 := Nat.exists_eq_succ_of_ne_zero (by omega)
    exact m.members_last fields (by omega)
  | cons n ms ih =>
    have visible := visible_intercalate n.visible (ms.map Member.written)
    rw [List.map_cons, toList_intercalate_cons] at enough ⊢
    simp only [List.length_append, List.length_cons] at enough
    obtain ⟨depth, rfl⟩ : ∃ d, depth = d + 1 := Nat.exists_eq_succ_of_ne_zero (by omega)
    rw [List.append_assoc]
    exact (m.members_next fields (by omega) (visible.append _)).trans (ih n _ (by omega))

/-- Fields with names that are all different are read as they are. -/
theorem readInto_of_distinct {ms : List Member} (fields : Fields)
    (distinct : Table.Distinct (fields ++ ms.map Member.field)) :
    readInto fields ms = fields ++ ms.map Member.field := by
  induction ms generalizing fields with
  | nil => exact (List.append_nil fields).symm
  | cons m ms ih =>
    rw [List.map_cons, List.append_cons] at distinct ⊢
    have apart := (List.pairwise_append.mp (List.pairwise_append.mp distinct).1).2.2
    have fresh : Table.set (.text m.name) m.value fields = fields ++ [m.field] :=
      Table.set_of_fresh (fun c mem => apart c mem m.field (List.mem_singleton_self _)) m.value
    rw [readInto, List.foldl_cons, fresh]
    exact ih _ distinct

theorem value_brace {inner : List Char} (visible : Visible inner) {depth : Nat} {fields : Fields}
    (read : members depth [] inner = .ok (fields, rest)) :
    value (depth + 1) ('\x7b' :: inner) = .ok (.structured fields, rest) := by
  rw [value, visible.skipSpace]
  split
  · rename_i closed
    obtain ⟨c, tail, same, -, -, brace⟩ := visible
    exact absurd (List.cons.inj same).1.symm brace
  · rw [read]
    rfl

/-- The text of an object. -/
theorem holds_structured {ms : List Member} (distinct : Table.Distinct (ms.map Member.field)) :
    Holds ("\x7b" ++ ", ".intercalate (ms.map Member.written) ++ "\x7d").toList
      (.structured (ms.map Member.field)) := by
  have shape : ("\x7b" ++ ", ".intercalate (ms.map Member.written) ++ "\x7d").toList =
      '\x7b' :: ((", ".intercalate (ms.map Member.written)).toList ++ ['\x7d']) := by simp
  rw [shape]
  refine ⟨⟨_, _, rfl, by decide, by decide, by decide⟩, fun {depth rest} enough _ => ?_⟩
  simp only [List.length_append, List.length_cons, List.length_nil] at enough
  obtain ⟨depth, rfl⟩ : ∃ d, depth = d + 1 := Nat.exists_eq_succ_of_ne_zero (by omega)
  have all := readInto_of_distinct [] distinct
  cases ms with
  | nil => rfl
  | cons m ms =>
    have visible := visible_intercalate m.visible (ms.map Member.written)
    rw [List.cons_append, List.append_assoc]
    rw [List.nil_append] at all
    exact value_brace (visible.append _) (all ▸ members_intercalate m ms [] (by omega))

/-! ## All values -/

theorem exists_pieces {items : List Value}
    (each : ∀ v ∈ items, ∃ text, print v = .ok text ∧ Holds text.toList v.tidy) :
    ∃ ps : List Piece, printItems items = .ok (ps.map (·.text)) ∧ ps.map (·.value) = items.map Value.tidy := by
  induction items with
  | nil => exact ⟨[], rfl, rfl⟩
  | cons v items ih =>
    obtain ⟨⟨text, printed, holds⟩, later⟩ := List.forall_mem_cons.mp each
    obtain ⟨ps, others, tidied⟩ := ih later
    refine ⟨⟨text, v.tidy, holds⟩ :: ps, ?_, by rw [List.map_cons, List.map_cons, tidied]⟩
    rw [printItems, printed, others]
    rfl

theorem printFields_eq_map (fields : List (Key × Value)) :
    printFields fields = fields.map fun c => (c.1, print c.2) := by
  induction fields with
  | nil => rw [printFields, List.map_nil]
  | cons c rest ih => rw [printFields, List.map_cons, ih]

theorem exists_members {fields : List (Key × Value)} (texts : ∀ c ∈ fields, ∃ name, c.1 = .text name)
    (each : ∀ c ∈ fields, ∃ text, print c.2 = .ok text ∧ Holds text.toList c.2.tidy) :
    ∃ ms : List Member, ((fields.map fun c => (c.1, print c.2)).mapM fun (key, text) => do
        return Text.document (← keyText key) ++ ": " ++ (← text)) = .ok (ms.map Member.written) ∧
      ms.map Member.field = fields.map fun c => (c.1, c.2.tidy) := by
  induction fields with
  | nil => exact ⟨[], rfl, rfl⟩
  | cons c fields ih =>
    obtain ⟨⟨name, named⟩, others⟩ := List.forall_mem_cons.mp texts
    obtain ⟨⟨text, printed, holds⟩, later⟩ := List.forall_mem_cons.mp each
    obtain ⟨ms, written, tidied⟩ := ih others later
    refine ⟨⟨⟨text, c.2.tidy, holds⟩, name⟩ :: ms, ?_, ?_⟩
    · rw [List.map_cons, List.mapM_cons, written, named, printed]
      rfl
    · rw [List.map_cons, List.map_cons, tidied, named]
      rfl

/-- Every value that JSON has words for has a text, which holds the value with its fields in order. -/
theorem exists_text {v : Value} (storable : v.Storable) : ∃ text, print v = .ok text ∧ Holds text.toList v.tidy := by
  induction storable with
  | undefined => exact ⟨_, by rw [print, keyText], by rw [Value.tidy]; exact holds_null⟩
  | boolean b => exact ⟨_, by rw [print, keyText], by rw [Value.tidy]; exact holds_boolean b⟩
  | @integer n small =>
    refine ⟨_, (?_ : print (.number (.int n)) = _), by rw [Value.int, Value.tidy]; exact holds_integer small⟩
    rw [print, keyText, exactText_of_small small]
  | text s => exact ⟨_, by rw [print], by rw [Value.tidy]; exact holds_text s⟩
  | sequence _ ih =>
    obtain ⟨ps, printed, tidied⟩ := exists_pieces ih
    refine ⟨_, ?_, by rw [Value.tidy_sequence, ← tidied]; exact holds_sequence ps⟩
    rw [print, printed]
    rfl
  | @structured fields texts distinct _ ih =>
    have perm := Table.inOrder_perm fields
    have known {P : Key × Value → Prop} (all : ∀ c ∈ fields, P c) : ∀ c ∈ Table.inOrder fields, P c :=
      fun c mem => all c (perm.mem_iff.mp mem)
    obtain ⟨ms, printed, tidied⟩ := exists_members (known texts) (known ih)
    have apart : Table.Distinct (ms.map Member.field) := tidied ▸ (distinct.of_perm perm.symm).map Value.tidy
    refine ⟨_, ?_, by rw [Value.tidy_structured, Fields.tidy, ← tidied]; exact holds_structured apart⟩
    have named : ∀ c ∈ fields.map fun c => (c.1, print c.2), ∃ name, c.1 = .text name := by
      intro c mem
      obtain ⟨d, known, rfl⟩ := List.mem_map.mp mem
      exact texts d known
    rw [print, printFields_eq_map, Table.inOrder?_of_texts named, Table.inOrder_map]
    simp only [printed]
    rfl

/-- What JSON has words for is read from its text with the fields of every object in the order of their keys. -/
theorem read_print {v : Value} (storable : v.Storable) : ∃ text, print v = .ok text ∧ read text = .ok v.tidy := by
  obtain ⟨text, printed, holds⟩ := exists_text storable
  refine ⟨text, printed, ?_⟩
  have whole : value (2 * text.toList.length + 2) (text.toList ++ []) = .ok (v.tidy, []) :=
    holds.reads (by omega) ends_nil
  rw [List.append_nil] at whole
  rw [read, holds.visible.skipSpace]
  simp only [whole]
  rfl

end Json

end Questionnaire
