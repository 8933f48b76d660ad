import Questionnaire.Text.Printable

/-!
# Quoted texts

Two ways to write a text between quotes.  A message shows it between single quotes, or double ones when it holds
a single quote and no double one, with everything that is not printable escaped by its code.  A document writes
it between double quotes with everything outside ASCII escaped in units of sixteen bits.
-/
namespace Questionnaire.Text

/-- The hexadecimal digits of a number, at least `width` of them. -/
def hex (width n : Nat) : List Char :=
  let digits := Nat.toDigits 16 n
  List.replicate (width - digits.length) '0' ++ digits

/-- One character inside a quoted text of a message. -/
def shownChar (quote c : Char) : List Char :=
  if c == quote || c == '\\' then ['\\', c]
  else if c == '\n' then ['\\', 'n']
  else if c == '\r' then ['\\', 'r']
  else if c == '\t' then ['\\', 't']
  else if isPrintable c then [c]
  else if c.toNat < 0x100 then '\\' :: 'x' :: hex 2 c.toNat
  else if c.toNat < 0x10000 then '\\' :: 'u' :: hex 4 c.toNat
  else '\\' :: 'U' :: hex 8 c.toNat

/-- A text as a message shows it. -/
def shown (s : String) : String :=
  let cs := s.toList
  let quote := if cs.contains '\'' && !cs.contains '"' then '"' else '\''
  String.ofList (quote :: cs.flatMap (shownChar quote) ++ [quote])

/-- One character inside a quoted text of a document. -/
def documentChar (c : Char) : List Char :=
  let unit (n : Nat) : List Char := '\\' :: 'u' :: hex 4 n
  if c == '"' || c == '\\' then ['\\', c]
  else if c == '\n' then ['\\', 'n']
  else if c == '\r' then ['\\', 'r']
  else if c == '\t' then ['\\', 't']
  else if c.toNat == 8 then ['\\', 'b']
  else if c.toNat == 12 then ['\\', 'f']
  else if 32 ≤ c.toNat && c.toNat ≤ 126 then [c]
  else if c.toNat < 0x10000 then unit c.toNat
  else unit (0xD800 + (c.toNat - 0x10000) / 0x400) ++ unit (0xDC00 + (c.toNat - 0x10000) % 0x400)

/-- A text as a document writes it. -/
def document (s : String) : String :=
  String.ofList ('"' :: s.toList.flatMap documentChar ++ ['"'])

end Questionnaire.Text
