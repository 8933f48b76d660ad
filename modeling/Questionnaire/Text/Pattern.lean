import Questionnaire.Text.Blank

/-!
# Patterns

A pattern is a row of pieces.  A piece takes one character of a class, or a run of one or more of them; a run may
also take what the next piece is meant for, so it is tried at its longest and then shorter and shorter.  A pattern
stands for whole texts, but does not look at a line break that ends one.
-/
namespace Questionnaire.Text

/-- A part of a pattern, with the characters that it may take. -/
inductive Piece where
  | one (takes : Char → Bool)
  | run (takes : Char → Bool)

/-- Whether a row of pieces takes a text to its end, or to the line break that ends it. -/
def fits : List Piece → List Char → Bool
  | [], rest => rest.isEmpty || rest == ['\n']
  | _ :: _, [] => false
  | .one takes :: later, c :: rest => takes c && fits later rest
  | .run takes :: later, c :: rest => takes c && (fits (.run takes :: later) rest || fits later rest)

/-- The characters of the parts of an address: neither blank nor the sign between user and host. -/
def isAddressChar (c : Char) : Bool := !isBlank c && c != '@'

/-- An address: two parts around an `@`, the second with a point inside. -/
def address : List Piece :=
  [.run isAddressChar, .one (· == '@'), .run isAddressChar, .one (· == '.'), .run isAddressChar]

end Questionnaire.Text
