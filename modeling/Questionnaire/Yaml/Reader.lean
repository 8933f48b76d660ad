import Questionnaire.Yaml.Scalar

/-!
# Reading YAML text

A text holds one document: a node in block style, whose structure is told by the columns at which its lines
begin, or in flow style, between brackets.  Comments and blank lines may stand between the parts of a node.
A key of a block stands before its colon in one line, or behind a question mark of its own.  Anchors, tags,
directives and keys that are no scalars are refused.
-/
namespace Questionnaire.Yaml

/-- The place of the next part of a node, behind blanks, comments and line breaks.  A line break in a block makes
the place fresh. -/
def skip (flow comment : Bool) (line column : Nat) (fresh : Bool) : List Char → Place
  | [] => ⟨[], line, column, fresh⟩
  | c :: rest =>
    if isBreak c then skip flow false (line + 1) 0 (fresh || !flow) rest
    else if comment || c == ' ' || c == '#' then skip flow (comment || c == '#') line (column + 1) fresh rest
    else ⟨c :: rest, line, column, fresh⟩

/-- The place of the next part of a node. -/
def Place.next (flow : Bool) (p : Place) : Place := skip flow false p.line p.column p.fresh p.rest

/-- Whether a mark stands alone here. -/
def Place.atMark (mark : Char) (p : Place) : Bool :=
  match p.rest with
  | c :: rest => c == mark && endsWord rest
  | [] => false

/-- Whether an entry of a block sequence begins here. -/
def Place.atEntry (p : Place) : Bool := p.atMark '-'

/-- The place behind the colon that makes a scalar a key, if there is one in the same line. -/
def afterColon? (flow : Bool) (start behind : Place) : Option Place :=
  let p := behind.skipBlanks
  match p.rest with
  | ':' :: rest =>
    if start.line == p.line && (flow || endsWord rest) then some ((p.forward 1).withFresh false) else none
  | _ => none

/-- Whether a part of a flow collection is left out before its end or a comma. -/
def Place.atFlowEnd (p : Place) : Bool :=
  match p.rest with
  | c :: _ => c == ',' || c == ']' || c == '\x7d'
  | [] => false

/-- Behind a part of a flow collection: the place behind a comma, or behind the closing bracket. -/
inductive FlowStep where
  | more (p : Place)
  | done (p : Place)

/-- What follows a part of a flow collection that ends with a bracket. -/
def flowStep? (close : Char) (behind : Place) : Option FlowStep :=
  let p := behind.next true
  match p.rest with
  | c :: _ =>
    if c == ',' then some (.more ((p.forward 1).next true))
    else if c == close then some (.done ((p.forward 1).withFresh false))
    else none
  | [] => none

mutual

/-- A node in flow style, and the place behind it.  In this and the following functions `fuel` bounds the steps of
the recursion. -/
def flowNode (fuel : Nat) (p : Place) : Option (Node × Place) :=
  match fuel with
  | 0 => none
  | fuel + 1 =>
    match p.rest with
    | '[' :: _ => do
      let (items, behind) ← flowItems fuel ((p.forward 1).next true)
      return (.sequence items, behind)
    | '\x7b' :: _ => do
      let (entries, behind) ← flowEntries fuel ((p.forward 1).next true)
      return (.mapping entries, behind)
    | _ => do
      let (s, behind) ← scalar? true 0 p
      return (.scalar s, behind)

/-- The value of a key in flow style, missing if the entry ends behind the colon. -/
def flowValue (fuel : Nat) (p : Place) : Option (Node × Place) :=
  match fuel with
  | 0 => none
  | fuel + 1 =>
    let p := p.next true
    if p.atFlowEnd then some (.scalar .missing, p) else flowNode fuel p

/-- The items up to a closing bracket.  A key with its value is a mapping of its own. -/
def flowItems (fuel : Nat) (p : Place) : Option (List Node × Place) :=
  match fuel with
  | 0 => none
  | fuel + 1 =>
    match p.rest with
    | ']' :: _ => some ([], (p.forward 1).withFresh false)
    | _ => do
      let (node, behind) ← flowNode fuel p
      let (item, behind) ← match node, afterColon? true p behind with
        | .scalar key, some colon => do
          let (v, behind) ← flowValue fuel colon
          pure (Node.mapping [(key, v)], behind)
        | _, _ => pure (node, behind)
      match ← flowStep? ']' behind with
      | .done p => return ([item], p)
      | .more p =>
        let (items, p) ← flowItems fuel p
        return (item :: items, p)

/-- The entries up to a closing brace. -/
def flowEntries (fuel : Nat) (p : Place) : Option (List (Scalar × Node) × Place) :=
  match fuel with
  | 0 => none
  | fuel + 1 =>
    match p.rest with
    | '\x7d' :: _ => some ([], (p.forward 1).withFresh false)
    | _ => do
      let (key, behind) ← scalar? true 0 p
      let (v, behind) ← match afterColon? true p behind with
        | some colon => flowValue fuel colon
        | none => pure (.scalar .missing, behind)
      match ← flowStep? '\x7d' behind with
      | .done p => return ([(key, v)], p)
      | .more p =>
        let (entries, p) ← flowEntries fuel p
        return ((key, v) :: entries, p)

end

mutual

/-- A node in block style whose lines begin at a column of at least `least`, and the place behind it. -/
def blockNode (fuel least : Nat) (p : Place) : Option (Node × Place) :=
  match fuel with
  | 0 => none
  | fuel + 1 =>
    let lines (isFolded : Bool) : Option (Node × Place) := do
      let (text, behind) ← block? isFolded least (p.forward 1)
      return (.scalar ⟨false, String.ofList text⟩, behind)
    let mapping : Option (Node × Place) := do
      let (entries, behind) ← blockEntries fuel p.column p
      return (.mapping entries, behind)
    match p.rest with
    | '[' :: _ | '\x7b' :: _ => flowNode (4 * p.rest.length + 8) p
    | '|' :: _ => lines false
    | '>' :: _ => lines true
    | _ =>
      if p.atEntry then
        if p.fresh then do
          let (items, behind) ← blockItems fuel p.column p
          return (.sequence items, behind)
        else none
      else if p.atMark '?' then (if p.fresh then mapping else none)
      else do
        let (s, behind) ← scalar? false least p
        if p.fresh && (afterColon? false p behind).isSome then mapping else return (.scalar s, behind)

/-- The items whose marks stand at a column, the first of them here. -/
def blockItems (fuel column : Nat) (p : Place) : Option (List Node × Place) :=
  match fuel with
  | 0 => none
  | fuel + 1 => do
    let inside := ((p.forward 1).withFresh true).next false
    let (item, behind) ←
      if inside.atEnd || inside.column ≤ column then pure (.scalar .missing, inside)
      else blockNode fuel (column + 1) inside
    let p := behind.next false
    if !p.atEnd && p.column == column && p.atEntry then
      let (items, behind) ← blockItems fuel column p
      return (item :: items, behind)
    else return ([item], p)

/-- What follows a mark or a colon of a mapping whose keys stand at a column.  A sequence may stand at that column
too. -/
def blockValue (fuel column : Nat) (p : Place) : Option (Node × Place) :=
  match fuel with
  | 0 => none
  | fuel + 1 =>
    let inside := p.next false
    if inside.atEnd || inside.column < column then some (.scalar .missing, inside)
    else if column < inside.column then blockNode fuel (column + 1) inside
    else if inside.atEntry then do
      let (items, behind) ← blockItems fuel column inside
      return (.sequence items, behind)
    else some (.scalar .missing, inside)

/-- A key, the place behind its colon, and the place behind the key if it has no colon. -/
def blockKey (fuel column : Nat) (p : Place) : Option (Scalar × Option Place × Place) :=
  match fuel with
  | 0 => none
  | fuel + 1 =>
    if p.atMark '?' then do
      match ← blockValue fuel column ((p.forward 1).withFresh true) with
      | (.scalar key, behind) =>
        let p := behind.next false
        let colon :=
          if !p.atEnd && p.column == column && p.atMark ':' then some ((p.forward 1).withFresh true) else none
        return (key, colon, p)
      | _ => none
    else do
      let (key, behind) ← scalar? false (column + 1) p
      return (key, some (← afterColon? false p behind), behind)

/-- The entries whose keys stand at a column, the first of them here. -/
def blockEntries (fuel column : Nat) (p : Place) : Option (List (Scalar × Node) × Place) :=
  match fuel with
  | 0 => none
  | fuel + 1 => do
    let (key, colon, behind) ← blockKey fuel column p
    let (v, behind) ← match colon with
      | some inside => blockValue fuel column inside
      | none => pure (.scalar .missing, behind)
    let p := behind.next false
    if !p.atEnd && p.column == column then
      let (entries, behind) ← blockEntries fuel column p
      return ((key, v) :: entries, behind)
    else return ([(key, v)], p)

end

/-- The document at the front of a text, with the mark of its start or without, and the place behind it. -/
def document? (cs : List Char) : Option (Node × Place) :=
  let fuel := 4 * cs.length + 8
  let p := Place.next false ⟨cs, 0, 0, true⟩
  if p.atMarker && p.rest.head? == some '-' then
    let p := ((p.forward 3).withFresh false).next false
    if p.atEnd then some (.scalar .missing, p) else blockNode fuel 0 p
  else if p.rest.isEmpty then some (.scalar .missing, p)
  else blockNode fuel 0 p

/-- Whether nothing follows but marks of the document's end, at most `marks` of them. -/
def isFinished : (marks : Nat) → Place → Bool
  | 0, _ => false
  | marks + 1, p =>
    let p := p.next false
    p.rest.isEmpty || (p.atMarker && p.rest.head? == some '.' && isFinished marks (p.forward 3))

/-- The text with every line break of one character and without a mark of its byte order. -/
def unified : List Char → List Char
  | '\r' :: '\n' :: rest => '\n' :: unified rest
  | c :: rest => (if c == '\r' || c.toNat == 0x85 then '\n' else c) :: unified rest
  | [] => []

/-- The characters that a text may hold. -/
def isAllowed (c : Char) : Bool :=
  let n := c.toNat
  n == 0x9 || n == 0xA || n == 0xD || n == 0x85 || (0x20 ≤ n && n ≤ 0x7E) || (0xA0 ≤ n && n ≤ 0xFFFD) ||
    0x10000 ≤ n

/-- The node that a text holds. -/
def Node.ofText? (text : String) : Option Node := do
  let cs := text.toList
  if !cs.all isAllowed then none
  else
    let cs := unified (if (cs.head?.map Char.toNat) == some 0xFEFF then cs.drop 1 else cs)
    let (node, behind) ← document? cs
    if isFinished (cs.length + 1) behind then return node else none

/-- The value that a text holds. -/
def read (text : String) : Except ReadError Value :=
  match Node.ofText? text with
  | some node => node.value
  | none => .error .malformed

end Questionnaire.Yaml
