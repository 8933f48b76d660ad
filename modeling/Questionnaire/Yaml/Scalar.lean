import Questionnaire.Text.Digit
import Questionnaire.Yaml.Node

/-!
# Scalars in a text

A place in a text is what is still to be read, with its line and column.  Four kinds of scalar are read at a
place: plain ones, those in single quotes, those in double quotes with escapes, and blocks of lines.  A scalar
may go on over several lines: a single line break then counts as a blank and more than one as the breaks after
the first.
-/
namespace Questionnaire.Yaml

/-- A place in a text. -/
structure Place where
  rest : List Char
  line : Nat
  column : Nat
  /-- Whether a key of a block mapping or an entry of a block sequence may begin here. -/
  fresh : Bool

/-- Line breaks; a text that is read has no others. -/
def isBreak (c : Char) : Bool := c == '\n' || c.toNat == 0x2028 || c.toNat == 0x2029

/-- A blank, a tabulator or a line break. -/
def isSpace (c : Char) : Bool := c == ' ' || c == '\t' || isBreak c

/-- Whether a text ends or begins with a space. -/
def endsWord : List Char → Bool
  | [] => true
  | c :: _ => isSpace c

/-- Whether a text begins with the mark of a document's start or end, which stands alone at the start of a
line. -/
def startsMarker (cs : List Char) : Bool :=
  let mark := cs.take 3
  (mark == ['-', '-', '-'] || mark == ['.', '.', '.']) && endsWord (cs.drop 3)

namespace Place

/-- The place `count` characters further in the same line. -/
def forward (count : Nat) (p : Place) : Place :=
  { p with rest := p.rest.drop count, column := p.column + count }

def withFresh (fresh : Bool) (p : Place) : Place := { p with fresh }

def atMarker (p : Place) : Bool := p.column == 0 && startsMarker p.rest

/-- Whether a document ends here. -/
def atEnd (p : Place) : Bool := p.rest.isEmpty || p.atMarker

/-- The place behind the blanks. -/
def skipBlanks (p : Place) : Place := p.forward (p.rest.takeWhile (· == ' ')).length

end Place

/-- The text that the line breaks from one line to the next leave: `first` is the first of them. -/
def folded (first : Char) (others : List Char) : List Char :=
  (if first != '\n' then [first] else if others.isEmpty then [' '] else []) ++ others

/-! ## Plain scalars -/

/-- Whether a colon before this text ends a plain scalar. -/
def endsKey (flow : Bool) : List Char → Bool
  | [] => true
  | c :: _ => isSpace c || (flow && [',', '[', ']', '\x7b', '\x7d'].contains c)

/-- Whether a text begins a plain scalar. -/
def startsPlain (flow : Bool) : List Char → Bool
  | [] => false
  | c :: rest =>
    if c == '-' || (!flow && (c == '?' || c == ':')) then !endsWord rest
    else !isSpace c && !"-?:,[]\x7b\x7d#&*!|>'\"%@\x60".toList.contains c

/-- The characters of a plain scalar up to the next space, and what follows them. -/
def plainWord (flow : Bool) : List Char → List Char × List Char
  | [] => ([], [])
  | c :: rest =>
    let ends := isSpace c || (c == ':' && endsKey flow rest) ||
      (flow && [',', '?', '[', ']', '\x7b', '\x7d'].contains c)
    if ends then ([], c :: rest)
    else
      let (word, behind) := plainWord flow rest
      (c :: word, behind)

/-- The breaks of blank lines, and the place behind them; none if a marker follows. -/
def blankLines (line column : Nat) : List Char → Option (List Char) × Place
  | [] => (some [], ⟨[], line, column, true⟩)
  | c :: rest =>
    if c == ' ' then blankLines line (column + 1) rest
    else if isBreak c then
      if startsMarker rest then (none, ⟨rest, line + 1, 0, true⟩)
      else
        let (breaks, p) := blankLines (line + 1) 0 rest
        (breaks.map (c :: ·), p)
    else (some [], ⟨c :: rest, line, column, true⟩)

/-- What stands between two words of a plain scalar, and the place behind it.  Nothing stands there when a marker
follows. -/
def plainGap (p : Place) : List Char × Place :=
  let p' := p.skipBlanks
  match p'.rest with
  | c :: rest =>
    if !isBreak c then (p.rest.take (p'.column - p.column), p')
    else if startsMarker rest then ([], ⟨rest, p.line + 1, 0, true⟩)
    else match blankLines (p.line + 1) 0 rest with
      | (some breaks, behind) => (folded c breaks, behind)
      | (none, behind) => ([], behind)
  | [] => ([], p')

/-- A plain scalar of at most `words` words, and the place behind it.  In a block its lines begin at a column of
at least `least`. -/
def plainWords (flow : Bool) (least : Nat) : (words : Nat) → Place → List Char × Place
  | 0, p => ([], p)
  | words + 1, p =>
    let (word, rest) := plainWord flow p.rest
    if word.isEmpty || word.head? == some '#' then ([], p)
    else
      let (gap, behind) := plainGap ⟨rest, p.line, p.column + word.length, false⟩
      if gap.isEmpty || (!flow && behind.column < least) then (word, behind)
      else match plainWords flow least words behind with
        | ([], p) => (word, p)
        | (more, p) => (word ++ gap ++ more, p)

/-! ## Quoted scalars -/

/-- The line breaks before the next line with a text, and the place behind them; none if a marker stands between
the quotes. -/
def quotedBreaks (line column : Nat) : List Char → Option (List Char × Place)
  | [] => some ([], ⟨[], line, column, false⟩)
  | c :: rest =>
    if column == 0 && startsMarker (c :: rest) then none
    else if c == ' ' || c == '\t' then quotedBreaks line (column + 1) rest
    else if isBreak c then (quotedBreaks (line + 1) 0 rest).map fun (breaks, p) => (c :: breaks, p)
    else some ([], ⟨c :: rest, line, column, false⟩)

/-- The characters that an escape by a letter stands for. -/
def letterEscapes : List (Char × Nat) :=
  [('0', 0x0), ('a', 0x7), ('b', 0x8), ('t', 0x9), ('\t', 0x9), ('n', 0xA), ('v', 0xB), ('f', 0xC), ('r', 0xD),
    ('e', 0x1B), (' ', 0x20), ('"', 0x22), ('\\', 0x5C), ('/', 0x2F), ('N', 0x85), ('_', 0xA0), ('L', 0x2028),
    ('P', 0x2029)]

/-- The number of hexadecimal digits of an escape by code. -/
def codeLength? (c : Char) : Option Nat :=
  if c == 'x' then some 2 else if c == 'u' then some 4 else if c == 'U' then some 8 else none

/-- The characters of an escape after its backslash, and the place behind it. -/
def escape? (p : Place) : Option (List Char × Place) :=
  match p.rest with
  | [] => none
  | c :: rest =>
    match letterEscapes.lookup c with
    | some code => some ([Char.ofNat code], p.forward 1)
    | none =>
      match codeLength? c with
      | some length => do
        let digits ← (rest.take length).mapM Text.hexValue?
        let code := digits.foldl (fun n d => 16 * n + d) 0
        if digits.length < length || !decide code.isValidChar then none
        else return ([Char.ofNat code], p.forward (length + 1))
      | none => if isBreak c then quotedBreaks (p.line + 1) 0 rest else none

/-- The characters of a scalar up to its closing quote, after at most `steps` steps, and the place behind the
quote. -/
def quoted (double : Bool) : (steps : Nat) → Place → Option (List Char × Place)
  | 0, _ => none
  | steps + 1, p =>
    let before (step : List Char × Place) : Option (List Char × Place) :=
      (quoted double steps step.2).map fun (more, behind) => (step.1 ++ more, behind)
    match p.rest with
    | [] => none
    | c :: rest =>
      if c == (if double then '"' else '\'') then
        if !double && rest.head? == some '\'' then before (['\''], p.forward 2)
        else some ([], (p.forward 1).withFresh false)
      else if double && c == '\\' then do before (← escape? (p.forward 1))
      else if isSpace c then
        let blanks := p.rest.takeWhile fun c => c == ' ' || c == '\t'
        match p.rest.drop blanks.length with
        | next :: behind =>
          if isBreak next then do
            let (breaks, p) ← quotedBreaks (p.line + 1) 0 behind
            before (folded next breaks, p)
          else before (blanks, p.forward blanks.length)
        | [] => none
      else before ([c], p.forward 1)

/-! ## Blocks of lines -/

/-- How a block ends: without a line break, with one, or with all that there are. -/
inductive Chomping where
  | strip
  | clip
  | keep
  deriving DecidableEq, Repr

/-- How a block says that it ends. -/
def Chomping.ofChar? (c : Char) : Option Chomping :=
  if c == '-' then some .strip else if c == '+' then some .keep else none

/-- The head of a block after its first mark: how it ends, how far it is indented if that is said, and what
follows.  The two may come in either order. -/
def blockHead? (cs : List Char) : Option (Chomping × Option Nat × List Char) :=
  let chomping (cs : List Char) : Option Chomping × List Char :=
    match cs with
    | c :: rest => match Chomping.ofChar? c with
      | some chomping => (some chomping, rest)
      | none => (none, cs)
    | [] => (none, [])
  let (first, rest) := chomping cs
  let indent := match rest with
    | c :: _ => if c.isDigit then some (c.toNat - 48) else none
    | [] => none
  let rest := rest.drop (if indent.isSome then 1 else 0)
  let (second, rest) := if first.isSome then (none, rest) else chomping rest
  if indent == some 0 then none else some ((first.or second).getD .clip, indent, rest)

/-- Whether nothing but blanks and a comment is left in a line. -/
def isBareLine (cs : List Char) : Bool :=
  match cs.takeWhile fun c => !isBreak c with
  | [] => true
  | line => match line.dropWhile (· == ' ') with
    | [] => true
    | c :: _ => line.head? == some ' ' && c == '#'

/-- The breaks of the blank lines before a block, the deepest column of a blank line or of the first text, and
the place of that text. -/
def leadingLines (line column deepest : Nat) : List Char → List Char × Nat × Place
  | [] => ([], deepest, ⟨[], line, column, true⟩)
  | c :: rest =>
    if c == ' ' then leadingLines line (column + 1) (max deepest (column + 1)) rest
    else if isBreak c then
      let (breaks, deepest, p) := leadingLines (line + 1) 0 deepest rest
      (c :: breaks, deepest, p)
    else ([], deepest, ⟨c :: rest, line, column, true⟩)

/-- The breaks of the blank lines inside a block of an indentation, and the place behind them and behind the
indentation of the next line. -/
def innerLines (indent line column : Nat) : List Char → List Char × Place
  | [] => ([], ⟨[], line, column, true⟩)
  | c :: rest =>
    if c == ' ' && column < indent then innerLines indent line (column + 1) rest
    else if isBreak c then
      let (breaks, p) := innerLines indent (line + 1) 0 rest
      (c :: breaks, p)
    else ([], ⟨c :: rest, line, column, true⟩)

/-- The text of at most `lines` lines of a block after the breaks before them, with the last line break, the
breaks behind it, and the place behind them. -/
def blockLines (isFolded : Bool) (indent : Nat) : (lines : Nat) → (breaks : List Char) → Place →
    List Char × List Char × List Char × Place
  | 0, breaks, p => ([], [], breaks, p)
  | lines + 1, breaks, p =>
    if p.column != indent || p.rest.isEmpty then ([], [], breaks, p)
    else
      let text := p.rest.takeWhile fun c => !isBreak c
      let ending := (p.rest.drop text.length).take 1
      let startsBlank (cs : List Char) : Bool := cs.head? == some ' ' || cs.head? == some '\t'
      let (after, next) := innerLines indent (p.line + 1) 0 (p.rest.drop (text.length + 1))
      if ending.isEmpty then (breaks ++ text, [], [], { p with rest := [] })
      else if next.column == indent && !next.rest.isEmpty then
        let folds := isFolded && ending == ['\n'] && !startsBlank p.rest && !startsBlank next.rest
        let joint := if !folds then ending else if after.isEmpty then [' '] else []
        let (more, last, behind, place) := blockLines isFolded indent lines after next
        (breaks ++ text ++ joint ++ more, last, behind, place)
      else (breaks ++ text, ending, after, next)

/-- A block of lines after its first mark, and the place behind it.  Its lines begin at a column of at least
`least`. -/
def block? (isFolded : Bool) (least : Nat) (p : Place) : Option (List Char × Place) := do
  let (chomping, extra, rest) ← blockHead? p.rest
  if !isBareLine rest then none
  else
    let body := (rest.dropWhile fun c => !isBreak c).drop 1
    let least := max least 1
    let (indent, breaks, start) := match extra with
      | none =>
        let (breaks, deepest, start) := leadingLines (p.line + 1) 0 0 body
        (max least deepest, breaks, start)
      | some extra =>
        let indent := least + extra - 1
        (indent, innerLines indent (p.line + 1) 0 body)
    let (text, last, after, behind) := blockLines isFolded indent (body.length + 1) breaks start
    let tail := match chomping with
      | .strip => []
      | .clip => last
      | .keep => last ++ after
    return (text ++ tail, behind.withFresh true)

/-- A scalar at a place that is not a block of lines, and the place behind it. -/
def scalar? (flow : Bool) (least : Nat) (p : Place) : Option (Scalar × Place) :=
  if p.atMarker then none
  else match p.rest with
    | '"' :: rest => (quoted true (rest.length + 1) (p.forward 1)).map fun (text, behind) =>
        (⟨false, String.ofList text⟩, behind)
    | '\'' :: rest => (quoted false (rest.length + 1) (p.forward 1)).map fun (text, behind) =>
        (⟨false, String.ofList text⟩, behind)
    | cs =>
      if startsPlain flow cs then
        let (text, behind) := plainWords flow least (cs.length + 1) p
        some (⟨true, String.ofList text⟩, behind)
      else none

end Questionnaire.Yaml
