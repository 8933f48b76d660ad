import Questionnaire.Text.Blank

/-!
# Calendar dates

Dates of the years 1 to 9999, and the ways to write one: year, month and day, or year, week and day of the week,
with or without hyphens.  A week belongs to the year that holds its Thursday.
-/
namespace Questionnaire

structure Date where
  year : Nat
  month : Nat
  day : Nat
  deriving DecidableEq, Repr

namespace Calendar

def isLeap (year : Nat) : Bool := year % 4 == 0 && (year % 100 != 0 || year % 400 == 0)

def daysInMonth (year month : Nat) : Nat :=
  match month with
  | 2 => if isLeap year then 29 else 28
  | 4 | 6 | 9 | 11 => 30
  | _ => 31

/-- The date of a year, month and day that exist. -/
def date? (year month day : Nat) : Option Date :=
  if 1 ≤ year && year ≤ 9999 && 1 ≤ month && month ≤ 12 && 1 ≤ day && day ≤ daysInMonth year month then
    some ⟨year, month, day⟩
  else none

/-- The days of all years before a year. -/
def daysBefore (year : Nat) : Nat :=
  let past := year - 1
  365 * past + past / 4 - past / 100 + past / 400

/-- The day that has a place among the days of a year, counted from one, by going through the months. -/
def dayOfYear? (year : Nat) (place : Nat) : List Nat → Option Date
  | [] => none
  | month :: rest =>
    if place ≤ daysInMonth year month then date? year month place
    else dayOfYear? year (place - daysInMonth year month) rest

/-- The date with a place among all days, where the first day of the year 1 has place one. -/
def ofPlace? (year : Nat) (place : Nat) : Option Date :=
  let year :=
    if place ≤ daysBefore year then year - 1
    else if place > daysBefore (year + 1) then year + 1
    else year
  dayOfYear? year (place - daysBefore year) (List.range' 1 12)

/-- The day of the week that a year begins with, Monday being zero. -/
def firstWeekday (year : Nat) : Nat := daysBefore year % 7

/-- Whether a year has 53 weeks. -/
def isLong (year : Nat) : Bool :=
  firstWeekday year == 3 || (firstWeekday year == 2 && isLeap year)

/-- The date of a day in a week. -/
def weekDate? (year week day : Nat) : Option Date :=
  if year < 1 || week < 1 || 53 < week || (week == 53 && !isLong year) || day < 1 || 7 < day then none
  else
    let first := firstWeekday year
    -- the first week starts on the Monday nearest to the first day of the year
    let days := daysBefore year + 7 + 7 * (week - 1) + day
    let place := if first ≤ 3 then days - first - 7 else days - first
    ofPlace? year place

/-- The value of `count` digits at the front of a text, and the rest of it. -/
def number? (count : Nat) (cs : List Char) : Option (Nat × List Char) :=
  let digits := cs.take count
  if digits.length == count && digits.all Char.isDigit then
    some (digits.foldl (fun n c => 10 * n + (c.toNat - 48)) 0, cs.drop count)
  else none

/-- A hyphen at the front of a text, which has to be there exactly when hyphens are used. -/
def hyphen? (used : Bool) (cs : List Char) : Option (List Char) :=
  if used then (match cs with | '-' :: rest => some rest | _ => none) else some cs

/-- The date that a text of seven, eight or ten bytes writes; what follows a complete date is not read. -/
def read? (cs : List Char) : Option Date := do
  let bytes := (String.ofList cs).utf8ByteSize
  if bytes != 7 && bytes != 8 && bytes != 10 then none
  let (year, rest) ← number? 4 cs
  let (hyphens, rest) := match rest with
    | '-' :: tail => (true, tail)
    | _ => (false, rest)
  match rest with
  | 'W' :: tail =>
    let (week, tail) ← number? 2 tail
    if tail.isEmpty then weekDate? year week 1
    else
      let (day, _) ← number? 1 (← hyphen? hyphens tail)
      weekDate? year week day
  | _ =>
    let (month, tail) ← number? 2 rest
    let (day, _) ← number? 2 (← hyphen? hyphens tail)
    date? year month day

end Calendar

namespace Date

/-- The date at the front of a text, blanks apart. -/
def ofText? (s : String) : Option Date := Calendar.read? ((Text.strip s.toList).take 10)

/-- A number with zeros in front. -/
def padded (width n : Nat) : String :=
  let digits := Nat.repr n
  String.ofList (List.replicate (width - digits.length) '0') ++ digits

/-- Year, month and day with hyphens. -/
def text (d : Date) : String := padded 4 d.year ++ "-" ++ padded 2 d.month ++ "-" ++ padded 2 d.day

/-- The full years from one date to another. -/
def yearsTo (born today : Date) : Int :=
  let years : Int := today.year - born.year
  if today.month < born.month || (today.month == born.month && today.day < born.day) then years - 1 else years

end Date

end Questionnaire
