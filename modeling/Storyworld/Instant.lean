import Storyworld.Text.Words

/-!
# Instants

A point in time to the nanosecond, as date and time of day in UTC. It is read from a date, a time
and an offset, with blanks allowed between the parts, and written in its one normal form: `T` before
the time, a fraction of three, six or nine digits if there is one, and `Z` at the end.
-/

namespace Storyworld

/-- A day of the Gregorian calendar, extended to all years. -/
structure Date where
  year : Int
  month : Nat
  day : Nat
  deriving DecidableEq, Repr, Inhabited

namespace Date

def isLeap (year : Int) : Bool := year % 4 == 0 && (year % 100 != 0 || year % 400 == 0)

def daysInMonth (year : Int) (month : Nat) : Nat :=
  if month == 2 then if isLeap year then 29 else 28
  else if [4, 6, 9, 11].contains month then 30
  else 31

/-- Whether there is such a day, in a year that an instant can have. -/
def isValid (d : Date) : Bool :=
  -262143 ≤ d.year && d.year ≤ 262142 && 1 ≤ d.month && d.month ≤ 12 && 1 ≤ d.day &&
    d.day ≤ daysInMonth d.year d.month

def next (d : Date) : Date :=
  if d.day < daysInMonth d.year d.month then { d with day := d.day + 1 }
  else if d.month < 12 then ⟨d.year, d.month + 1, 1⟩
  else ⟨d.year + 1, 1, 1⟩

def previous (d : Date) : Date :=
  if 1 < d.day then { d with day := d.day - 1 }
  else if 1 < d.month then ⟨d.year, d.month - 1, daysInMonth d.year (d.month - 1)⟩
  else ⟨d.year - 1, 12, 31⟩

end Date

/-- A point in time, in UTC. The second of a leap second is the 60th. -/
structure Instant where
  date : Date
  hour : Nat
  minute : Nat
  second : Nat
  nano : Nat
  deriving DecidableEq, Repr, Inhabited

namespace Instant

def epoch : Instant := ⟨⟨1970, 1, 1⟩, 0, 0, 0, 0⟩

/-- The instant so many seconds and nanoseconds after the first of 1970. -/
def sinceEpoch (seconds nano : Nat) : Instant where
  date := Nat.repeat Date.next (seconds / 86400) epoch.date
  hour := seconds % 86400 / 3600
  minute := seconds % 3600 / 60
  second := seconds % 60
  nano := nano

/-! ### Writing -/

/-- The decimal text of a number, with zeros in front up to a width. -/
def padded (width n : Nat) : String :=
  let digits := toString n
  String.ofList (List.replicate (width - digits.length) '0') ++ digits

/-- The text of a year; one that has not four digits has a sign. -/
def yearText (year : Int) : String :=
  if 0 ≤ year ∧ year ≤ 9999 then padded 4 year.natAbs
  else (if year < 0 then "-" else "+") ++ padded 4 year.natAbs

/-- The fraction of a second, in the fewest groups of three digits. -/
def fractionText (nano : Nat) : String :=
  if nano == 0 then ""
  else if nano % 1000000 == 0 then "." ++ padded 3 (nano / 1000000)
  else if nano % 1000 == 0 then "." ++ padded 6 (nano / 1000)
  else "." ++ padded 9 nano

def text (t : Instant) : String :=
  yearText t.date.year ++ "-" ++ padded 2 t.date.month ++ "-" ++ padded 2 t.date.day ++ "T" ++
    padded 2 t.hour ++ ":" ++ padded 2 t.minute ++ ":" ++ padded 2 t.second ++
    fractionText t.nano ++ "Z"

/-! ### Reading -/

def skipBlanks (cs : List Char) : List Char := cs.dropWhile Text.isBlank

def ofDigits (ds : List Char) : Nat := ds.foldl (fun n c => n * 10 + (c.toNat - '0'.toNat)) 0

/-- Reads a number of at most so many digits, and of at least one. -/
def number? (most : Nat) (cs : List Char) : Option (Nat × List Char) :=
  let ds := (cs.take most).takeWhile Char.isDigit
  if ds.isEmpty then none else some (ofDigits ds, cs.drop ds.length)

/-- Reads a two-digit field after blanks. -/
def field? (cs : List Char) : Option (Nat × List Char) := number? 2 (skipBlanks cs)

/-- Reads a year; only one with a sign may have other than four digits. -/
def year? (cs : List Char) : Option (Int × List Char) :=
  match skipBlanks cs with
  | '-' :: rest => (number? rest.length rest).map fun (n, rest) => (-(n : Int), rest)
  | '+' :: rest => (number? rest.length rest).map fun (n, rest) => ((n : Int), rest)
  | rest => (number? 4 rest).map fun (n, rest) => ((n : Int), rest)

def mark? (c : Char) (cs : List Char) : Option (List Char) :=
  match skipBlanks cs with
  | d :: rest => if d = c then some rest else none
  | [] => none

/-- Reads the fraction of a second, if there is one, in nanoseconds; digits beyond are dropped. -/
def fraction? : List Char → Option (Nat × List Char)
  | '.' :: rest => do
    let (n, after) ← number? 9 rest
    return (n * Nat.pow 10 (9 - (rest.length - after.length)), after.dropWhile Char.isDigit)
  | cs => some (0, cs)

/-- Reads the offset from UTC in minutes. -/
def offset? (cs : List Char) : Option (Int × List Char) :=
  match cs with
  | 'Z' :: rest | 'z' :: rest => some (0, rest)
  | sign :: h₁ :: h₂ :: rest =>
    if [sign, h₁, h₂].map Char.toUpper == ['U', 'T', 'C'] then some (0, rest)
    else if !(['+', '-', '−'].contains sign && h₁.isDigit && h₂.isDigit) then none
    else
      match rest.dropWhile fun c => c == ':' || Text.isBlank c with
      | m₁ :: m₂ :: rest =>
        let minutes := ofDigits [h₁, h₂] * 60 + ofDigits [m₁, m₂]
        if m₁.isDigit && m₁ < '6' && m₂.isDigit && minutes < 24 * 60 then
          some (if sign == '+' then minutes else -minutes, rest)
        else none
      | _ => none
  | _ => none

/-- The instant of a local date and time that is so many minutes ahead of UTC. -/
def ofLocal? (date : Date) (hour minute second nano : Nat) (ahead : Int) : Option Instant :=
  if !(date.isValid && hour < 24 && minute < 60 && second ≤ 60) then none
  else
    let total : Int := hour * 60 + minute - ahead
    let date := if total < 0 then date.previous else if total < 24 * 60 then date else date.next
    let ofDay := (total % (24 * 60)).toNat
    if date.isValid then some ⟨date, ofDay / 60, ofDay % 60, second, nano⟩ else none

def parse? (text : String) : Option Instant := do
  let (year, cs) ← year? text.toList
  let (month, cs) ← field? (← mark? '-' cs)
  let (day, cs) ← field? (← mark? '-' cs)
  let separator :: cs := cs | none
  if separator != 'T' && separator != 't' && separator != ' ' then none
  let (hour, cs) ← field? cs
  let (minute, cs) ← field? (← mark? ':' cs)
  let (second, cs) ← field? (← mark? ':' cs)
  let (nano, cs) ← fraction? cs
  let (ahead, cs) ← offset? (skipBlanks cs)
  if !(skipBlanks cs).isEmpty then none
  ofLocal? ⟨year, month, day⟩ hour minute second nano ahead

end Instant
end Storyworld
