import Strongroom.Text.Blank

/-!
# Timestamps

A moment in Coordinated Universal Time by its calendar date and time of day, down to nanoseconds. It
is written by the rules of RFC 3339 with 0, 3, 6 or 9 digits of fraction, as few as show it, and a
`Z`. Reading is more lenient: numbers need not be padded, blanks may stand between the components,
a blank may stand for the `T`, years outside 0 to 9999 carry a sign, `UTC` is an offset, and so is
any number of hours and minutes of less than a day, with or without its colon.
-/

namespace Strongroom

/-- A moment in Coordinated Universal Time. -/
structure Timestamp where
  /-- The year; negative years lie before the year 0. -/
  year : Int
  /-- The month, from 1 to 12. -/
  month : Nat
  /-- The day of the month, from 1. -/
  day : Nat
  /-- The hour, from 0 to 23. -/
  hour : Nat
  /-- The minute, from 0 to 59. -/
  minute : Nat
  /-- The second, from 0 to 60, where 60 is a leap second. -/
  second : Nat
  /-- The nanosecond, from 0 to 999999999. -/
  nanosecond : Nat
  deriving DecidableEq, Repr

namespace Timestamp

/-! ### The calendar -/

/-- The first and the last year. -/
def minYear : Int := -262143

/-- The last year. -/
def maxYear : Int := 262142

/-- Whether a year has a leap day. -/
def isLeapYear (year : Int) : Bool :=
  year % 4 = 0 && (year % 100 ≠ 0 || year % 400 = 0)

/-- The number of days of a month. -/
def daysInMonth (year : Int) (month : Nat) : Nat :=
  if month = 2 then (if isLeapYear year then 29 else 28)
  else if month = 4 ∨ month = 6 ∨ month = 9 ∨ month = 11 then 30
  else 31

/-- The same time of the next day. -/
def nextDay (t : Timestamp) : Timestamp :=
  if t.day < daysInMonth t.year t.month then { t with day := t.day + 1 }
  else if t.month < 12 then { t with month := t.month + 1, day := 1 }
  else { t with year := t.year + 1, month := 1, day := 1 }

/-- The same time of the day before. -/
def previousDay (t : Timestamp) : Timestamp :=
  if 1 < t.day then { t with day := t.day - 1 }
  else if 1 < t.month then
    { t with month := t.month - 1, day := daysInMonth t.year (t.month - 1) }
  else { t with year := t.year - 1, month := 12, day := 31 }

/-- The moment some minutes later, or earlier, but less than a day away. -/
def addMinutes (t : Timestamp) (minutes : Int) : Timestamp :=
  let total : Int := t.hour * 60 + t.minute + minutes
  let ofDay (n : Int) : Timestamp := { t with hour := (n / 60).toNat, minute := (n % 60).toNat }
  if total < 0 then (ofDay (total + 1440)).previousDay
  else if total < 1440 then ofDay total
  else (ofDay (total - 1440)).nextDay

/-- Whether the components are those of a moment. -/
def IsValid (t : Timestamp) : Prop :=
  minYear ≤ t.year ∧ t.year ≤ maxYear ∧ 1 ≤ t.month ∧ t.month ≤ 12 ∧ 1 ≤ t.day ∧
    t.day ≤ daysInMonth t.year t.month ∧ t.hour ≤ 23 ∧ t.minute ≤ 59 ∧ t.second ≤ 60 ∧
    t.nanosecond ≤ 999999999

instance (t : Timestamp) : Decidable t.IsValid := by
  unfold IsValid; infer_instance

/-! ### Writing -/

/-- A decimal digit below ten. -/
def digit (n : Nat) : Char := Char.ofNat (48 + n)

/-- The `width` lowest decimal digits of a number, highest first. -/
def padded : (width n : Nat) → List Char
  | 0, _ => []
  | width + 1, n => padded width (n / 10) ++ [digit (n % 10)]

/-- A year: four digits, and outside 0 to 9999 a sign and at least four digits. -/
def writeYear (year : Int) : List Char :=
  if 0 ≤ year ∧ year ≤ 9999 then padded 4 year.toNat
  else
    let magnitude := year.natAbs
    (if year < 0 then '-' else '+') ::
      (if magnitude ≤ 9999 then padded 4 magnitude else (toString magnitude).toList)

/-- A fraction of a second: nothing, or a point and three, six or nine digits. -/
def writeFraction (nanosecond : Nat) : List Char :=
  if nanosecond = 0 then []
  else if nanosecond % 1000000 = 0 then '.' :: padded 3 (nanosecond / 1000000)
  else if nanosecond % 1000 = 0 then '.' :: padded 6 (nanosecond / 1000)
  else '.' :: padded 9 nanosecond

/-- The characters of a timestamp. -/
def chars (t : Timestamp) : List Char :=
  writeYear t.year ++ '-' :: padded 2 t.month ++ '-' :: padded 2 t.day ++ 'T' :: padded 2 t.hour ++
    ':' :: padded 2 t.minute ++ ':' :: padded 2 t.second ++ writeFraction t.nanosecond ++ ['Z']

/-- A timestamp as a text. -/
def render (t : Timestamp) : String :=
  String.ofList t.chars

/-! ### Reading -/

/-- The value of a decimal digit. -/
def digitValue? (c : Char) : Option Nat :=
  if '0' ≤ c ∧ c ≤ '9' then some (c.toNat - 48) else none

/-- Reads at most `width` digits; at least one must be there. -/
def readDigits (width : Nat) (cs : List Char) : Option (Nat × List Char) :=
  let ds := (cs.take width).takeWhile fun c => (digitValue? c).isSome
  if ds.isEmpty then none
  else some (ds.foldl (fun n c => 10 * n + (c.toNat - 48)) 0, cs.drop ds.length)

/-- Reads a number of one or two digits, with blanks in front. -/
def readPair (cs : List Char) : Option (Nat × List Char) :=
  readDigits 2 (Text.trimStart cs)

/-- Reads a separator with blanks in front. -/
def readMark (mark : Char) (cs : List Char) : Option (List Char) :=
  match Text.trimStart cs with
  | c :: rest => if c = mark then some rest else none
  | [] => none

/-- Reads a year, with blanks in front: up to four digits, or a sign and any number of them. -/
def readYear (cs : List Char) : Option (Int × List Char) :=
  match Text.trimStart cs with
  | '-' :: rest => (readDigits rest.length rest).map fun (n, rest) => (-(n : Int), rest)
  | '+' :: rest => (readDigits rest.length rest).map fun (n, rest) => ((n : Int), rest)
  | cs => (readDigits 4 cs).map fun (n, rest) => ((n : Int), rest)

/-- Reads the fraction of a second, if there is one; digits behind the ninth do not count. -/
def readFraction : List Char → Option (Nat × List Char)
  | '.' :: rest => do
    let (n, after) ← readDigits 9 rest
    let count := rest.length - after.length
    some (n * Nat.pow 10 (9 - count), after.dropWhile fun c => (digitValue? c).isSome)
  | cs => some (0, cs)

/-- Reads the minutes of an offset, two digits below sixty. -/
def readOffsetMinutes : List Char → Option (Nat × List Char)
  | a :: b :: rest => do
    let a ← digitValue? a
    let b ← digitValue? b
    if a ≤ 5 then some (10 * a + b, rest) else none
  | _ => none

/-- Reads the magnitude of an offset in minutes: two digits of hours and two of minutes, and between
them any colons and blanks. -/
def readOffsetMagnitude : List Char → Option (Nat × List Char)
  | a :: b :: rest => do
    let a ← digitValue? a
    let b ← digitValue? b
    let (minutes, rest) ← readOffsetMinutes (rest.dropWhile fun c => c = ':' || Text.isBlank c)
    some ((10 * a + b) * 60 + minutes, rest)
  | _ => none

/-- Whether three characters spell UTC in any case. -/
def isUtc (a b c : Char) : Bool :=
  (a = 'u' || a = 'U') && (b = 't' || b = 'T') && (c = 'c' || c = 'C')

/-- Reads an offset from Coordinated Universal Time, in minutes to the east. -/
def readOffset (cs : List Char) : Option (Int × List Char) :=
  let numeric : List Char → Option (Int × List Char)
    | 'Z' :: rest => some (0, rest)
    | 'z' :: rest => some (0, rest)
    | '+' :: rest => (readOffsetMagnitude rest).map fun (n, rest) => ((n : Int), rest)
    | '-' :: rest => (readOffsetMagnitude rest).map fun (n, rest) => (-(n : Int), rest)
    | '−' :: rest => (readOffsetMagnitude rest).map fun (n, rest) => (-(n : Int), rest)
    | _ => none
  match cs with
  | a :: b :: c :: rest => if isUtc a b c then some (0, rest) else numeric cs
  | _ => numeric cs

/-- The separator between the date and the time. -/
def readSeparator : List Char → Option (List Char)
  | c :: rest => if c = 'T' ∨ c = 't' ∨ c = ' ' then some rest else none
  | [] => none

/-- The timestamp that a list of characters spells, when it spells one. -/
def ofChars? (cs : List Char) : Option Timestamp := do
  let (year, cs) ← readYear cs
  let cs ← readMark '-' cs
  let (month, cs) ← readPair cs
  let cs ← readMark '-' cs
  let (day, cs) ← readPair cs
  let cs ← readSeparator cs
  let (hour, cs) ← readPair cs
  let cs ← readMark ':' cs
  let (minute, cs) ← readPair cs
  let cs ← readMark ':' cs
  let (second, cs) ← readPair cs
  let (nanosecond, cs) ← readFraction cs
  let (offset, cs) ← readOffset (Text.trimStart cs)
  let civil : Timestamp := ⟨year, month, day, hour, minute, second, nanosecond⟩
  let universal := civil.addMinutes (-offset)
  if (Text.trimStart cs).isEmpty ∧ civil.IsValid ∧ -1440 < offset ∧ offset < 1440 ∧
      universal.IsValid then
    some universal
  else none

/-- The timestamp that a text spells, when it spells one. -/
def ofString? (s : String) : Option Timestamp :=
  ofChars? s.toList

end Timestamp

end Strongroom
