/-
The proleptic Gregorian calendar.

A date is a year, a month and a day.  `Date.ofDayNumber` gives the date of a
day counted from 1 January 1970, and `Date.dayNumber` counts back.  The first
goes through cycles of 400, 100, 4 and 1 years that start with the year 1, so
that in each cycle the long part comes last.
-/

namespace LeveledLog.Calendar

def isLeap (year : Int) : Bool :=
  year % 4 == 0 && (year % 100 != 0 || year % 400 == 0)

def monthLengths (leap : Bool) : List Nat :=
  [31, if leap then 29 else 28, 31, 30, 31, 30, 31, 31, 30, 31, 30, 31]

/-- Month and day, both counted from one, of a day of the year counted from
zero, given the lengths of the months from `month` on. -/
def monthDay (month : Nat) : List Nat → Nat → Nat × Nat
  | [], day => (month, day + 1)
  | length :: lengths, day =>
      if day < length then
        (month, day + 1)
      else
        monthDay (month + 1) lengths (day - length)

structure Date where
  year : Int
  month : Nat
  day : Nat
deriving DecidableEq

/-- Days before the first of January of a year, counted from that of the
year 1. -/
def daysBeforeYear (year : Int) : Int :=
  let past := year - 1
  past * 365 + past / 4 - past / 100 + past / 400

/-- The day 1 January 1970, counted from 1 January of the year 1. -/
def epochDay : Int := 719162

namespace Date

def Valid (date : Date) : Prop :=
  1 ≤ date.month ∧ date.month ≤ 12 ∧ 1 ≤ date.day ∧
    date.day ≤ (monthLengths (isLeap date.year)).getD (date.month - 1) 0

instance (date : Date) : Decidable date.Valid :=
  inferInstanceAs (Decidable (_ ∧ _ ∧ _ ∧ _))

def dayNumber (date : Date) : Int :=
  daysBeforeYear date.year
    + ((monthLengths (isLeap date.year)).take (date.month - 1)).foldl Nat.add 0
    + date.day - 1 - epochDay

def ofDayNumber (number : Int) : Date :=
  let fromYearOne := number + epochDay
  let cycle := fromYearOne / 146097
  let inCycle := (fromYearOne % 146097).toNat
  let century := min (inCycle / 36524) 3
  let inCentury := inCycle - century * 36524
  let four := inCentury / 1461
  let inFour := inCentury - four * 1461
  let single := min (inFour / 365) 3
  let inYear := inFour - single * 365
  let year : Int := cycle * 400 + ((century * 100 + four * 4 + single : Nat) : Int) + 1
  let (month, day) := monthDay 1 (monthLengths (isLeap year)) inYear
  { year := year, month := month, day := day }

end Date

end LeveledLog.Calendar
