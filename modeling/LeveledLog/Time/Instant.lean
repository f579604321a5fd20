/-
Instants of civil time, and the fields a clock shows for them.

An instant counts seconds from the start of 1970 in UTC and nanoseconds within
the second.  A leap second has no second of its own: it is the last second of
a minute, with a nanosecond count of one thousand million or more.  Instants
exist for the years from -262143 to 262142.
-/

import LeveledLog.Time.Calendar

namespace LeveledLog

open Calendar

structure Instant where
  seconds : Int
  nanoseconds : Nat
deriving DecidableEq

namespace Instant

def epoch : Instant where
  seconds := 0
  nanoseconds := 0

def daySeconds : Int := 86400

def date (instant : Instant) : Date :=
  Date.ofDayNumber (instant.seconds / daySeconds)

def secondOfDay (instant : Instant) : Nat :=
  (instant.seconds % daySeconds).toNat

def hour (instant : Instant) : Nat :=
  instant.secondOfDay / 3600

def minute (instant : Instant) : Nat :=
  instant.secondOfDay / 60 % 60

/-- The second of the minute; a leap second shows the 59 it extends. -/
def second (instant : Instant) : Nat :=
  instant.secondOfDay % 60

/-- Whole milliseconds of the second; those of a leap second go on from 999. -/
def milliseconds (instant : Instant) : Nat :=
  instant.nanoseconds / 1000000

def firstYear : Int := -262143

def lastYear : Int := 262142

/-- Whether there is such an instant: its year is in range, and its
nanoseconds stay within the second, or within a leap second after it. -/
def Exists (instant : Instant) : Prop :=
  firstYear ≤ instant.date.year ∧ instant.date.year ≤ lastYear ∧
    (instant.nanoseconds < 1000000000 ∨
      (instant.nanoseconds < 2000000000 ∧ instant.seconds % 60 = 59))

instance (instant : Instant) : Decidable instant.Exists :=
  inferInstanceAs (Decidable (_ ∧ _ ∧ _))

def of? (seconds : Int) (nanoseconds : Nat) : Option Instant :=
  let instant : Instant := { seconds := seconds, nanoseconds := nanoseconds }
  if instant.Exists then some instant else none

end Instant

end LeveledLog
