/-
Reading the clock of the host.

The clock holds two counts, which may be anything.  They can be read as an
instant if the nanoseconds stay within the second, the seconds are not before
1970, and the year is one in which instants exist.  Otherwise reading the
clock fails, for the first of these reasons that applies.
-/

import LeveledLog.Time.Instant
import LeveledLog.Time.Span

namespace LeveledLog

structure ClockTime where
  seconds : Int
  nanoseconds : Nat
deriving DecidableEq

inductive ClockFault where
  | malformed
  /-- The time is earlier than 1970 by a number of nanoseconds. -/
  | beforeEpoch (early : Nat)
  | afterLastYear
deriving DecidableEq

def ClockFault.message : ClockFault → String
  | .malformed =>
      "called `Result::unwrap()` on an `Err` value: " ++
        "Error \x7b kind: InvalidData, message: \"invalid timestamp\" \x7d"
  | .beforeEpoch early =>
      "system time before Unix epoch: SystemTimeError(" ++
        Span.text early ++ ")"
  | .afterLastYear => "called `Option::unwrap()` on a `None` value"

namespace ClockTime

def epoch : ClockTime where
  seconds := 0
  nanoseconds := 0

def early (time : ClockTime) : Nat :=
  (-(time.seconds * 1000000000 + time.nanoseconds)).toNat

def read (time : ClockTime) : Except ClockFault Instant :=
  if 1000000000 ≤ time.nanoseconds then
    .error .malformed
  else if time.seconds < 0 then
    .error (.beforeEpoch time.early)
  else
    match Instant.of? time.seconds time.nanoseconds with
    | some instant => .ok instant
    | none => .error .afterLastYear

theorem read_epoch : epoch.read = .ok Instant.epoch := by
  have inRange : Instant.epoch.Exists := by
    decide +kernel
  have found : Instant.of? epoch.seconds epoch.nanoseconds =
      some Instant.epoch := by
    rw [Instant.of?]
    exact if_pos inRange
  rw [read, found, if_neg (by decide), if_neg (by decide)]

end ClockTime

end LeveledLog
