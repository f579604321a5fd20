/-
The timestamp at the start of a line.

`Instant.timestamp` writes `[YYYY-MM-DDThh:mm:ss.mmm] ` with its trailing
blank, always 26 bytes.  A year before 0 is written 0000 and a year after 9999
is written 9999, and the milliseconds of a leap second are written 999.
-/

import LeveledLog.Text.Bytes
import LeveledLog.Time.Instant

namespace LeveledLog

namespace Timestamp

def digits (value : Nat) : (width : Nat) → Bytes
  | 0 => []
  | width + 1 =>
      (48 + (value / 10 ^ width % 10).toUInt8) :: digits value width

/-- The year as a timestamp shows it, between 0 and 9999. -/
def shownYear (instant : Instant) : Nat :=
  min instant.date.year.toNat 9999

def shownMilliseconds (instant : Instant) : Nat :=
  min instant.milliseconds 999

end Timestamp

open Timestamp

def Instant.timestamp (instant : Instant) : Bytes :=
  Text.utf8 "[" ++ digits (shownYear instant) 4 ++
    Text.utf8 "-" ++ digits instant.date.month 2 ++
    Text.utf8 "-" ++ digits instant.date.day 2 ++
    Text.utf8 "T" ++ digits instant.hour 2 ++
    Text.utf8 ":" ++ digits instant.minute 2 ++
    Text.utf8 ":" ++ digits instant.second 2 ++
    Text.utf8 "." ++ digits (shownMilliseconds instant) 3 ++
    Text.utf8 "] "

end LeveledLog
