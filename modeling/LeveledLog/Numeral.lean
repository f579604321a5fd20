/-
Numerals of 64-bit words, written backwards into a buffer of fixed size.

A `Backfill` buffer is filled from its end towards its start and refuses a
byte when no place is left.  `decimal` and `hexadecimal` take buffers of 20
and 18 places; the second keeps two of them for its leading `0x`.  A numeral
has no leading zero digit, except the numeral of zero, which is one digit.
-/

import LeveledLog.Text.Bytes

namespace LeveledLog

/-- A buffer that is filled from its end: the places still free before the
bytes written so far. -/
structure Backfill where
  room : Nat
  filled : Bytes
deriving DecidableEq

namespace Backfill

def put? (buffer : Backfill) (byte : UInt8) : Option Backfill :=
  match buffer.room with
  | 0 => none
  | room + 1 => some { room := room, filled := byte :: buffer.filled }

end Backfill

namespace Numeral

/-- How a base takes a word apart: its last digit as a byte, and the word
without its last digit. -/
structure Base where
  lastDigit : UInt64 → UInt8
  dropLast : UInt64 → UInt64

def ten : Base where
  lastDigit word := 48 + (word % 10).toUInt8
  dropLast word := word / 10

def nibbleByte (nibble : UInt64) : UInt8 :=
  if nibble < 10 then 48 + nibble.toUInt8 else 87 + nibble.toUInt8

def sixteen : Base where
  lastDigit word := nibbleByte (word &&& 0xF)
  dropLast word := word >>> 4

/-- Writes the digits of `word`, the last one first, into the `room` places
before `filled`.  The numeral is complete when no digit is left, and it is
refused when no place is left. -/
def fill? (base : Base) : (room : Nat) → (word : UInt64) → (filled : Bytes) →
    Option Backfill
  | 0, _, _ => none
  | room + 1, word, filled =>
      let filled := base.lastDigit word :: filled
      let word := base.dropLast word
      if word == 0 then
        some { room := room, filled := filled }
      else
        fill? base room word filled

def decimalSize : Nat := 20

/-- Places of the hexadecimal buffer: sixteen digits and `0x`. -/
def hexadecimalSize : Nat := 18

def decimal? (word : UInt64) : Option Backfill :=
  fill? ten decimalSize word []

def hexadecimal? (word : UInt64) : Option Backfill := do
  let digits ← fill? sixteen hexadecimalSize word []
  let marked ← digits.put? 120
  marked.put? 48

def decimal (word : UInt64) : Bytes :=
  ((decimal? word).map Backfill.filled).getD []

def hexadecimal (word : UInt64) : Bytes :=
  ((hexadecimal? word).map Backfill.filled).getD []

end Numeral

end LeveledLog
