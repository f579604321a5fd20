/-
Reading a timestamp back.

A timestamp is a row of numbers, each written in its width behind a mark.
Reading the row back gives the numbers, and these tell the instant: the date
and the time that show it, and its millisecond.  Only a year that four digits
cannot write is lost, and only itself.
-/

import LeveledLog.Proofs.CivilDates
import LeveledLog.Proofs.Numerals
import Mathlib.Data.List.Basic

namespace LeveledLog

open Calendar

namespace Timestamp

/-! ### Numbers in a row -/

/-- What stands before each number of a timestamp, and its width. -/
def layout : List (String × Nat) :=
  [("[", 4), ("-", 2), ("-", 2), ("T", 2), (":", 2), (":", 2), (".", 3)]

def spell : List (String × Nat) → List Nat → Bytes
  | (mark, width) :: places, number :: numbers =>
      Text.utf8 mark ++ digits number width ++ spell places numbers
  | _, _ => Text.utf8 "] "

def numbers (instant : Instant) : List Nat :=
  [shownYear instant, instant.date.month, instant.date.day, instant.hour,
    instant.minute, instant.second, shownMilliseconds instant]

theorem timestamp_eq (instant : Instant) :
    instant.timestamp = spell layout (numbers instant) := by
  simp only [Instant.timestamp, layout, numbers, spell, List.append_assoc]

/-! ### Reading them back -/

def digit? (byte : UInt8) : Option Nat :=
  if 48 ≤ byte.toNat ∧ byte.toNat ≤ 57 then some (byte.toNat - 48) else none

/-- The number that the next `width` bytes write behind the digits of `value`,
and the bytes that follow. -/
def number? (value : Nat) : (width : Nat) → Bytes → Option (Nat × Bytes)
  | 0, bytes => some (value, bytes)
  | _ + 1, [] => none
  | width + 1, byte :: bytes => do
      let digit ← digit? byte
      number? (value * 10 + digit) width bytes

def read? : List (String × Nat) → Bytes → Option (List Nat)
  | [], bytes => if bytes = Text.utf8 "] " then some [] else none
  | (mark, width) :: places, bytes => do
      let bytes ← (Text.utf8 mark).isPrefixOf? bytes
      let (number, bytes) ← number? 0 width bytes
      let numbers ← read? places bytes
      return number :: numbers

private theorem digit?_eq {digit : Nat} (bound : digit < 10) :
    digit? (48 + digit.toUInt8) = some digit := by
  have all : ∀ digit : Fin 10,
      digit? (48 + digit.val.toUInt8) = some digit.val := by
    decide
  exact all ⟨digit, bound⟩

private theorem number?_digits (value number width : Nat) (rest : Bytes) :
    number? value width (digits number width ++ rest) =
      some (value * 10 ^ width + number % 10 ^ width, rest) := by
  induction width generalizing value with
  | zero =>
      change some (value, rest) = _
      rw [Nat.pow_zero, Nat.mod_one, Nat.mul_one, Nat.add_zero]
  | succ width inductionHypothesis =>
      rw [digits_succ, List.cons_append, number?,
        digit?_eq (Nat.mod_lt _ (by decide))]
      change number? _ width _ = _
      rw [inductionHypothesis, Nat.mod_pow_succ, Nat.pow_succ', Nat.add_mul,
        Nat.mul_assoc, Nat.mul_comm (number / 10 ^ width % 10)]
      congr 2
      omega

theorem read?_spell {places : List (String × Nat)} {written : List Nat}
    (fit : List.Forall₂ (fun place number => number < 10 ^ place.2)
      places written) :
    read? places (spell places written) = some written := by
  induction fit with
  | nil =>
      rfl
  | @cons place number places written narrow _ inductionHypothesis =>
      have marked : (Text.utf8 place.1).isPrefixOf?
          (spell (place :: places) (number :: written)) =
            some (digits number place.2 ++ spell places written) :=
        List.isPrefixOf?_eq_some_iff_append_eq.mpr
          (List.append_assoc _ _ _).symm
      rw [read?, marked]
      change (number? 0 place.2 _).bind _ = _
      rw [number?_digits, Nat.mod_eq_of_lt narrow, Nat.zero_mul,
        Nat.zero_add]
      change (read? places (spell places written)).bind _ = _
      rw [inductionHypothesis]
      rfl

theorem numbers_fit (instant : Instant) :
    List.Forall₂ (fun place number => number < 10 ^ place.2)
      layout (numbers instant) := by
  obtain ⟨⟨_, month, _, _⟩, hour, minute, second⟩ := instant.civilTime_valid
  have day := Date.Valid.day_le instant.civilTime_valid.1
  have year : shownYear instant ≤ 9999 := Nat.min_le_right _ _
  have milliseconds : shownMilliseconds instant ≤ 999 := Nat.min_le_right _ _
  simp only [Instant.civilTime] at *
  simp only [layout, numbers, List.forall₂_cons, List.Forall₂.nil, and_true]
  omega

end Timestamp

theorem Instant.eq_of_of? {seconds : Int} {nanoseconds : Nat}
    {instant : Instant}
    (accepted : Instant.of? seconds nanoseconds = some instant) :
    instant.seconds = seconds ∧ instant.nanoseconds = nanoseconds := by
  rw [of?] at accepted
  split at accepted
  · cases accepted
    exact ⟨rfl, rfl⟩
  · cases accepted

/-- A timestamp is read as the date and the time that count its seconds, and
as its millisecond, which a leap second does not go past.  The date is the one
that there is so many days from 1 January 1970.  A year before 0 is read as 0
and a year after 9999 as 9999, and all else as it is. -/
theorem timestamp_reads_back {seconds : Int} {nanoseconds : Nat}
    {instant : Instant}
    (accepted : Instant.of? seconds nanoseconds = some instant) :
    ∃ year month day hour minute second millisecond : Nat,
      (instant.timestamp.length = 26 ∧
        Timestamp.read? Timestamp.layout instant.timestamp =
          some [year, month, day, hour, minute, second, millisecond]) ∧
      (1 ≤ month ∧ month ≤ 12 ∧ hour < 24 ∧ minute < 60 ∧ second < 60) ∧
      ∃ date : Date,
        (date.Valid ∧
          (∃ days, Date.DaysApart Date.epoch date days ∧
            days * 86400 + hour * 3600 + minute * 60 + second = seconds) ∧
          ∀ time : CivilTime, time.Valid → time.seconds = seconds →
            time =
              { date := date, hour := hour, minute := minute,
                second := second }) ∧
        (0 ≤ date.year → date.year ≤ 9999 →
          date = { year := year, month := month, day := day }) ∧
        (date.year < 0 → year = 0) ∧ (9999 < date.year → year = 9999) ∧
        month = date.month ∧ day = date.day ∧
        millisecond = min (nanoseconds / 1000000) 999 := by
  obtain ⟨rfl, rfl⟩ := Instant.eq_of_of? accepted
  have valid := instant.civilTime_valid
  have days := Date.daysApart Date.epoch_valid valid.1
  rw [Date.dayNumber_epoch, Int.sub_zero] at days
  refine ⟨Timestamp.shownYear instant, instant.date.month, instant.date.day,
    instant.hour, instant.minute, instant.second,
    Timestamp.shownMilliseconds instant,
    ⟨instant.timestamp_length, ?_⟩,
    ⟨valid.1.1, valid.1.2.1, valid.2⟩,
    instant.date, ⟨valid.1, ⟨_, days, instant.civilTime_seconds⟩, ?_⟩,
    ?_, ?_, ?_, rfl, rfl, rfl⟩
  · rw [Timestamp.timestamp_eq]
    exact Timestamp.read?_spell (Timestamp.numbers_fit instant)
  · intro time other counts
    exact Instant.civilTime_unique other counts
  · intro notBefore notAfter
    have year : (Timestamp.shownYear instant : Int) = instant.date.year := by
      unfold Timestamp.shownYear
      omega
    rw [year]
  · intro before
    unfold Timestamp.shownYear
    omega
  · intro after
    unfold Timestamp.shownYear
    omega

/-- The leap second at the end of 2016 is read as the second that it extends,
at its last millisecond. -/
theorem leap_second_reads_back :
    let instant : Instant :=
      { seconds := 1483228799, nanoseconds := 1500000000 }
    Instant.of? 1483228799 1500000000 = some instant ∧
      instant.timestamp = Text.utf8 "[2016-12-31T23:59:59.999] " ∧
      ∃ year month day hour minute second millisecond : Nat,
        Timestamp.read? Timestamp.layout instant.timestamp =
            some [year, month, day, hour, minute, second, millisecond] ∧
          millisecond = 999 := by
  intro instant
  have accepted : Instant.of? 1483228799 1500000000 = some instant := by
    decide +kernel
  obtain ⟨year, month, day, hour, minute, second, millisecond, ⟨_, reads⟩, _,
    _, _, _, _, _, _, _, last⟩ := timestamp_reads_back accepted
  exact ⟨accepted, by decide +kernel, year, month, day, hour, minute, second,
    millisecond, reads, last⟩

end LeveledLog
