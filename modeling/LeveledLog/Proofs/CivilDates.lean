/-
Dates and days count each other.

Every day falls on a date that there is, and counting the days up to that date
gives the day back.  A later date has a greater number, so no two dates share
one; the date after a date is one day further.  An instant is hence shown by
one date and one time of the day and by no others.
-/

import LeveledLog.Time.Instant
import Mathlib.Algebra.GroupWithZero.Nat
import Mathlib.Logic.Function.Iterate

namespace LeveledLog

namespace Calendar

/-! ### The months of a year -/

private theorem foldl_add_eq (numbers : List Nat) (start : Nat) :
    numbers.foldl Nat.add start = start + numbers.sum := by
  induction numbers generalizing start with
  | nil =>
      rfl
  | cons number numbers inductionHypothesis =>
      rw [List.foldl_cons, inductionHypothesis, List.sum_cons]
      exact Nat.add_assoc _ _ _

private theorem monthLengths_length (leap : Bool) :
    (monthLengths leap).length = 12 :=
  rfl

private theorem monthLengths_sum (leap : Bool) :
    (monthLengths leap).sum = if leap then 366 else 365 := by
  cases leap with
  | false | true =>
      rfl

private theorem sum_take_succ (lengths : List Nat) (index : Nat) :
    (lengths.take (index + 1)).sum =
      (lengths.take index).sum + lengths.getD index 0 := by
  induction lengths generalizing index with
  | nil =>
      simp
  | cons length lengths inductionHypothesis =>
      cases index with
      | zero =>
          simp
      | succ index =>
          rw [List.take_succ_cons, List.sum_cons, inductionHypothesis,
            List.take_succ_cons, List.sum_cons, List.getD_cons_succ,
            Nat.add_assoc]

private theorem sum_take_add_le (lengths : List Nat) {index later : Nat}
    (less : index < later) :
    (lengths.take index).sum + lengths.getD index 0 ≤
      (lengths.take later).sum := by
  induction less with
  | refl =>
      exact Nat.le_of_eq (sum_take_succ lengths index).symm
  | step _ inductionHypothesis =>
      rw [sum_take_succ]
      exact Nat.le_trans inductionHypothesis (Nat.le_add_right _ _)

theorem monthDay_spec (month : Nat) {lengths : List Nat} {day : Nat}
    (inside : day < lengths.sum) :
    ∃ index offset, index < lengths.length ∧
      offset < lengths.getD index 0 ∧
      monthDay month lengths day = (month + index, offset + 1) ∧
      (lengths.take index).sum + offset = day := by
  induction lengths generalizing month day with
  | nil =>
      cases inside
  | cons length lengths inductionHypothesis =>
      rw [monthDay]
      by_cases here : day < length
      · rw [if_pos here]
        exact ⟨0, day, Nat.succ_pos _, here, rfl, Nat.zero_add day⟩
      · rw [if_neg here]
        rw [List.sum_cons] at inside
        have less : day - length < lengths.sum := by omega
        obtain ⟨index, offset, bound, short, found, count⟩ :=
          inductionHypothesis (month + 1) less
        refine ⟨index + 1, offset, Nat.succ_lt_succ bound, short, ?_, ?_⟩
        · rw [found, Nat.add_assoc, Nat.add_comm 1 index]
        · rw [List.take_succ_cons, List.sum_cons]
          omega

/-! ### The years before a year -/

theorem isLeap_iff (year : Int) :
    isLeap year = true ↔
      year % 4 = 0 ∧ (year % 100 ≠ 0 ∨ year % 400 = 0) := by
  simp [isLeap]

private theorem daysBeforeYear_succ (year : Int) :
    daysBeforeYear (year + 1) =
      daysBeforeYear year + ((monthLengths (isLeap year)).sum : Nat) := by
  have leap := isLeap_iff year
  rw [monthLengths_sum]
  unfold daysBeforeYear
  cases shown : isLeap year with
  | false =>
      rw [shown] at leap
      simp only [Bool.false_eq_true, false_iff] at leap
      simp only [Bool.false_eq_true, if_false]
      omega
  | true =>
      rw [shown] at leap
      simp only [true_iff] at leap
      simp only [if_true]
      omega

private theorem daysBeforeYear_mono {first second : Int}
    (ordered : first ≤ second) :
    daysBeforeYear first ≤ daysBeforeYear second := by
  simp only [daysBeforeYear]
  omega

section Cycle

variable (cycle : Int) {century four single : Nat}
variable (centuries : century ≤ 3) (fours : four ≤ 24) (singles : single ≤ 3)
include centuries fours singles

/-- The days before a year that is given by its place in the cycles of 400,
100, 4 and 1 years. -/
theorem daysBeforeYear_cycle :
    daysBeforeYear
        (cycle * 400 + ((century * 100 + four * 4 + single : Nat) : Int) + 1) =
      cycle * 146097 + century * 36524 + four * 1461 + single * 365 := by
  unfold daysBeforeYear
  push_cast
  omega

private theorem isLeap_cycle :
    isLeap
        (cycle * 400 + ((century * 100 + four * 4 + single : Nat) : Int) + 1) =
        true ↔
      single = 3 ∧ (four ≠ 24 ∨ century = 3) := by
  rw [isLeap_iff]
  push_cast
  omega

end Cycle

/-! ### Dates and the numbers of their days -/

namespace Date

def daysBeforeMonth (date : Date) : Nat :=
  ((monthLengths (isLeap date.year)).take (date.month - 1)).sum

def monthLength (date : Date) : Nat :=
  (monthLengths (isLeap date.year)).getD (date.month - 1) 0

theorem dayNumber_eq (date : Date) :
    date.dayNumber =
      daysBeforeYear date.year + date.daysBeforeMonth + date.day - 1
        - epochDay := by
  rw [dayNumber, foldl_add_eq, Nat.zero_add]
  rfl

/-- The day of a number is on a date that there is, which has this number. -/
theorem ofDayNumber_spec (number : Int) :
    (ofDayNumber number).Valid ∧ (ofDayNumber number).dayNumber = number := by
  let fromYearOne := number + epochDay
  let cycle := fromYearOne / 146097
  let inCycle := (fromYearOne % 146097).toNat
  let century := min (inCycle / 36524) 3
  let inCentury := inCycle - century * 36524
  let four := inCentury / 1461
  let inFour := inCentury - four * 1461
  let single := min (inFour / 365) 3
  let inYear := inFour - single * 365
  let year : Int :=
    cycle * 400 + ((century * 100 + four * 4 + single : Nat) : Int) + 1
  have centuries : century ≤ 3 := Nat.min_le_right _ _
  have singles : single ≤ 3 := Nat.min_le_right _ _
  have fours : four ≤ 24 := by omega
  have past : daysBeforeYear year =
      cycle * 146097 + century * 36524 + four * 1461 + single * 365 :=
    daysBeforeYear_cycle cycle centuries fours singles
  have leap : isLeap year = true ↔ single = 3 ∧ (four ≠ 24 ∨ century = 3) :=
    isLeap_cycle cycle centuries fours singles
  have whole : daysBeforeYear year + inYear = number + epochDay := by
    rw [past]
    omega
  -- Only the last year of a cycle has room for a day 366.
  have inside : inYear < (monthLengths (isLeap year)).sum := by
    rw [monthLengths_sum]
    split
    · omega
    · rename_i common
      rw [leap] at common
      omega
  obtain ⟨index, offset, bound, short, found, count⟩ :=
    monthDay_spec 1 inside
  have date : ofDayNumber number =
      { year := year, month := 1 + index, day := offset + 1 } := by
    have shown : ofDayNumber number =
        { year := year
          month := (monthDay 1 (monthLengths (isLeap year)) inYear).1
          day := (monthDay 1 (monthLengths (isLeap year)) inYear).2 } := rfl
    rw [shown, found]
  have place : 1 + index - 1 = index := Nat.add_sub_cancel_left 1 index
  rw [monthLengths_length] at bound
  rw [date]
  constructor
  · refine ⟨Nat.le_add_right 1 index, ?_, Nat.le_add_left 1 offset, ?_⟩
    · change 1 + index ≤ 12
      omega
    · change offset + 1 ≤ (monthLengths (isLeap year)).getD (1 + index - 1) 0
      rw [place]
      exact short
  · rw [dayNumber_eq, daysBeforeMonth]
    change daysBeforeYear year +
      (((monthLengths (isLeap year)).take (1 + index - 1)).sum : Nat) +
        ((offset + 1 : Nat) : Int) - 1 - epochDay = number
    rw [place]
    omega

def Before (first second : Date) : Prop :=
  first.year < second.year ∨
    first.year = second.year ∧
      (first.month < second.month ∨
        first.month = second.month ∧ first.day < second.day)

private theorem before_trichotomous (first second : Date) :
    first.Before second ∨ first = second ∨ second.Before first := by
  unfold Before
  rw [mk.injEq]
  omega

private theorem Valid.inYear {date : Date} (valid : date.Valid) :
    date.daysBeforeMonth + date.day ≤
      (monthLengths (isLeap date.year)).sum := by
  have later : date.month - 1 < 12 := by
    have bound := valid.2.1
    omega
  have months := sum_take_add_le (monthLengths (isLeap date.year)) later
  rw [← monthLengths_length (isLeap date.year), List.take_length] at months
  exact Nat.le_trans (Nat.add_le_add_left valid.2.2.2 _) months

private theorem dayNumber_lt {first second : Date} (firstValid : first.Valid)
    (secondValid : second.Valid) (before : first.Before second) :
    first.dayNumber < second.dayNumber := by
  have inYear := firstValid.inYear
  obtain ⟨firstMonth, _, _, firstDay⟩ := firstValid
  obtain ⟨_, _, secondDay, _⟩ := secondValid
  rw [dayNumber_eq, dayNumber_eq]
  rcases before with years | ⟨year, months | ⟨month, days⟩⟩
  · have ordered := daysBeforeYear_mono (Int.add_one_le_of_lt years)
    rw [daysBeforeYear_succ] at ordered
    omega
  · have ordered := sum_take_add_le (monthLengths (isLeap first.year))
      (show first.month - 1 < second.month - 1 by omega)
    rw [daysBeforeMonth, daysBeforeMonth, ← year]
    omega
  · rw [daysBeforeMonth, daysBeforeMonth, ← year, ← month]
    omega

private theorem eq_of_dayNumber_eq {first second : Date}
    (firstValid : first.Valid) (secondValid : second.Valid)
    (same : first.dayNumber = second.dayNumber) : first = second := by
  rcases before_trichotomous first second with before | equal | after
  · have less := dayNumber_lt firstValid secondValid before
    omega
  · exact equal
  · have less := dayNumber_lt secondValid firstValid after
    omega

theorem before_of_dayNumber_lt {first second : Date}
    (firstValid : first.Valid) (secondValid : second.Valid)
    (less : first.dayNumber < second.dayNumber) : first.Before second := by
  rcases before_trichotomous first second with before | equal | after
  · exact before
  · rw [equal] at less
    omega
  · have greater := dayNumber_lt secondValid firstValid after
    omega

/-! ### From a date to the next -/

def next (date : Date) : Date :=
  if date.day < date.monthLength then
    { date with day := date.day + 1 }
  else if date.month < 12 then
    { date with month := date.month + 1, day := 1 }
  else
    { year := date.year + 1, month := 1, day := 1 }

private theorem monthLengths_positive {leap : Bool} {index : Nat}
    (bound : index < 12) : 1 ≤ (monthLengths leap).getD index 0 := by
  have all : ∀ leap : Bool, ∀ index : Fin 12,
      1 ≤ (monthLengths leap).getD index 0 := by
    decide
  exact all leap ⟨index, bound⟩

private theorem monthLengths_le (leap : Bool) (index : Nat) :
    (monthLengths leap).getD index 0 ≤ 31 := by
  have all : ∀ leap : Bool, ∀ length ∈ monthLengths leap, length ≤ 31 := by
    decide
  rw [List.getD_eq_getElem?_getD]
  cases found : (monthLengths leap)[index]? with
  | none =>
      exact Nat.zero_le 31
  | some length =>
      exact all leap length (List.mem_of_getElem? found)

theorem Valid.day_le {date : Date} (valid : date.Valid) : date.day ≤ 31 :=
  Nat.le_trans valid.2.2.2 (monthLengths_le _ _)

theorem next_spec {date : Date} (valid : date.Valid) :
    date.next.Valid ∧ date.next.dayNumber = date.dayNumber + 1 := by
  obtain ⟨fromFirst, upToLast, _, short⟩ := valid
  have short : date.day ≤ date.monthLength := short
  have month : date.month - 1 + 1 = date.month := Nat.sub_add_cancel fromFirst
  have further :=
    sum_take_succ (monthLengths (isLeap date.year)) (date.month - 1)
  rw [month] at further
  by_cases sameMonth : date.day < date.monthLength
  · rw [next, if_pos sameMonth]
    refine ⟨⟨fromFirst, upToLast, Nat.le_add_left 1 _, sameMonth⟩, ?_⟩
    simp only [dayNumber_eq, daysBeforeMonth]
    omega
  have lastDay : date.day = date.monthLength := by omega
  by_cases sameYear : date.month < 12
  · rw [next, if_neg sameMonth, if_pos sameYear]
    refine ⟨⟨Nat.le_add_left 1 _, sameYear, Nat.le_refl 1,
      monthLengths_positive sameYear⟩, ?_⟩
    simp only [dayNumber_eq, daysBeforeMonth, Nat.add_sub_cancel]
    rw [further, lastDay, monthLength]
    omega
  · have lastMonth : date.month = 12 := by omega
    rw [next, if_neg sameMonth, if_neg sameYear]
    refine ⟨⟨Nat.le_refl 1, Nat.le_add_left 1 11, Nat.le_refl 1,
      monthLengths_positive (Nat.zero_lt_succ 11)⟩, ?_⟩
    have all := List.take_length (l := monthLengths (isLeap date.year))
    rw [monthLengths_length, ← lastMonth] at all
    rw [all] at further
    simp only [dayNumber_eq, daysBeforeMonth]
    rw [daysBeforeYear_succ, further, lastDay, monthLength]
    simp
    omega

/-- Going on from date to date for some days, or back for as many if their
number is negative, leads from the first date to the second. -/
def DaysApart (first second : Date) (days : Int) : Prop :=
  next^[days.toNat] first = next^[(-days).toNat] second

private theorem iterate_next {date : Date} (valid : date.Valid) (days : Nat) :
    (next^[days] date).Valid ∧
      (next^[days] date).dayNumber = date.dayNumber + days := by
  induction days with
  | zero =>
      exact ⟨valid, (Int.add_zero _).symm⟩
  | succ days inductionHypothesis =>
      obtain ⟨reached, number⟩ := inductionHypothesis
      obtain ⟨validNext, numberNext⟩ := next_spec reached
      rw [Function.iterate_succ_apply']
      refine ⟨validNext, ?_⟩
      rw [numberNext, number]
      omega

/-- The numbers of two dates differ by the days from one to the other. -/
theorem daysApart {first second : Date} (firstValid : first.Valid)
    (secondValid : second.Valid) :
    DaysApart first second (second.dayNumber - first.dayNumber) := by
  obtain ⟨forth, numberForth⟩ := iterate_next firstValid
    (second.dayNumber - first.dayNumber).toNat
  obtain ⟨back, numberBack⟩ := iterate_next secondValid
    (-(second.dayNumber - first.dayNumber)).toNat
  apply eq_of_dayNumber_eq forth back
  omega

def epoch : Date where
  year := 1970
  month := 1
  day := 1

theorem epoch_valid : epoch.Valid := by
  decide

theorem dayNumber_epoch : epoch.dayNumber = 0 := by
  decide

end Date

@[ext]
structure CivilTime where
  date : Date
  hour : Nat
  minute : Nat
  second : Nat
deriving DecidableEq

namespace CivilTime

def Valid (time : CivilTime) : Prop :=
  time.date.Valid ∧ time.hour < 24 ∧ time.minute < 60 ∧ time.second < 60

def seconds (time : CivilTime) : Int :=
  time.date.dayNumber * 86400 + time.hour * 3600 + time.minute * 60
    + time.second

private theorem eq_of_seconds_eq {first second : CivilTime}
    (firstValid : first.Valid) (secondValid : second.Valid)
    (same : first.seconds = second.seconds) : first = second := by
  obtain ⟨firstDate, firstHour, firstMinute, firstSecond⟩ := firstValid
  obtain ⟨secondDate, secondHour, secondMinute, secondSecond⟩ := secondValid
  unfold seconds at same
  have number : first.date.dayNumber = second.date.dayNumber := by omega
  rw [number] at same
  exact CivilTime.ext
    (Date.eq_of_dayNumber_eq firstDate secondDate number)
    (by omega) (by omega) (by omega)

end CivilTime

end Calendar

open Calendar

/-! ### The time that shows an instant -/

namespace Instant

def civilTime (instant : Instant) : CivilTime where
  date := instant.date
  hour := instant.hour
  minute := instant.minute
  second := instant.second

theorem civilTime_valid (instant : Instant) : instant.civilTime.Valid := by
  refine ⟨(Date.ofDayNumber_spec _).1, ?_, ?_, ?_⟩
  · change instant.secondOfDay / 3600 < 24
    unfold secondOfDay daySeconds
    omega
  · exact Nat.mod_lt _ (by decide)
  · exact Nat.mod_lt _ (by decide)

theorem civilTime_seconds (instant : Instant) :
    instant.civilTime.seconds = instant.seconds := by
  have number : instant.date.dayNumber = instant.seconds / 86400 :=
    (Date.ofDayNumber_spec _).2
  simp only [CivilTime.seconds, civilTime, number, hour, minute, second,
    secondOfDay, daySeconds]
  omega

/-- There is no other time that counts the seconds of an instant. -/
theorem civilTime_unique {instant : Instant} {time : CivilTime}
    (valid : time.Valid) (counts : time.seconds = instant.seconds) :
    time = instant.civilTime :=
  CivilTime.eq_of_seconds_eq valid instant.civilTime_valid
    (counts.trans instant.civilTime_seconds.symm)

end Instant

end LeveledLog
