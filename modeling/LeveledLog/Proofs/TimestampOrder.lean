/-
Timestamps are in the order of their instants.

Numbers of one width are in the order of their digits, so rows of numbers that
keep to a layout are in the order of their texts: the first number in which
they differ decides.  As long as the year has at most four digits, the numbers
of a timestamp grow with its instant, down to the millisecond.
-/

import LeveledLog.Proofs.TimestampReading

namespace LeveledLog

open Calendar

namespace Timestamp

/-! ### The order of what is written -/

private theorem digit_lt {first second : Nat} (less : first < second)
    (bound : second < 10) :
    48 + first.toUInt8 < 48 + second.toUInt8 := by
  have all : ∀ first second : Fin 10, first < second →
      48 + first.val.toUInt8 < 48 + second.val.toUInt8 := by
    decide
  exact all ⟨first, by omega⟩ ⟨second, bound⟩ less

private theorem digits_append_lt {first second width : Nat}
    (less : first % 10 ^ width < second % 10 ^ width) (rest other : Bytes) :
    digits first width ++ rest < digits second width ++ other := by
  induction width with
  | zero =>
      rw [Nat.pow_zero, Nat.mod_one, Nat.mod_one] at less
      cases less
  | succ width inductionHypothesis =>
      rw [Nat.mod_pow_succ, Nat.mod_pow_succ] at less
      have firstLow : first % 10 ^ width < 10 ^ width :=
        Nat.mod_lt _ (Nat.pow_pos (by decide))
      have secondLow : second % 10 ^ width < 10 ^ width :=
        Nat.mod_lt _ (Nat.pow_pos (by decide))
      rw [digits_succ, digits_succ, List.cons_append, List.cons_append,
        List.cons_lt_cons_iff]
      rcases Nat.lt_trichotomy (first / 10 ^ width % 10)
        (second / 10 ^ width % 10) with leads | same | trails
      · exact .inl (digit_lt leads (Nat.mod_lt _ (by decide)))
      · rw [same] at less ⊢
        exact .inr ⟨rfl, inductionHypothesis (by omega)⟩
      · have more := Nat.mul_le_mul_left (10 ^ width) trails
        rw [Nat.mul_succ] at more
        omega

private theorem spell_lt {places : List (String × Nat)}
    {first second : List Nat}
    (firstFit : List.Forall₂ (fun place number => number < 10 ^ place.2)
      places first)
    (secondFit : List.Forall₂ (fun place number => number < 10 ^ place.2)
      places second)
    (less : first < second) : spell places first < spell places second := by
  induction firstFit generalizing second with
  | nil =>
      cases secondFit
      exact absurd less (List.lt_irrefl [])
  | @cons place number places first narrow _ inductionHypothesis =>
      cases secondFit with
      | @cons _ other _ second otherNarrow rest =>
          rw [spell, spell, List.append_assoc, List.append_assoc]
          apply List.append_left_lt
          rcases List.cons_lt_cons_iff.mp less with leads | ⟨same, later⟩
          · apply digits_append_lt
            rw [Nat.mod_eq_of_lt narrow, Nat.mod_eq_of_lt otherNarrow]
            exact leads
          · rw [same]
            exact List.append_left_lt (inductionHypothesis rest later)

end Timestamp

/-! ### The order of instants -/

namespace Instant

def HasShownYear (instant : Instant) : Prop :=
  0 ≤ instant.date.year ∧ instant.date.year ≤ 9999

instance (instant : Instant) : Decidable instant.HasShownYear :=
  inferInstanceAs (Decidable (_ ∧ _))

def NotAfter (first second : Instant) : Prop :=
  first.seconds < second.seconds ∨
    first.seconds = second.seconds ∧ first.nanoseconds ≤ second.nanoseconds

instance (first second : Instant) : Decidable (first.NotAfter second) :=
  inferInstanceAs (Decidable (_ ∨ _ ∧ _))

private theorem date_eq_or_before {first second : Instant}
    (less : first.seconds < second.seconds) :
    first.date = second.date ∧ first.secondOfDay < second.secondOfDay ∨
      first.date.Before second.date := by
  by_cases earlier : first.seconds / daySeconds < second.seconds / daySeconds
  · obtain ⟨firstValid, firstNumber⟩ :=
      Date.ofDayNumber_spec (first.seconds / daySeconds)
    obtain ⟨secondValid, secondNumber⟩ :=
      Date.ofDayNumber_spec (second.seconds / daySeconds)
    rw [← firstNumber, ← secondNumber] at earlier
    exact .inr (Date.before_of_dayNumber_lt firstValid secondValid earlier)
  · unfold daySeconds at earlier
    have sameDay : first.seconds / daySeconds =
        second.seconds / daySeconds := by
      unfold daySeconds
      omega
    refine .inl ⟨by rw [date, date, sameDay], ?_⟩
    unfold secondOfDay daySeconds at *
    omega

/-- Within one second only the milliseconds differ. -/
private theorem numbers_of_seconds_eq {first second : Instant}
    (same : first.seconds = second.seconds) :
    ∃ earlier,
      Timestamp.numbers first =
          earlier ++ [Timestamp.shownMilliseconds first] ∧
        Timestamp.numbers second =
          earlier ++ [Timestamp.shownMilliseconds second] := by
  cases first with
  | mk seconds nanoseconds =>
      cases second with
      | mk other otherNanoseconds =>
          change seconds = other at same
          subst same
          exact ⟨(Timestamp.numbers ⟨seconds, nanoseconds⟩).dropLast, rfl, rfl⟩

section Order

variable {first second : Instant}
variable (firstShown : first.HasShownYear) (secondShown : second.HasShownYear)
include firstShown secondShown

private theorem numbers_lt (less : first.seconds < second.seconds) :
    Timestamp.numbers first < Timestamp.numbers second := by
  obtain ⟨firstFrom, firstTo⟩ := firstShown
  obtain ⟨secondFrom, secondTo⟩ := secondShown
  simp only [Timestamp.numbers, List.cons_lt_cons_iff, Timestamp.shownYear,
    Instant.hour, Instant.minute, Instant.second]
  rcases date_eq_or_before less with ⟨sameDate, earlier⟩ | before
  · rw [sameDate]
    omega
  · unfold Date.Before at before
    omega

private theorem timestamp_lt (less : first.seconds < second.seconds) :
    first.timestamp < second.timestamp := by
  rw [Timestamp.timestamp_eq, Timestamp.timestamp_eq]
  exact Timestamp.spell_lt (Timestamp.numbers_fit first)
    (Timestamp.numbers_fit second) (numbers_lt firstShown secondShown less)

theorem timestamp_le (ordered : first.NotAfter second) :
    first.timestamp ≤ second.timestamp := by
  rcases ordered with less | ⟨same, nanoseconds⟩
  · exact List.le_of_lt (timestamp_lt firstShown secondShown less)
  obtain ⟨earlier, firstNumbers, secondNumbers⟩ := numbers_of_seconds_eq same
  have milliseconds : Timestamp.shownMilliseconds first ≤
      Timestamp.shownMilliseconds second := by
    unfold Timestamp.shownMilliseconds Instant.milliseconds
    omega
  rcases Nat.lt_or_eq_of_le milliseconds with less | equal
  · apply List.le_of_lt
    rw [Timestamp.timestamp_eq, Timestamp.timestamp_eq]
    apply Timestamp.spell_lt (Timestamp.numbers_fit first)
      (Timestamp.numbers_fit second)
    rw [firstNumbers, secondNumbers]
    exact List.append_left_lt (List.cons_lt_cons_iff.mpr (.inl less))
  · rw [Timestamp.timestamp_eq, Timestamp.timestamp_eq, firstNumbers,
      secondNumbers, equal]
    exact List.le_refl _

theorem timestamp_eq_iff :
    first.timestamp = second.timestamp ↔
      first.seconds = second.seconds ∧
        Timestamp.shownMilliseconds first =
          Timestamp.shownMilliseconds second := by
  constructor
  · intro same
    have numbers : Timestamp.numbers first = Timestamp.numbers second := by
      have reads := congrArg (Timestamp.read? Timestamp.layout) same
      rw [Timestamp.timestamp_eq, Timestamp.timestamp_eq,
        Timestamp.read?_spell (Timestamp.numbers_fit first),
        Timestamp.read?_spell (Timestamp.numbers_fit second)] at reads
      exact Option.some.inj reads
    refine ⟨?_, Option.some.inj (congrArg List.getLast? numbers)⟩
    rcases Int.lt_trichotomy first.seconds second.seconds with
      less | equal | greater
    · exact absurd (numbers ▸ numbers_lt firstShown secondShown less)
        (List.lt_irrefl _)
    · exact equal
    · exact absurd (numbers ▸ numbers_lt secondShown firstShown greater)
        (List.lt_irrefl _)
  · rintro ⟨seconds, milliseconds⟩
    obtain ⟨earlier, firstNumbers, secondNumbers⟩ :=
      numbers_of_seconds_eq seconds
    rw [Timestamp.timestamp_eq, Timestamp.timestamp_eq, firstNumbers,
      secondNumbers, milliseconds]

end Order

end Instant

end LeveledLog
