/-
What the environment has answered so far.

The answers of an environment stand on tapes from the beginning.  After some
questions, the answers to come are what is left of the tapes, and the answers
given are what has been taken from them.
-/

import LeveledLog.Proofs.Attempt
import Mathlib.Data.List.Nodup

namespace LeveledLog

namespace Tape

variable {α : Type}

def drop : (times : Nat) → Tape α → Tape α
  | 0, tape => tape
  | times + 1, tape => drop times tape.tail

def take : (times : Nat) → Tape α → List α
  | 0, _ => []
  | times + 1, tape => tape.head :: take times tape.tail

private theorem drop_succ (times : Nat) (tape : Tape α) :
    tape.drop (times + 1) = (tape.drop times).tail := by
  induction times generalizing tape with
  | zero =>
      rfl
  | succ times inductionHypothesis =>
      exact inductionHypothesis tape.tail

private theorem take_succ (times : Nat) (tape : Tape α) :
    tape.take (times + 1) = tape.take times ++ [(tape.drop times).head] := by
  induction times generalizing tape with
  | zero =>
      rfl
  | succ times inductionHypothesis =>
      rw [take, inductionHypothesis tape.tail]
      rfl

theorem drop_constant (answer : α) (times : Nat) :
    (constant answer).drop times = constant answer := by
  induction times with
  | zero =>
      rfl
  | succ times inductionHypothesis =>
      exact inductionHypothesis

end Tape

namespace Environment

def drop (environment : Environment) (asked : List Variable) :
    Environment :=
  fun other => (environment other).drop (asked.count other)

def readings (environment : Environment) (asked : List Variable)
    (about : Variable) : List Reading :=
  (environment about).take (asked.count about)

theorem afterQuestions_drop (environment : Environment)
    (asked : List Variable) {questions : List Variable}
    (different : questions.Nodup) :
    (environment.drop asked).afterQuestions questions =
      environment.drop (asked ++ questions) := by
  funext other
  simp only [afterQuestions, drop, List.count_append]
  by_cases member : other ∈ questions
  · rw [if_pos member, List.count_eq_one_of_mem different member,
      Tape.drop_succ]
  · rw [if_neg member, List.count_eq_zero_of_not_mem member, Nat.add_zero]

theorem readings_append (environment : Environment) (asked : List Variable)
    {questions : List Variable} (different : questions.Nodup)
    (about : Variable) :
    environment.readings (asked ++ questions) about =
      environment.readings asked about ++
        if about ∈ questions then [(environment.drop asked about).head]
        else [] := by
  simp only [readings, drop, List.count_append]
  by_cases member : about ∈ questions
  · rw [if_pos member, List.count_eq_one_of_mem different member,
      Tape.take_succ]
  · rw [if_neg member, List.count_eq_zero_of_not_mem member, Nat.add_zero,
      List.append_nil]

def NeverPanics (environment : Environment) : Prop :=
  ∀ asked times, ((environment asked).drop times).head.fault? = none

theorem neverPanics_constant {answers : Variable → Reading}
    (calm : ∀ asked, (answers asked).fault? = none) :
    NeverPanics fun asked => Tape.constant (answers asked) := by
  intro asked times
  induction times with
  | zero =>
      exact calm asked
  | succ times inductionHypothesis =>
      exact inductionHypothesis

theorem NeverPanics.lookup {surroundings : Surroundings}
    (calm : surroundings.environment.NeverPanics) (asked : Variable) :
    (surroundings.lookup asked).2.environment.NeverPanics := by
  intro about times
  simp only [Surroundings.lookup]
  split
  · exact calm asked (times + 1)
  · exact calm about times

theorem NeverPanics.now {environment : Environment}
    (calm : environment.NeverPanics) :
    ∀ about, (environment about).head.fault? = none :=
  fun about => calm about 0

end Environment

namespace Claims

variable (claims : Claims) (environment : Environment)

theorem questions_nodup : (claims.questions environment).Nodup := by
  unfold questions
  cases claims.level with
  | true | false =>
      cases claims.asksModules environment with
      | true | false =>
          decide

theorem level_mem_questions :
    .level ∈ claims.questions environment ↔ claims.level = false := by
  unfold questions
  cases claims.level with
  | true | false =>
      cases claims.asksModules environment with
      | true | false =>
          decide

theorem levelReading_calm
    (calm : ∀ asked, (environment asked).head.fault? = none) :
    (claims.levelReading environment).fault? = none := by
  unfold levelReading
  split
  · rfl
  · exact calm .level

theorem fault?_eq_none
    (calm : ∀ asked, (environment asked).head.fault? = none) :
    claims.fault? environment = none := by
  have level := claims.levelReading_calm environment calm
  have modules : (claims.modulesReading environment).fault? = none := by
    unfold modulesReading
    split
    · exact calm .modules
    · rfl
  rw [fault?, level, modules]
  rfl

end Claims

end LeveledLog
