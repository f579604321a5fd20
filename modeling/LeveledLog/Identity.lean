/-
The numbers by which a process and its threads are known.

A process has one number for its whole life.  The system numbers its live
threads: no two of them share a number, and a thread keeps its number while it
lives.  Which numbers these are is left to the system, and a census of the
threads does not depend on it.
-/

import LeveledLog.Surroundings

namespace LeveledLog

structure Census where
  distinct : Nat
  stable : Bool
  processId : UInt32
deriving DecidableEq

/-- The numbers of the live threads, one for each, every time they are
asked. -/
structure ThreadNumbers where
  asked : Nat → List UInt64
  distinct : (asked 0).Nodup
  kept : ∀ time, asked time = asked 0

def ThreadNumbers.census (numbers : ThreadNumbers) (host : Host) : Census where
  distinct := (numbers.asked 0).eraseDups.length
  stable := numbers.asked 0 == numbers.asked 1
  processId := host.processId

/-- The census of the first thread and a number of others. -/
def Host.census (host : Host) (others : Nat) : Census where
  distinct := others + 1
  stable := true
  processId := host.processId

private theorem eraseDups_of_nodup {numbers : List UInt64}
    (distinct : numbers.Nodup) : numbers.eraseDups = numbers := by
  induction numbers with
  | nil =>
      rfl
  | cons number numbers inductionHypothesis =>
      obtain ⟨fresh, distinct⟩ := List.nodup_cons.mp distinct
      have others : (numbers.filter fun other => !other == number) =
          numbers := by
        apply List.filter_eq_self.mpr
        intro other member
        have differs : other ≠ number := by
          intro same
          exact fresh (same ▸ member)
        simp [differs]
      rw [List.eraseDups_cons, others, inductionHypothesis distinct]

/-- However the system numbers the threads, their census is the same. -/
theorem ThreadNumbers.census_eq (numbers : ThreadNumbers) (host : Host)
    {others : Nat} (threads : (numbers.asked 0).length = others + 1) :
    numbers.census host = host.census others := by
  unfold census Host.census
  rw [eraseDups_of_nodup numbers.distinct, threads, numbers.kept 1,
    beq_self_eq_true]

end LeveledLog
