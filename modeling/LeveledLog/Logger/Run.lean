/-
Performing scripts with nothing in between.

`Script.run` performs a script alone.  `Outcome.andThen` goes on from an
outcome with another script, and `Outcome.caught` turns a panic into a value;
what `run` does for two scripts in sequence, and for a script whose panic is
caught, is said with them.
-/

import LeveledLog.Logger.Script

namespace LeveledLog

/-- How a script ends: with a value, in a panic, or waiting for something that
only another thread could bring about. -/
inductive Ending (α : Type) where
  | returned (value : α)
  | panicked (text : String)
  | waiting

structure Outcome (α : Type) where
  ending : Ending α
  world : World
  accepted : List Delivery

namespace Outcome

variable {α β : Type}

def after (outcome : Outcome α) (earlier : List Delivery) : Outcome α :=
  { outcome with accepted := earlier ++ outcome.accepted }

def map (function : α → β) (outcome : Outcome α) : Outcome β where
  ending :=
    match outcome.ending with
    | .returned value => .returned (function value)
    | .panicked text => .panicked text
    | .waiting => .waiting
  world := outcome.world
  accepted := outcome.accepted

def caught (outcome : Outcome α) : Outcome (Except String α) where
  ending :=
    match outcome.ending with
    | .returned value => .returned (.ok value)
    | .panicked text => .returned (.error text)
    | .waiting => .waiting
  world := outcome.world
  accepted := outcome.accepted

@[simp] theorem after_nil (outcome : Outcome α) :
    outcome.after [] = outcome := rfl

end Outcome

namespace Script

variable {α β : Type}

/-- Performs a script alone, as the thread with number zero. -/
def run : Script α → World → Outcome α
  | .done value, world =>
      { ending := .returned value, world := world, accepted := [] }
  | .panic text, world =>
      { ending := .panicked text, world := world, accepted := [] }
  | .step action next, world =>
      match action.perform 0 world with
      | none => { ending := .waiting, world := world, accepted := [] }
      | some performed =>
          ((next performed.result).run performed.world).after
            performed.accepted

end Script

namespace Outcome

variable {α β : Type}

def andThen (outcome : Outcome α) (continuation : α → Script β) :
    Outcome β :=
  match outcome.ending with
  | .returned value =>
      ((continuation value).run outcome.world).after outcome.accepted
  | .panicked text =>
      { ending := .panicked text
        world := outcome.world
        accepted := outcome.accepted }
  | .waiting =>
      { ending := .waiting
        world := outcome.world
        accepted := outcome.accepted }

theorem after_andThen (outcome : Outcome α) (earlier : List Delivery)
    (continuation : α → Script β) :
    (outcome.after earlier).andThen continuation =
      (outcome.andThen continuation).after earlier := by
  unfold andThen
  cases ending : outcome.ending with
  | returned value =>
      simp [after, ending]
  | panicked text =>
      simp [after, ending]
  | waiting =>
      simp [after, ending]

theorem after_caught (outcome : Outcome α) (earlier : List Delivery) :
    (outcome.after earlier).caught = outcome.caught.after earlier := rfl

end Outcome

namespace Script

variable {α β : Type}

@[simp] theorem run_pure (value : α) (world : World) :
    (pure value : Script α).run world =
      { ending := .returned value, world := world, accepted := [] } := rfl

@[simp] theorem run_panic (text : String) (world : World) :
    (Script.panic text : Script α).run world =
      { ending := .panicked text, world := world, accepted := [] } := rfl

theorem run_bind (script : Script α) (continuation : α → Script β)
    (world : World) :
    (script >>= continuation).run world =
      (script.run world).andThen continuation := by
  change (script.bind continuation).run world = _
  induction script generalizing world with
  | done value =>
      rfl
  | panic text =>
      rfl
  | step action next inductionHypothesis =>
      simp only [bind, run]
      cases action.perform 0 world with
      | none =>
          rfl
      | some performed =>
          simp only [inductionHypothesis, Outcome.after_andThen]

theorem run_map (function : α → β) (script : Script α) (world : World) :
    (function <$> script).run world = (script.run world).map function := by
  rw [map_eq_pure_bind, run_bind]
  unfold Outcome.andThen Outcome.map
  cases (script.run world).ending with
  | returned value =>
      simp [Outcome.after]
  | panicked text =>
      rfl
  | waiting =>
      rfl

theorem run_perform (action : Action) (world : World) :
    (perform action).run world =
      match action.perform 0 world with
      | none => { ending := .waiting, world := world, accepted := [] }
      | some performed =>
          { ending := .returned performed.result
            world := performed.world
            accepted := performed.accepted } := by
  unfold perform
  rw [run]
  cases action.perform 0 world with
  | none =>
      rfl
  | some performed =>
      simp [run, Outcome.after]

theorem run_attempt (script : Script α) (world : World) :
    script.attempt.run world = (script.run world).caught := by
  induction script generalizing world with
  | done value =>
      rfl
  | panic text =>
      rfl
  | step action next inductionHypothesis =>
      simp only [attempt, run]
      cases action.perform 0 world with
      | none =>
          rfl
      | some performed =>
          simp only [inductionHypothesis, Outcome.after_caught]

end Script

end LeveledLog
