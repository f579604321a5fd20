/-
The gates that a message has to pass.

What the gates answer depends on the settings only: on the switch for output,
on the minimum level, and on the module table, which is looked at only where it
is noted as letting some modules through and not others.  In a call that runs
alone they answer it without changing anything.
-/

import LeveledLog.Proofs.Attempt

namespace LeveledLog

namespace World

def admits (world : World) (name : String) : Bool :=
  !world.get .filterActive || (world.get .modules).allows name

def opens (world : World) (level : Level) (moduleName : Option String) :
    Bool :=
  world.get .enabled && decide (world.get .minLevel ≤ level) &&
    moduleName.all fun name => name == "" || world.admits name

end World

namespace Logger

open Script

variable {world : World}

theorem run_moduleIsEnabled (free : world.configLock.holder = none)
    (name : String) :
    (moduleIsEnabled name).run world =
      { ending := .returned (world.admits name), world := world
        accepted := [] } := by
  unfold World.admits
  rw [moduleIsEnabled, run_load_bind]
  cases world.get .filterActive with
  | false =>
      rfl
  | true =>
      exact run_readUnderLock .modules
        (fun table => pure (table.allows name)) free

theorem run_gates (free : world.configLock.holder = none) (level : Level)
    (moduleName : Option String) :
    (gates level moduleName).run world =
      { ending := .returned (world.opens level moduleName), world := world
        accepted := [] } := by
  unfold gates World.opens
  rw [run_load_bind]
  cases world.get .enabled with
  | false =>
      rfl
  | true =>
      change (load .minLevel >>= _).run world = _
      rw [run_load_bind]
      by_cases reached : world.get .minLevel ≤ level
      · rw [if_pos reached]
        simp only [reached, decide_true, Bool.true_and]
        cases moduleName with
        | none =>
            rfl
        | some name =>
            change (if name = "" then pure true
              else moduleIsEnabled name).run world = _
            by_cases empty : name = ""
            · rw [if_pos empty]
              simp [empty]
            · rw [if_neg empty, run_moduleIsEnabled free]
              simp [empty]
      · rw [if_neg reached]
        simp only [reached, decide_false, Bool.and_false, Bool.false_and]
        rfl

theorem run_wouldLog (free : world.configLock.holder = none)
    (complete : world.initialisation = .complete) (level : Level)
    (moduleName : Option String) :
    (wouldLog level moduleName).run world =
      { ending := .returned (world.opens level moduleName), world := world
        accepted := [] } := by
  rw [wouldLog_eq, run_bind, run_initOnce_of_complete complete]
  change ((gates level moduleName).run world).after [] = _
  rw [Outcome.after_nil, run_gates free]

end Logger

end LeveledLog
