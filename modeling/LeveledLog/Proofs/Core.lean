/-
The core of a logger, and loggers at rest.

Two worlds have the same core if they agree on the minimum level, the module
table and what belongs to these, on how far the environment defaults have been
applied, and on what was and will be answered to lookups.  A peripheral script
that runs alone on a logger at rest keeps its core, leaves it at rest, and
never waits.
-/

import LeveledLog.Proofs.Peripheral

namespace LeveledLog

namespace World

structure SameCore (before after : World) : Prop where
  cells : ∀ cell, cell.isCore = true → after.get cell = before.get cell
  initialisation : after.initialisation = before.initialisation
  environment :
    after.surroundings.environment = before.surroundings.environment
  lookups : after.surroundings.lookups = before.surroundings.lookups

theorem SameCore.refl (world : World) : world.SameCore world :=
  ⟨fun _ _ => rfl, rfl, rfl, rfl⟩

theorem SameCore.trans {first second third : World}
    (earlier : first.SameCore second) (later : second.SameCore third) :
    first.SameCore third where
  cells cell core := (later.cells cell core).trans (earlier.cells cell core)
  initialisation := later.initialisation.trans earlier.initialisation
  environment := later.environment.trans earlier.environment
  lookups := later.lookups.trans earlier.lookups

/-- Nobody holds a lock, and nobody applies the environment defaults. -/
structure AtRest (world : World) : Prop where
  configFree : world.configLock.holder = none
  outputFree : world.outputLock.holder = none
  settled : world.initialisation ≠ .running

theorem atRest_fresh (surroundings : Surroundings) :
    (fresh surroundings).AtRest :=
  ⟨rfl, rfl, fun impossible => by cases impossible⟩

def holderOf (held : Bool) : Option Nat :=
  if held then some 0 else none

structure Peripherally (before : World) (held : HeldLocks) (now : World) :
    Prop where
  config : now.configLock.holder = holderOf held.config
  output : now.outputLock.holder = holderOf held.output
  core : before.SameCore now

end World

namespace Action

theorem perform_acquire {name : LockName} {world : World}
    (free : (world.lock name).holder = none) (thread : Nat) :
    (acquire name).perform thread world =
      some (.silent ()
        (world.setLock name
          { world.lock name with holder := some thread })) := by
  simp only [perform, free]

theorem perform_acquire_eq {name : LockName} {thread : Nat} {world : World}
    {performed : Performed Unit}
    (performs : (acquire name).perform thread world = some performed) :
    (world.lock name).holder = none ∧
      performed = .silent ()
        (world.setLock name
          { world.lock name with holder := some thread }) := by
  cases holder : (world.lock name).holder with
  | none =>
      rw [perform_acquire holder] at performs
      exact ⟨rfl, (Option.some.inj performs).symm⟩
  | some other =>
      simp only [perform, holder] at performs
      cases performs

theorem perform_begin_of_complete {world : World}
    (complete : world.initialisation = .complete) (thread : Nat) :
    beginInitialisation.perform thread world =
      some (.silent false world) := by
  simp only [perform, complete]

theorem perform_begin_eq {thread : Nat} {world : World}
    {performed : Performed Bool}
    (performs : beginInitialisation.perform thread world = some performed) :
    world.initialisation = .pending ∧
        performed = .silent true { world with initialisation := .running } ∨
      world.initialisation = .complete ∧ performed = .silent false world := by
  cases state : world.initialisation with
  | pending =>
      simp only [perform, state] at performs
      exact .inl ⟨rfl, (Option.some.inj performs).symm⟩
  | running =>
      simp only [perform, state] at performs
      cases performs
  | complete =>
      rw [perform_begin_of_complete state] at performs
      exact .inr ⟨rfl, (Option.some.inj performs).symm⟩

theorem perform_external {action : Action} (outside : action.isExternal = true)
    (thread : Nat) (world : World) :
    ∃ performed, action.perform thread world = some performed ∧
      performed.world.settings = world.settings ∧
      performed.world.configLock = world.configLock ∧
      performed.world.outputLock = world.outputLock ∧
      performed.world.initialisation = world.initialisation ∧
      performed.world.surroundings.environment =
        world.surroundings.environment ∧
      performed.world.surroundings.lookups = world.surroundings.lookups := by
  cases action with
  | load | store | acquire | release | beginInitialisation
  | endInitialisation | lookup =>
      cases outside
  | deliver destination bytes =>
      refine ⟨_, rfl, ?_⟩
      cases destination with
      | standard =>
          exact ⟨rfl, rfl, rfl, rfl, rfl, rfl⟩
      | sink name =>
          simp only [callDestination, Surroundings.call]
          split
          · simp
          · simp [Surroundings.arm]
  | readClock | readHost | setClock | arm | collect | takeFacade =>
      exact ⟨_, rfl, rfl, rfl, rfl, rfl, rfl, rfl⟩

end Action

private theorem PeripheralMove.external_same {held later : HeldLocks}
    {action : Action} {result : action.Result}
    (move : PeripheralMove held action result later)
    (outside : action.isExternal = true) :
    later = held := by
  cases move with
  | load | external =>
      rfl
  | store | acquireConfig | releaseConfig | acquireOutput | releaseOutput =>
      cases outside

/-- The peripheral moves keep locks as noted and the core as it was. -/
theorem Discipline.peripheral_keeps (before : World) :
    Discipline.peripheral.Keeps
      fun held now _ => before.Peripherally held now := by
  intro held action now accepted kept possible
  obtain ⟨config, output, core⟩ := kept
  by_cases outside : action.isExternal = true
  · obtain ⟨performed, performs, settings, configLock, outputLock,
      initialisation, environment, lookups⟩ :=
      Action.perform_external outside 0 now
    refine ⟨performed, performs, trivial, ?_⟩
    intro later move
    rw [move.external_same outside]
    refine ⟨by rw [configLock, config], by rw [outputLock, output],
      core.trans ⟨?_, initialisation, environment, lookups⟩⟩
    intro cell _
    simp only [World.get, settings]
  -- An action that is not allowed has no move for any of its results.
  cases action with
  | load cell =>
      refine ⟨_, rfl, trivial, ?_⟩
      intro later move
      cases move with
      | load =>
          exact ⟨config, output, core⟩
      | external _ _ _ outside =>
          cases outside
  | store cell value =>
      refine ⟨_, rfl, trivial, ?_⟩
      intro later move
      cases move with
      | store _ _ _ peripheral =>
          refine ⟨config, output, core.trans ⟨?_, rfl, rfl, rfl⟩⟩
          intro read isCore
          apply World.get_set_of_ne
          intro same
          rw [same, peripheral] at isCore
          cases isCore
      | external _ _ _ outside =>
          cases outside
  | acquire name =>
      obtain ⟨later, move⟩ := possible () trivial
      cases move with
      | external _ _ _ outside =>
          cases outside
      | acquireConfig held =>
          have free : (now.lock .config).holder = none := config
          refine ⟨_, Action.perform_acquire free 0, trivial, ?_⟩
          intro later move
          cases move with
          | external _ _ _ outside =>
              cases outside
          | acquireConfig =>
              exact ⟨rfl, output, core.trans ⟨fun _ _ => rfl, rfl, rfl, rfl⟩⟩
      | acquireOutput =>
          have free : (now.lock .output).holder = none := output
          refine ⟨_, Action.perform_acquire free 0, trivial, ?_⟩
          intro later move
          cases move with
          | external _ _ _ outside =>
              cases outside
          | acquireOutput =>
              exact ⟨config, rfl, core.trans ⟨fun _ _ => rfl, rfl, rfl, rfl⟩⟩
  | release name panicked =>
      refine ⟨_, rfl, trivial, ?_⟩
      intro later move
      cases move with
      | external _ _ _ outside =>
          cases outside
      | releaseConfig =>
          exact ⟨rfl, output, core.trans ⟨fun _ _ => rfl, rfl, rfl, rfl⟩⟩
      | releaseOutput =>
          exact ⟨config, rfl, core.trans ⟨fun _ _ => rfl, rfl, rfl, rfl⟩⟩
  | beginInitialisation =>
      obtain ⟨_, move⟩ := possible true trivial
      cases move with
      | external _ _ _ outside =>
          cases outside
  | endInitialisation complete =>
      obtain ⟨_, move⟩ := possible () trivial
      cases move with
      | external _ _ _ outside =>
          cases outside
  | lookup asked =>
      obtain ⟨_, move⟩ := possible .unset trivial
      cases move with
      | external _ _ _ outside =>
          cases outside
  | deliver | readClock | readHost | setClock | arm | collect | takeFacade =>
      exact absurd rfl outside

theorem Script.run_readUnderLock {α : Type} (cell : Cell)
    (continuation : cell.Value → Script α) {world : World}
    (free : world.configLock.holder = none) :
    (do
      perform (.acquire .config)
      let value ← load cell
      perform (.release .config false)
      continuation value : Script α).run world =
      (continuation (world.get cell)).run world := by
  rcases world with
    ⟨settings, ⟨holder, poisoned⟩, outputLock, initialisation, surroundings⟩
  change holder = none at free
  subst free
  cases poisoned with
  | false | true =>
      rfl

theorem Script.Peripheral.run {α : Type} {script : Script α}
    (peripheral : script.Peripheral false) {world : World}
    (rest : world.AtRest) :
    (script.run world).world.AtRest ∧
      world.SameCore (script.run world).world ∧
      (script.run world).ending ≠ .waiting := by
  obtain ⟨later, kept, right⟩ :=
    Script.Follows.run (Discipline.peripheral_keeps world) peripheral []
      ⟨rest.configFree, rest.outputFree, .refl world⟩
  have free : later = { config := false, output := false } := by
    revert right
    cases (script.run world).ending with
    | returned value =>
        exact id
    | panicked text =>
        exact id
    | waiting =>
        exact False.elim
  subst free
  refine ⟨⟨kept.config, kept.output, ?_⟩, kept.core, ?_⟩
  · rw [kept.core.initialisation]
    exact rest.settled
  · intro waiting
    rw [waiting] at right
    exact right

end LeveledLog
