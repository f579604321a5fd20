/-
The atomic actions that calls on a logger are made of.

Each action reads or changes one thing: a cell, a lock, the state of the
initialisation, or something of the surroundings.  `Action.perform` says what
one action does, and whether it can be done at all: a lock that is held cannot
be taken, and an initialisation that another thread runs has to be waited for.
-/

import LeveledLog.Logger.State
import LeveledLog.Output.Retry

namespace LeveledLog

inductive Action where
  | load (cell : Cell)
  | store (cell : Cell) (value : cell.Value)
  | acquire (lock : LockName)
  | release (lock : LockName) (panicked : Bool)
  /-- Starts the initialisation unless it is complete; tells whether it was
  started. -/
  | beginInitialisation
  | endInitialisation (complete : Bool)
  | lookup (asked : Variable)
  | deliver (destination : Destination) (bytes : Bytes)
  | readClock
  | readHost
  | setClock (time : ClockTime)
  | arm (name : SinkName) (reactions : Tape Reaction)
  | collect (destination : Destination)
  | takeFacade

namespace Action

@[reducible] def Result : Action → Type
  | .load cell => cell.Value
  | .beginInitialisation => Bool
  | .lookup _ => Reading
  | .deliver _ _ => Reaction
  | .readClock => ClockTime
  | .readHost => Host
  | .takeFacade => Bool
  | .store _ _ | .acquire _ | .release _ _ => Unit
  | .endInitialisation _ | .setClock _ | .arm _ _ | .collect _ => Unit

end Action

structure Performed (result : Type) where
  result : result
  world : World
  accepted : List Delivery

def Performed.silent {result : Type} (value : result) (world : World) :
    Performed result where
  result := value
  world := world
  accepted := []

namespace Action

/-- Calls a destination with the bytes of one write.  The standard destination
accepts them and reacts no further; a sink that panics has not accepted
them. -/
def callDestination (world : World) (destination : Destination)
    (bytes : Bytes) : Performed Reaction :=
  match destination with
  | .standard =>
      { result := Reaction.plain
        world := world
        accepted :=
          [world.surroundings.delivery .standard
            (Retry.deliver [] bytes).accepted] }
  | .sink name =>
      let (reaction, surroundings) := world.surroundings.call name
      { result := reaction
        world := { world with surroundings := surroundings }
        accepted :=
          match reaction with
          | .accept _ => [world.surroundings.delivery (.sink name) bytes]
          | .panic _ => [] }

def perform (thread : Nat) (world : World) :
    (action : Action) → Option (Performed action.Result)
  | .load cell => some (.silent (world.get cell) world)
  | .store cell value => some (.silent () (world.set cell value))
  | .acquire name =>
      match (world.lock name).holder with
      | some _ => none
      | none =>
          some (.silent ()
            (world.setLock name
              { world.lock name with holder := some thread }))
  | .release name panicked =>
      some (.silent ()
        (world.setLock name
          { holder := none
            poisoned := (world.lock name).poisoned || panicked }))
  | .beginInitialisation =>
      match world.initialisation with
      | .pending =>
          some (.silent true { world with initialisation := .running })
      | .running => none
      | .complete => some (.silent false world)
  | .endInitialisation complete =>
      some (.silent ()
        { world with
          initialisation := if complete then .complete else .pending })
  | .lookup asked =>
      let (reading, surroundings) := world.surroundings.lookup asked
      some (.silent reading { world with surroundings := surroundings })
  | .deliver destination bytes =>
      some (callDestination world destination bytes)
  | .readClock => some (.silent world.surroundings.clock world)
  | .readHost => some (.silent world.surroundings.host world)
  | .setClock time =>
      some (.silent ()
        { world with
          surroundings := { world.surroundings with clock := time } })
  | .arm name reactions =>
      some (.silent ()
        { world with surroundings := world.surroundings.arm name reactions })
  | .collect destination =>
      some (.silent ()
        { world with surroundings := world.surroundings.collect destination })
  | .takeFacade =>
      some (.silent (!world.surroundings.facadeTaken)
        { world with
          surroundings := { world.surroundings with facadeTaken := true } })

end Action

end LeveledLog
