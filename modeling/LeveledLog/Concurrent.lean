/-
Calls of several threads on one logger, one atomic action at a time.

Every thread has a list of calls to make, one after the other; a call that
panics ends its thread.  `Pool.step` lets one thread take its next step, which
is to begin a call, to perform the next action of a call, or to return from
one; a thread that has to wait, or has nothing left to do, takes no step.
`Pool.play` follows a schedule, which names the thread for each step, and the
history of a pool lists all that was done, the latest first.
-/

import LeveledLog.Command

namespace LeveledLog

def Script.actionsAlone {α : Type} (thread : Nat) : Script α → World → Nat
  | .done _, _ => 0
  | .panic _, _ => 0
  | .step action next, world =>
      match action.perform thread world with
      | none => 0
      | some performed =>
          (next performed.result).actionsAlone thread performed.world + 1

inductive Deed where
  | began (command : Command)
  | performed (action : Action) (accepted : List Delivery)
  | returned (value : Value)
  | panicked (text : String)

def Deed.accepted : Deed → List Delivery
  | .performed _ deliveries => deliveries
  | .began _ | .returned _ | .panicked _ => []

def Deed.panics : Deed → Bool
  | .panicked _ => true
  | .began _ | .performed _ _ | .returned _ => false

structure Event where
  thread : Nat
  deed : Deed

structure ThreadState where
  current : Option (Script Value)
  pending : List Command

namespace ThreadState

def start (commands : List Command) : ThreadState where
  current := none
  pending := commands

def finished (thread : ThreadState) : Bool :=
  thread.current.isNone && thread.pending.isEmpty

end ThreadState

/-- A logger, the threads that call it, and what they have done so far, the
latest first. -/
structure Pool where
  world : World
  threads : List ThreadState
  history : List Event

namespace Pool

def start (world : World) (work : List (List Command)) : Pool where
  world := world
  threads := work.map ThreadState.start
  history := []

def note (pool : Pool) (thread : Nat) (world : World) (state : ThreadState)
    (deed : Deed) : Pool where
  world := world
  threads := pool.threads.set thread state
  history := { thread := thread, deed := deed } :: pool.history

def advance (pool : Pool) (thread : Nat) (state : ThreadState) : Pool :=
  match state.current with
  | none =>
      match state.pending with
      | [] => pool
      | command :: commands =>
          pool.note thread pool.world
            { current := some command.script, pending := commands }
            (.began command)
  | some (.done value) =>
      pool.note thread pool.world { state with current := none }
        (.returned value)
  | some (.panic text) =>
      pool.note thread pool.world { current := none, pending := [] }
        (.panicked text)
  | some (.step action next) =>
      match action.perform thread pool.world with
      | none => pool
      | some performed =>
          pool.note thread performed.world
            { state with current := some (next performed.result) }
            (.performed action performed.accepted)

def step (pool : Pool) (thread : Nat) : Pool :=
  match pool.threads[thread]? with
  | none => pool
  | some state => pool.advance thread state

def play (pool : Pool) (schedule : List Nat) : Pool :=
  schedule.foldl step pool

def finished (pool : Pool) : Bool :=
  pool.threads.all ThreadState.finished

def round (pool : Pool) : List Nat :=
  List.range pool.threads.length

def playRounds : (limit : Nat) → Pool → Pool
  | 0, pool => pool
  | limit + 1, pool =>
      if pool.finished then pool
      else playRounds limit (pool.play pool.round)

def continueCall (pool : Pool) (thread : Nat) : Pool :=
  match pool.threads[thread]? with
  | none => pool
  | some state =>
      match state.current with
      | none => pool.step thread
      | some script =>
          pool.play
            (List.replicate (script.actionsAlone thread pool.world + 1)
              thread)

def continueThread (thread : Nat) : (times : Nat) → Pool → Pool
  | 0, pool => pool
  | times + 1, pool => continueThread thread times (pool.continueCall thread)

/-- The pool after each thread in turn has gone on as far as it need not
wait: it ends the call it is in, and begins and ends the calls after it. -/
def pass (pool : Pool) : Pool :=
  pool.round.foldl
    (fun current thread =>
      match current.threads[thread]? with
      | none => current
      | some state =>
          continueThread thread (2 * state.pending.length + 1) current)
    pool

def playPasses : (limit : Nat) → Pool → Pool
  | 0, pool => pool
  | limit + 1, pool =>
      if pool.finished then pool else playPasses limit pool.pass

/-- Plays a pool to its end.  First the threads take turns, for about as long
as it takes to log one text in each call; then each goes on alone as far as it
can.  A thread waits only for one that holds a lock or runs the
initialisation, so that in any two passes at least one thread comes to its
end. -/
def playOut (pool : Pool) : Pool :=
  let calls := pool.threads.foldl
    (fun calls thread => calls + thread.pending.length) 0
  playPasses (2 * pool.threads.length + 2)
    (pool.playRounds (100 * calls))

def panicked (pool : Pool) : Bool :=
  pool.history.any fun event => event.deed.panics

def accepted (pool : Pool) : List Delivery :=
  pool.history.reverse.flatMap fun event => event.deed.accepted

end Pool

end LeveledLog
