/-
The order in which a call writes its line.

A call that logs or sets the line prefix goes through stages.  A call whose
line is written copies the prefix once, under the configuration lock; then it
takes the output lock, makes under it the deliveries that it would make alone
with that prefix, one after the other, and gives the lock up.  A message that
cannot be rendered is one delivery, and takes no lock.  `Discipline.logging`
says so move by move, and every such call follows it.
-/

import LeveledLog.Proofs.LineWriting
import LeveledLog.Proofs.Regime

namespace LeveledLog

/-! ### Where a thread is -/

inductive LineStage where
  | starting
  | copied (linePrefix : LinePrefix)
  | writing (rest : List Delivery)
  | ended

def LineStage.underWay : LineStage → Bool
  | .copied _ | .writing _ => true
  | .starting | .ended => false

/-- Where a thread is: its call, which is counted from zero among the calls of
the thread, whether it holds the configuration lock, and how far it has come
with its line. -/
structure Station where
  call : Option (Command × Nat)
  config : Bool
  stage : LineStage

namespace Station

def resting : Station where
  call := none
  config := false
  stage := .starting

def starting (command : Command) (number : Nat) : Station :=
  { resting with call := some (command, number) }

def withConfig (station : Station) (config : Bool) : Station :=
  { station with config := config }

def withStage (station : Station) (stage : LineStage) : Station :=
  { station with stage := stage }

def holdsOutput (station : Station) : Bool :=
  match station.stage with
  | .writing _ => true
  | .starting | .copied _ | .ended => false

theorem holdsOutput_of_writing {station : Station} {rest : List Delivery}
    (writing : station.stage = .writing rest) :
    station.holdsOutput = true := by
  unfold holdsOutput
  rw [writing]

end Station

def World.failureDelivery (world : World) : Delivery :=
  world.delivers (Text.utf8 formatErrorLine)

inductive LineMove (world : World) (station : Station) :
    (action : Action) → action.Result → Station → Prop
  | load (cell : Cell) (value : cell.Value) (other : cell ≠ .linePrefix) :
      LineMove world station (.load cell) value station
  | copyPrefix (linePrefix : LinePrefix) (command : Command) (number : Nat)
      (entry : Entry) (text : String) (held : station.config = true)
      (calls : station.call = some (command, number))
      (effect : command.effect world = .line entry text)
      (starting : station.stage = .starting) :
      LineMove world station (.load .linePrefix) linePrefix
        (station.withStage (.copied linePrefix))
  | storePrefix (linePrefix : LinePrefix) (held : station.config = true) :
      LineMove world station (.store .linePrefix linePrefix) () station
  | acquireConfig (free : station.config = false) :
      LineMove world station (.acquire .config) () (station.withConfig true)
  | releaseConfig (held : station.config = true) :
      LineMove world station (.release .config false) ()
        (station.withConfig false)
  | acquireOutput (command : Command) (number : Nat)
      (linePrefix : LinePrefix)
      (calls : station.call = some (command, number))
      (copied : station.stage = .copied linePrefix) :
      LineMove world station (.acquire .output) ()
        (station.withStage (.writing (command.writes world linePrefix)))
  | releaseOutput (panicked : Bool) (written : station.stage = .writing []) :
      LineMove world station (.release .output panicked) ()
        (station.withStage .ended)
  | pass :
      LineMove world station .beginInitialisation false station
  | readClock (time : ClockTime) :
      LineMove world station .readClock time station
  | readHost (host : Host) :
      LineMove world station .readHost host station
  | deliver (bytes : Bytes) (rest : List Delivery)
      (writing : station.stage = .writing (world.delivers bytes :: rest)) :
      LineMove world station (.deliver (world.get .destination) bytes)
        Reaction.plain (station.withStage (.writing rest))
  | deliverFailure (command : Command) (number : Nat)
      (calls : station.call = some (command, number))
      (effect : command.effect world = .failure)
      (starting : station.stage = .starting) :
      LineMove world station
        (.deliver (world.get .destination) (Text.utf8 formatErrorLine))
        Reaction.plain (station.withStage .ended)

def Discipline.logging (world : World) : Discipline Station where
  expects _ := world.Answers
  allows := LineMove world

/-- A call may end when its line has been written, or if it writes none. -/
structure Station.Finished (world : World) (station : Station) : Prop where
  config : station.config = false
  stage : station.stage = .ended ∨ station.stage = .starting ∧
    ∀ command number, station.call = some (command, number) →
      command.effect world = .nothing

/-- The regime of the threads that log and set the line prefix; a call panics
only if it has to read the clock and cannot. -/
def Regime.logging (world : World) : Regime Station :=
  { Discipline.logging world with
    rests := fun station => station = .resting
    returns := fun _ station => station.Finished world
    panics := fun _ station => station.Finished world ∧ ¬ world.Stamps }

variable {world : World} {station : Station} {α : Type}

namespace Script

variable {returns : α → Station → Prop} {panics : String → Station → Prop}

private theorem follows_load_bind {cell : Cell} (other : cell ≠ .linePrefix)
    {continuation : cell.Value → Script α}
    (after : (continuation (world.get cell)).Follows
      (Discipline.logging world) returns panics station) :
    (load cell >>= continuation).Follows (Discipline.logging world) returns
      panics station := by
  intro value answer
  have same : value = world.get cell := answer other
  subst same
  exact ⟨station, .load cell _ other, after⟩

/-- What is written to the destination is what the script writes alone. -/
theorem Emits.follows_writing {script : Script α} {right : α → Prop}
    (captures : world.Captures) (emits : script.Emits world right)
    (station : Station) (rest : List Delivery) :
    script.Follows (Discipline.logging world)
      (fun _ later => later = station.withStage (.writing rest))
      (fun _ later => later = station.withStage (.writing rest) ∧
        ¬ world.Stamps)
      (station.withStage
        (.writing ((script.run world).accepted ++ rest))) := by
  induction script with
  | done value =>
      rfl
  | panic text =>
      exact ⟨rfl, emits⟩
  | step action next inductionHypothesis =>
      intro result answer
      obtain ⟨_, asks, remaining⟩ := emits result answer
      cases action with
      | load cell =>
          have same : result = world.get cell := answer asks
          subst same
          exact ⟨_, .load cell _ asks,
            inductionHypothesis (world.get cell) remaining⟩
      | readClock =>
          cases answer
          exact ⟨_, .readClock _, inductionHypothesis _ remaining⟩
      | readHost =>
          cases answer
          exact ⟨_, .readHost _, inductionHypothesis _ remaining⟩
      | deliver destination bytes =>
          cases answer
          cases asks
          have alone :
              ((Script.step (.deliver (world.get .destination) bytes)
                next).run world).accepted =
                world.delivers bytes ::
                  ((next Reaction.plain).run world).accepted := by
            simp only [Script.run,
              Action.perform_deliver captures (.refl world)]
            rfl
          rw [alone]
          exact ⟨_, .deliver bytes _ rfl, inductionHypothesis _ remaining⟩
      | store | acquire | release | beginInitialisation | endInitialisation
      | lookup | setClock | arm | collect | takeFacade =>
          exact asks.elim

end Script

namespace Logger

open Script

variable {panics : String → Station → Prop}

private theorem gates_follows (free : station.config = false) (level : Level)
    (moduleName : Option String) :
    (gates level moduleName).Follows (Discipline.logging world)
      (fun value later => value = world.opens level moduleName ∧
        later = station)
      panics station := by
  have other : Cell.enabled ≠ .linePrefix ∧ Cell.minLevel ≠ .linePrefix ∧
      Cell.filterActive ≠ .linePrefix ∧ Cell.modules ≠ .linePrefix := by
    decide
  unfold gates World.opens World.admits
  apply follows_load_bind other.1
  cases world.get .enabled with
  | false =>
      exact ⟨rfl, rfl⟩
  | true =>
      apply follows_load_bind other.2.1
      by_cases reached : world.get .minLevel ≤ level
      · rw [if_pos reached]
        simp only [reached, decide_true, Bool.true_and]
        cases moduleName with
        | none =>
            exact ⟨rfl, rfl⟩
        | some name =>
            by_cases empty : name = ""
            · simp [empty]
            · simp only [empty, if_false]
              apply follows_load_bind other.2.2.1
              cases world.get .filterActive with
              | false =>
                  simp
              | true =>
                  intro _ _
                  refine ⟨_, .acquireConfig free, ?_⟩
                  apply follows_load_bind other.2.2.2
                  intro _ _
                  refine ⟨_, .releaseConfig rfl, by simp [empty], ?_⟩
                  rcases station with ⟨call, config, stage⟩
                  cases free
                  rfl
      · simp [reached]

section Calls

variable {command : Command} {number : Nat}

private theorem writeLine_follows (ready : world.ReadyToLog)
    (plain : command.isPlain = true) {entry : Entry} {text : String}
    (effect : command.effect world = .line entry text) :
    (writeLine entry text).Follows (Discipline.logging world)
      (fun _ later => later =
        (Station.starting command number).withStage .ended)
      (fun _ later => later =
        (Station.starting command number).withStage .ended ∧ ¬ world.Stamps)
      (Station.starting command number) := by
  have other : Cell.threadSafe ≠ .linePrefix := by decide
  intro _ _
  refine ⟨_, .acquireConfig rfl, ?_⟩
  intro linePrefix _
  refine ⟨_, .copyPrefix linePrefix command number entry text rfl rfl effect
    rfl, ?_⟩
  intro _ _
  refine ⟨_, .releaseConfig rfl, ?_⟩
  apply follows_load_bind other
  rw [ready.threadSafe, if_pos rfl]
  intro _ _
  refine ⟨_, .acquireOutput command number linePrefix rfl rfl, ?_⟩
  rw [Command.writes_line ready plain effect]
  have writes := (emit_emits linePrefix entry text).follows_writing
    ready.captures (.starting command number) []
  rw [List.append_nil] at writes
  change (attempt _ >>= _).Follows _ _ _ _
  refine follows_bind.mpr (follows_attempt.mpr (writes.weaken ?_ ?_))
  · intro _ later same
    subst same
    intro _ _
    exact ⟨_, .releaseOutput false rfl, rfl⟩
  · intro _ later same
    obtain ⟨stands, unreadable⟩ := same
    subst stands
    intro _ _
    exact ⟨_, .releaseOutput true rfl, rfl, unreadable⟩

private theorem writeFailure_follows
    (effect : command.effect world = .failure) :
    (writeText formatErrorLine).Follows (Discipline.logging world)
      (fun _ later => later =
        (Station.starting command number).withStage .ended)
      (fun _ later => later =
        (Station.starting command number).withStage .ended ∧ ¬ world.Stamps)
      (Station.starting command number) := by
  have other : Cell.destination ≠ .linePrefix := by decide
  have nonempty : Text.utf8 formatErrorLine ≠ [] := by decide
  apply follows_load_bind other
  unfold write
  rw [if_neg nonempty]
  intro reaction answer
  cases answer
  exact ⟨_, .deliverFailure command number rfl effect rfl, rfl⟩

end Calls

end Logger

namespace Command

open Logger Script

private theorem log_followed (ready : world.ReadyToLog) (entry : Entry)
    {message : Message} (inert : message.isInert = true) (number : Nat) :
    (Regime.logging world).Followed (Command.log entry message).script
      (.starting (.log entry message) number) := by
  have plain : (Command.log entry message).isPlain = true := inert
  have returned (value : Unit) (later : Station)
      (same : later = (Station.starting (.log entry message) number).withStage
        .ended) : later.Finished world := by
    rw [same]
    exact ⟨rfl, .inl rfl⟩
  have panicked (text : String) (later : Station)
      (same : later = (Station.starting (.log entry message) number).withStage
        .ended ∧ ¬ world.Stamps) :
      later.Finished world ∧ ¬ world.Stamps :=
    ⟨returned () later same.1, same.2⟩
  have nothing (none : (Command.log entry message).effect world = .nothing) :
      (Station.starting (.log entry message) number).Finished world := by
    refine ⟨rfl, .inr ⟨rfl, ?_⟩⟩
    intro command counted same
    cases same
    exact none
  unfold Regime.Followed Command.script
  rw [follows_map, Logger.log_eq]
  intro started answer
  cases answer
  refine ⟨_, .pass, ?_⟩
  change (gates _ _ >>= _).Follows _ _ _ _
  refine follows_bind.mpr ((gates_follows rfl _ _).weaken ?_
    fun _ _ impossible => impossible)
  intro passes later same
  obtain ⟨opens, stands⟩ := same
  subst stands
  cases passes with
  | false =>
      exact nothing (effect_of_closed opens.symm)
  | true =>
      have passes := opens.symm
      change (message.render >>= _).Follows _ _ _ _
      rw [Message.render_inert inert]
      cases rendered : message.rendering with
      | none =>
          exact (writeFailure_follows
            (effect_of_unrendered passes rendered)).weaken returned panicked
      | some text =>
          change (if text = "" then pure () else
            writeLine entry text : Script Unit).Follows _ _ _ _
          by_cases empty : text = ""
          · subst empty
            exact nothing (effect_of_empty passes rendered)
          · rw [if_neg empty]
            exact (writeLine_follows ready plain (effect_of_rendered passes
              rendered empty)).weaken returned panicked

theorem followed_logging (ready : world.ReadyToLog) {command : Command}
    (plain : command.isPlain = true) (number : Nat) :
    (Regime.logging world).Followed command.script
      (.starting command number) := by
  cases command with
  | log entry message =>
      exact log_followed ready entry plain number
  | setPrefix text =>
      unfold Regime.Followed Command.script
      rw [follows_map]
      intro _ _
      refine ⟨_, .acquireConfig rfl, ?_⟩
      intro _ _
      refine ⟨_, .storePrefix _ rfl, ?_⟩
      intro _ _
      refine ⟨_, .releaseConfig rfl, rfl, .inr ⟨rfl, ?_⟩⟩
      intro command counted same
      cases same
      rfl
  | _ =>
      cases plain

end Command

end LeveledLog
