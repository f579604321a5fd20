/-
Outputs in the face of sinks that change the logger.

An output is a line, or a heading by itself.  Which destination it goes to,
which prefix it shows and whether it is coloured is settled when it starts.
Changes that the destination makes while it is called neither move nor alter
the writes that are left; all of them are in force afterwards, in the order in
which they were made, and nothing else in the logger has changed.
-/

import LeveledLog.Proofs.Reachable

namespace LeveledLog

/-! ### Sinks that make assigned changes -/

/-- What stands on a tape is answered in order, and the last of it from then
on. -/
theorem Tape.drop_ofList {α : Type} (unused last : α) (answers : List α)
    (times : Nat) :
    ((Tape.ofList unused (answers ++ [last])).drop times).head =
      answers[times]?.getD last := by
  induction answers generalizing times with
  | nil =>
      change ((Tape.constant last).drop times).head = _
      rw [Tape.drop_constant]
      rfl
  | cons answer answers inductionHypothesis =>
      have split : Tape.ofList unused (answer :: answers ++ [last]) =
          (Tape.ofList unused (answers ++ [last])).before answer 1 := by
        cases answers <;> rfl
      rw [split]
      cases times with
      | zero =>
          rfl
      | succ times =>
          exact inductionHypothesis times

namespace World

/-- Every assignment of finitely many changes to the calls of a sink is heeded
by some sink. -/
theorem heeds_of_reactions {world : World} {name : SinkName}
    (assigned : List (List Change))
    (reacts : world.surroundings.reactions name =
      Tape.ofList .plain (assigned.map .accept ++ [.plain]))
    (spares : ∀ changes ∈ assigned, ∀ change ∈ changes,
      change.rearms (.sink name) = false) :
    world.Heeds (.sink name) fun call => assigned[call]?.getD [] where
  accepts := by
    intro call
    change ((world.surroundings.reactions name).drop call).head = _
    rw [reacts, Tape.drop_ofList, List.getElem?_map]
    cases assigned[call]? with
    | none | some =>
        rfl
  spares := by
    intro call change member
    cases there : assigned[call]? with
    | none =>
        rw [there] at member
        cases member
    | some changes =>
        rw [there] at member
        exact spares changes (List.mem_of_getElem? there) change member

/-- The logger as before, with sinks that accept everything and change
nothing. -/
def passive (world : World) : World :=
  { world with surroundings := { world.surroundings with sinks := [] } }

private theorem passive_get (world : World) (cell : Cell) :
    world.passive.get cell = world.get cell :=
  rfl

private theorem passive_heeds (world : World) (destination : Destination) :
    world.passive.Heeds destination fun _ => [] :=
  .of_capturing fun _ _ => rfl

theorem ChangedBySinks.passive {before after : World}
    (changed : before.ChangedBySinks after) :
    after.passive = { before with settings := after.settings }.passive := by
  obtain ⟨_, sinks, same⟩ := changed
  rw [same]
  rfl

end World

/-! ### Outputs -/

/-- What a logger writes in one go: a line, or a heading by itself. -/
inductive Output where
  | line (entry : Entry) (message : String)
  | heading (level : Level)

namespace Output

def script : Output → Script Unit
  | .line entry message => Logger.writeLine entry message
  | .heading level => Logger.writeHeading level

def writes (world : World) : Output → List Bytes
  | .line entry message => world.lineWrites entry message
  | .heading level => world.headingWrites level

/-- Whether an output that starts now gets past its timestamp; a heading has
none. -/
def Starts (world : World) : Output → Prop
  | .line _ _ => world.Stamps
  | .heading _ => True

variable {world : World} {assigned : Nat → List Change}

private theorem writes_nonempty (output : Output) :
    ∀ bytes ∈ output.writes world, bytes ≠ [] := by
  cases output with
  | line | heading =>
      exact Fragment.writes_nonempty _ _

theorem run_of_starts (rest : world.AtRest)
    (heeds : world.Heeds (world.get .destination) assigned)
    {output : Output} (starts : output.Starts world) :
    output.script.run world =
      { ending := .returned ()
        world := world.afterCalls (world.get .destination)
          (output.writes world).length
        accepted := (output.writes world).map world.delivers } := by
  cases output with
  | line entry message =>
      exact Logger.run_writeLine_of_heeds rest starts heeds entry message
  | heading level =>
      have nonempty :
          ∀ bytes ∈ (Output.heading level).writes world, bytes ≠ [] :=
        writes_nonempty _
      exact (Logger.run_writeHeading rest.configFree level).trans
        (Logger.run_writeAll heeds rest.configFree nonempty)

theorem run_of_not_starts (rest : world.AtRest) {output : Output}
    (fails : ¬ output.Starts world) :
    output.writes world = [] ∧
      ∃ fault poisoned, world.surroundings.clock.read = .error fault ∧
        output.script.run world =
          { ending := .panicked fault.message
            world :=
              { world with
                outputLock := { holder := none, poisoned := poisoned } }
            accepted := [] } := by
  cases output with
  | heading level =>
      exact absurd trivial fails
  | line entry message =>
      obtain ⟨fault, on, reads, none⟩ := World.of_not_stamps fails
      obtain ⟨poisoned, runs⟩ :=
        Logger.run_writeLine_of_fault rest on reads entry message
      exact ⟨none entry message, fault, poisoned, reads, runs⟩

theorem accepted_of_heeds (rest : world.AtRest)
    (heeds : world.Heeds (world.get .destination) assigned)
    (output : Output) :
    (output.script.run world).accepted =
      (output.writes world).map world.delivers := by
  by_cases starts : output.Starts world
  · rw [run_of_starts rest heeds starts]
  · obtain ⟨none, _, _, _, runs⟩ := run_of_not_starts rest starts
    rw [runs, none]
    rfl

/-- What an output writes depends neither on the locks, if they are free, nor
on how sinks react. -/
theorem accepted_of_same {other : World} (rest : world.AtRest)
    (heeds : world.Heeds (world.get .destination) assigned)
    (restOther : other.AtRest) (settings : world.settings = other.settings)
    {sinks : List (SinkName × Tape Reaction)}
    (surroundings : world.surroundings =
      { other.surroundings with sinks := sinks }) (output : Output) :
    (output.script.run world).accepted =
      (output.script.run other.passive).accepted := by
  have restPassive : other.passive.AtRest :=
    ⟨restOther.configFree, restOther.outputFree, restOther.settled⟩
  rw [accepted_of_heeds rest heeds,
    accepted_of_heeds restPassive (other.passive_heeds _)]
  rcases world with ⟨_, configLock, outputLock, initialisation, _⟩
  rcases other with
    ⟨_, otherConfigLock, otherOutputLock, otherInitialisation, _⟩
  cases settings
  cases surroundings
  cases output with
  | line | heading =>
      rfl

end Output

/-! ### The settings of an output -/

/-- An output whose destination makes changes in each of its calls.  It is
written as without these changes; the logger afterwards is the logger before
with all of them made, and the next output is as on that one. -/
theorem outputs_keep_their_settings {world : World}
    (reachable : world.Reachable) {assigned : Nat → List Change}
    (heeds : world.Heeds (world.get .destination) assigned)
    (output : Output) :
    let outcome := output.script.run world
    let undisturbed := output.script.run world.passive
    let made := (List.range outcome.accepted.length).flatMap assigned
    let changed :=
      { world with settings := world.settings.changeAll made }
    outcome.accepted = (output.writes world).map world.delivers ∧
      outcome.accepted = undisturbed.accepted ∧
      outcome.ending = undisturbed.ending ∧
      (output.Starts world →
        outcome.ending = .returned () ∧
          outcome.world.passive = changed.passive) ∧
      (¬ output.Starts world →
        ∃ (fault : ClockFault) (poisoned : Bool), outcome =
          { ending := .panicked fault.message
            world :=
              { world with
                outputLock := { holder := none, poisoned := poisoned } }
            accepted := [] }) ∧
      ∀ (next : Output) (later : Nat → List Change),
        outcome.world.Heeds (outcome.world.get .destination) later →
          (next.script.run outcome.world).accepted =
            (next.script.run changed.passive).accepted := by
  intro outcome undisturbed made changed
  have rest := reachable.atRest
  have restPassive : world.passive.AtRest :=
    ⟨rest.configFree, rest.outputFree, rest.settled⟩
  have restChanged : changed.AtRest :=
    ⟨rest.configFree, rest.outputFree, rest.settled⟩
  have accepted : outcome.accepted = _ :=
    Output.accepted_of_heeds rest heeds output
  have acceptedPassive : undisturbed.accepted = _ :=
    Output.accepted_of_heeds restPassive (world.passive_heeds _) output
  refine ⟨accepted, accepted.trans acceptedPassive.symm, ?_⟩
  by_cases starts : output.Starts world
  · have runs : outcome = _ := Output.run_of_starts rest heeds starts
    have runsPassive : undisturbed = _ :=
      Output.run_of_starts restPassive (world.passive_heeds _) starts
    have frame : world.ChangedBySinks outcome.world := by
      rw [runs]
      exact world.afterCalls_changed _ _
    have settings : outcome.world.settings = changed.settings := by
      simp only [changed, made, runs, List.length_map]
      exact heeds.afterCalls_settings _
    refine ⟨by rw [runs, runsPassive], ?_, fun fails => absurd starts fails,
      ?_⟩
    · intro _
      refine ⟨by rw [runs], ?_⟩
      rw [frame.passive, settings]
    · intro next later heedsNext
      obtain ⟨sinks, same⟩ := frame.frame
      have surroundings := congrArg World.surroundings same
      exact Output.accepted_of_same (frame.atRest rest) heedsNext restChanged
        settings surroundings next
  · obtain ⟨none, fault, poisoned, reads, runs⟩ :=
      Output.run_of_not_starts rest starts
    obtain ⟨_, same, _, readsPassive, runsPassive⟩ :=
      Output.run_of_not_starts restPassive starts
    have sameFault : fault = same :=
      Except.error.inj (reads.symm.trans readsPassive)
    replace runs : outcome = _ := runs
    replace runsPassive : undisturbed = _ := runsPassive
    have settings : outcome.world.settings = changed.settings := by
      simp only [changed, made, runs]
      rfl
    have restAfter : outcome.world.AtRest := by
      rw [runs]
      exact ⟨rest.configFree, rfl, rest.settled⟩
    have surroundings : outcome.world.surroundings =
        { changed.surroundings with sinks := world.surroundings.sinks } := by
      rw [runs]
    refine ⟨by rw [runs, runsPassive, sameFault],
      fun begins => absurd begins starts, fun _ => ⟨fault, poisoned, runs⟩, ?_⟩
    intro next later heedsNext
    exact Output.accepted_of_same restAfter heedsNext restChanged settings
      surroundings next

/-- A line under the output lock stays with the sink that it started with, and
keeps its prefix; the changes that the sink makes meanwhile lead the next
heading elsewhere and change how it looks. -/
theorem line_moves_the_next :
    let host : Host := { processId := 7, terminal := false }
    let assigned : List (List Change) :=
      [[.destination (.sink "second"), .linePrefix "new"],
        [.destination .standard, .colorMode .always]]
    let world :=
      (World.fresh (Surroundings.start host Environment.empty)).afterAll
        [.arm "first"
            (Tape.ofList .plain (assigned.map .accept ++ [.plain])),
          .setThreadSafe true, .setTimestamps true,
          .setDestination (.sink "first")]
    let entry := Entry.untagged .info { file := none, line := 1 }
    let outcome := (Output.line entry "text").script.run world
    let next := (Output.heading .warn).script.run outcome.world
    (outcome.accepted.map Delivery.bytes).flatten =
        Text.utf8 "[1970-01-01T00:00:00.000] |7| ==ct== [INFO] text" ∧
      outcome.accepted.all (fun delivery =>
        delivery.destination == .sink "first") ∧
      outcome.world.get .destination = .standard ∧
      (next.accepted.map Delivery.bytes).flatten =
        Text.utf8 ("\x1b[2m|7|\x1b[0m \x1b[90m\x1b[3mnew \x1b[0m" ++
          "\x1b[33m[WARN]\x1b[0m ") ∧
      next.accepted.all fun delivery =>
        delivery.destination == .standard := by
  intro host assigned world entry outcome next
  have reachable : world.Reachable :=
    World.Reachable.afterAll (.fresh _) _
  have heeds : world.Heeds (world.get .destination)
      fun call => assigned[call]?.getD [] :=
    World.heeds_of_reactions assigned rfl (by decide)
  obtain ⟨accepted, _, _, starts, _, later⟩ :=
    outputs_keep_their_settings reachable heeds (.line entry "text")
  have begins : (Output.line entry "text").Starts world :=
    fun _ => ⟨_, ClockTime.read_epoch⟩
  have moved : outcome.world.get .destination = .standard := by
    rw [← World.passive_get, (starts begins).2, accepted]
    decide +kernel
  have heedsNext : outcome.world.Heeds (outcome.world.get .destination)
      fun _ => [] := by
    rw [moved]
    exact ⟨fun _ => rfl, fun _ _ impossible => by cases impossible⟩
  have written : next.accepted = _ := later (.heading .warn) _ heedsNext
  replace accepted : outcome.accepted = _ := accepted
  refine ⟨?_, ?_, moved, ?_, ?_⟩
  · rw [accepted]
    decide +kernel
  · rw [accepted]
    decide +kernel
  · rw [written, accepted]
    decide +kernel
  · rw [written, accepted]
    decide +kernel

end LeveledLog
