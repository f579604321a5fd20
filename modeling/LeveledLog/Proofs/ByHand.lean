/-
Lines that are written by hand.

Without timestamps and source locations, the line of an untagged message is a
heading and the bytes of the message, so that a heading that is written by
itself, with the message after it, makes the same line.  The two differ in two
ways: a line goes to one destination as a whole, whereas a message by itself
goes to the destination that is current once its heading has been written; and
only a line may hold the output lock, which is poisoned if the destination
panics in the meantime.
-/

import LeveledLog.Proofs.OutputCalls

namespace LeveledLog

/-! ### The writes of untagged lines -/

namespace World

variable {world : World}

private theorem stamps_of_unstamped
    (unstamped : world.get .timestamps = false) : world.Stamps := by
  intro on
  rw [unstamped] at on
  cases on

private theorem lineWrites_untagged (unstamped : world.get .timestamps = false)
    (unsited : world.get .sourceLocation = false) (level : Level)
    (site : CallSite) {message : String} (nonempty : message ≠ "") :
    world.lineWrites (Entry.untagged level site) message =
      world.headingWrites level ++ [Text.utf8 message] := by
  have stamps := stamps_of_unstamped unstamped
  have stamp : world.stamp? = some [] := by
    rw [stamp?, unstamped]
    rfl
  have blank : Fragment.writes world.colored [.text " "] =
      [Text.utf8 " "] := by
    cases world.colored with
    | false | true =>
        decide
  have leading : world.leadingFragments (Entry.untagged level site) =
      Line.heading world.surroundings.host.processId (world.get .linePrefix)
        level := by
    rw [leadingFragments, stamp, unsited]
    exact List.append_nil _
  rw [lineWrites_eq stamps _ nonempty, leading, headingWrites,
    Fragment.writes_append, blank, List.append_assoc]
  rfl

end World

/-! ### Headings with a message after them -/

namespace Logger

open Script

variable {world : World} {level : Level} {message : String}

def writeByHand (level : Level) (message : String) : Script Unit := do
  writeHeading level
  writeText message

/-- The destination is the same once a heading has been written, if writing it
ends. -/
def HeadingKeeps (world : World) (level : Level) : Prop :=
  ((writeHeading level).run world).ending = .returned () →
    ((writeHeading level).run world).world.get .destination =
      world.get .destination

/-- A line by hand is written like any other as long as the destination is
the same for its message. -/
private theorem run_writeByHand_of_keeps (free : world.configLock.holder = none)
    (keeps : HeadingKeeps world level) :
    (writeByHand level message).run world =
      (writeAll (world.get .destination)
        (world.headingWrites level ++ [Text.utf8 message])).run world := by
  have heading := run_writeHeading free level
  rw [writeByHand, run_bind_of_run heading, writeAll_append]
  apply run_bind_congr
  intro _ returned
  rw [← heading] at returned ⊢
  rw [writeText, run_writeRaw, writeAll_filter, keeps returned]

private theorem writeRaw_sinkCalls_iff {bytes : Bytes} (nonempty : bytes ≠ [])
    (destination : Destination) :
    (writeAll destination [bytes]).sinkCalls world =
        (writeRaw bytes).sinkCalls world ↔
      world.get .destination = destination := by
  rw [writeAll, writeAll, bind_pure_unit, writeRaw, sinkCalls_load_bind]
  constructor
  · intro same
    rw [write_sinkCalls nonempty, write_sinkCalls nonempty] at same
    have first := (List.cons.inj same).1
    exact congrArg (fun call => call.delivery.destination) first.symm
  · intro current
    rw [current]

private theorem writeByHand_sinkCalls_iff
    (free : world.configLock.holder = none) (nonempty : message ≠ "") :
    (writeAll (world.get .destination)
        (world.headingWrites level ++ [Text.utf8 message])).sinkCalls world =
      (writeByHand level message).sinkCalls world ↔
        HeadingKeeps world level := by
  have bytes : Text.utf8 message ≠ [] := by
    rw [ne_eq, Text.utf8_eq_nil_iff]
    exact nonempty
  have heading := run_writeHeading free level
  have calls : (writeHeading level).sinkCalls world =
      (writeAll (world.get .destination)
        (world.headingWrites level)).sinkCalls world :=
    (writeHeading_sinkCalls free level).trans
      (writeAll_sinkCalls free (Fragment.writes_nonempty _ _)).symm
  rw [writeAll_append, sinkCalls_bind, writeByHand, sinkCalls_bind, calls,
    heading, List.append_cancel_left_eq]
  unfold HeadingKeeps Outcome.laterCalls
  rw [heading]
  cases ((writeAll (world.get .destination)
      (world.headingWrites level)).run world).ending with
  | returned =>
      simp only [writeText, writeRaw_sinkCalls_iff bytes, true_imp_iff]
  | panicked | waiting =>
      simp only [reduceCtorEq, false_imp_iff]

end Logger

/-! ### Lines by hand and logged lines -/

namespace Logger

open Script

variable {world : World}

section Line

variable (rest : world.AtRest) (unstamped : world.get .timestamps = false)
variable (unsited : world.get .sourceLocation = false) (level : Level)
variable (site : CallSite) {text : String} (nonempty : text ≠ "")
include rest unstamped unsited nonempty

private theorem writeLine_sinkCalls_iff :
    (writeLine (Entry.untagged level site) text).sinkCalls world =
      (writeByHand level text).sinkCalls world ↔
        HeadingKeeps world level := by
  have line := World.lineWrites_untagged unstamped unsited level site nonempty
  have each : ∀ bytes ∈ world.lineWrites (Entry.untagged level site) text,
      bytes ≠ [] :=
    Fragment.writes_nonempty _ _
  rw [writeLine_sinkCalls rest, ← writeAll_sinkCalls rest.configFree each,
    line]
  exact writeByHand_sinkCalls_iff rest.configFree nonempty

private theorem run_writeLine_of_keeps (keeps : HeadingKeeps world level) :
    let written := (writeByHand level text).run world
    (writeLine (Entry.untagged level site) text).run world =
        { written with
          world := written.world.givingOutputUp
            (world.get .threadSafe && written.panicked) } ∧
      written.world.outputLock.holder = none := by
  have stamps := World.stamps_of_unstamped unstamped
  have line := World.lineWrites_untagged unstamped unsited level site nonempty
  have runs := run_writeLine_of_stamps rest stamps
    (Entry.untagged level site) text
  have changed : world.ChangedBySinks ((writeAll (world.get .destination)
      (world.lineWrites (Entry.untagged level site) text)).run
        world).world :=
    writeAll_changed rest.configFree (Fragment.writes_nonempty _ _)
  rw [line, ← run_writeByHand_of_keeps rest.configFree keeps] at runs changed
  exact ⟨runs, (changed.atRest rest).outputFree⟩

end Line

theorem log_eq_line (rest : world.AtRest)
    (complete : world.initialisation = .complete) {entry : Entry}
    (asked : ((wouldLog entry.level entry.moduleName).run world).ending =
      .returned true) {message : Message} (inert : message.isInert = true)
    {text : String} (rendered : message.rendering = some text)
    (nonempty : text ≠ "") :
    (log entry message.render).run world =
        (writeLine entry text).run world ∧
      (log entry message.render).sinkCalls world =
        (writeLine entry text).sinkCalls world := by
  have ready := World.ready_of_complete complete
  constructor
  · rw [run_log rest asked, if_pos rfl, ready, Message.render_inert inert,
      pure_bind, rendered, writeRendered, if_neg nonempty]
  · rw [log_sinkCalls_of_inert rest inert asked, if_pos rfl, ready, rendered,
      World.renderedWrites, if_neg nonempty, writeLine_sinkCalls rest]

end Logger

/-- On an initialised logger without timestamps and source locations, whose
gates let untagged lines of a level through, logging a message makes the calls
that writing the heading and then the text makes, exactly if the heading
leaves the destination in place.  Then the two end alike and leave the same
logger behind, but for the output lock, which is poisoned if the line has held
it while the destination panicked; the destination may make any other
changes. -/
theorem lines_by_hand_match_logged_lines {world : World}
    (reachable : world.Reachable)
    (complete : world.initialisation = .complete)
    (unstamped : world.get .timestamps = false)
    (unsited : world.get .sourceLocation = false) {level : Level}
    (passes : world.passes level none = true) (site : CallSite)
    {message : Message} (inert : message.isInert = true) {text : String}
    (rendered : message.rendering = some text) (nonempty : text ≠ "") :
    let logs := Logger.log (Entry.untagged level site) message.render
    let byHand : Script Unit := do
      Logger.writeHeading level
      Logger.writeText text
    let logged := logs.run world
    let written := byHand.run world
    (logs.sinkCalls world = byHand.sinkCalls world ↔
        Logger.HeadingKeeps world level) ∧
      (Logger.HeadingKeeps world level →
        logged =
            { written with
              world := written.world.givingOutputUp
                (world.get .threadSafe && written.panicked) } ∧
          (written.panicked = false → logged = written)) := by
  intro logs byHand logged written
  have rest := reachable.atRest
  have asked := congrArg Outcome.ending (Logger.run_wouldLog rest.configFree
    complete (Entry.untagged level site).level none)
  rw [World.opens_eq reachable.mirror] at asked
  obtain ⟨runs, calls⟩ := Logger.log_eq_line rest complete
    (asked.trans (congrArg Ending.returned passes)) inert rendered nonempty
  have callsLine := Logger.writeLine_sinkCalls_iff rest unstamped unsited
    level site nonempty
  rw [← calls] at callsLine
  refine ⟨callsLine, ?_⟩
  intro keeps
  obtain ⟨runsLine, free⟩ := Logger.run_writeLine_of_keeps rest unstamped
    unsited level site nonempty keeps
  have same : logged =
      { written with
        world := written.world.givingOutputUp
          (world.get .threadSafe && written.panicked) } :=
    runs.trans runsLine
  refine ⟨same, ?_⟩
  intro calm
  have unheld : written.world.outputLock.holder = none := free
  rw [same, calm, Bool.and_false, World.givingOutputUp_of_free unheld]

/-- The two ways of writing a line are the same for a sink that changes the
line prefix and the colour mode in its second call. -/
theorem line_by_hand_with_changing_sink :
    let host : Host := { processId := 7, terminal := false }
    let changes := [Change.linePrefix "new", Change.colorMode .always]
    let world :=
      (World.fresh (Surroundings.start host Environment.empty)).afterAll
        [.enable, .initOnce, .arm "file" (Reaction.changingAt 2 changes),
          .setDestination (.sink "file")]
    let logs := Logger.log (Entry.untagged .info { file := none, line := 1 })
      (Message.rendered [.text "two ", .text "parts"]).render
    let byHand : Script Unit := do
      Logger.writeHeading .info
      Logger.writeText "two parts"
    logs.sinkCalls world = byHand.sinkCalls world ∧
      logs.run world = byHand.run world ∧
      ((logs.run world).accepted.map Delivery.bytes).flatten =
        Text.utf8 "|7| ==ct== [INFO] two parts" := by
  intro host changes world logs byHand
  have reachable : world.Reachable := World.Reachable.afterAll (.fresh _) _
  have passes : world.passes .info none = true := by
    decide +kernel
  have rendered : (Message.rendered [.text "two ", .text "parts"]).rendering =
      some "two parts" := by
    decide +kernel
  have keeps : Logger.HeadingKeeps world .info := by
    intro _
    decide +kernel
  have calm : (byHand.run world).panicked = false := by
    decide +kernel
  obtain ⟨calls, same⟩ := lines_by_hand_match_logged_lines reachable rfl rfl
    rfl passes { file := none, line := 1 } rfl rendered (by decide)
  refine ⟨calls.mpr keeps, (same keeps).2 calm, ?_⟩
  decide +kernel

/-- A sink that puts another in its place during the heading gets a logged
line as a whole, but not the message of a line by hand; and a sink that panics
poisons the output lock of a logged line only. -/
theorem line_by_hand_follows_the_sink :
    let host : Host := { processId := 7, terminal := false }
    let start :=
      (World.fresh (Surroundings.start host Environment.empty)).afterAll
        [.enable, .initOnce]
    let moving := start.afterAll
      [.arm "first" (Reaction.changingAt 1 [.destination (.sink "second")]),
        .setDestination (.sink "first")]
    let broken := start.afterAll
      [.arm "first" (Reaction.panickingAfter 1 "full"),
        .setDestination (.sink "first")]
    let logs := Logger.log (Entry.untagged .info { file := none, line := 1 })
      (Message.literal "text").render
    let byHand : Script Unit := do
      Logger.writeHeading .info
      Logger.writeText "text"
    (∀ world ∈ [moving, broken],
        world.Reachable ∧ world.initialisation = .complete ∧
          world.get .timestamps = false ∧
          world.get .sourceLocation = false ∧
          world.passes .info none = true) ∧
      ((logs.run moving).accepted.map Delivery.destination).getLast? =
          some (.sink "first") ∧
        ((byHand.run moving).accepted.map Delivery.destination).getLast? =
          some (.sink "second") ∧
        logs.sinkCalls moving ≠ byHand.sinkCalls moving ∧
        (logs.run broken).world ≠ (byHand.run broken).world := by
  intro host start moving broken logs byHand
  have reachable : start.Reachable := World.Reachable.afterAll (.fresh _) _
  have first : ((logs.run moving).accepted.map
      Delivery.destination).getLast? = some (.sink "first") := by
    decide +kernel
  have second : ((byHand.run moving).accepted.map
      Delivery.destination).getLast? = some (.sink "second") := by
    decide +kernel
  have poisoned : (logs.run broken).world.outputLock.poisoned = true := by
    decide +kernel
  have sound : (byHand.run broken).world.outputLock.poisoned = false := by
    decide +kernel
  refine ⟨?_, first, second, ?_, ?_⟩
  · intro world member
    have passes : ([moving, broken].all fun world =>
        world.passes .info none) = true := by
      decide +kernel
    refine ⟨?_, ?_, ?_, ?_, List.all_eq_true.mp passes world member⟩
    all_goals
      rcases List.mem_pair.mp member with same | same <;> subst same
    · exact reachable.afterAll _
    · exact reachable.afterAll _
    all_goals rfl
  · intro same
    rw [Script.accepted_eq, same, ← Script.accepted_eq, second] at first
    exact absurd first (by decide)
  · intro same
    rw [same, sound] at poisoned
    cases poisoned

end LeveledLog
