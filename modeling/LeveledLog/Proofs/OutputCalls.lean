/-
The calls of destinations that an output makes.

A line, or a heading by itself, calls the destination that is current when it
starts once for each of its writes, in order, up to the first call in which
the destination panics.  Nothing else that is done for an output calls a
destination, and neither does anything that a call to log does besides
rendering its message and writing its line.
-/

import LeveledLog.Proofs.SinkPanics

namespace LeveledLog

variable {α β : Type}

/-! ### Calls of scripts in sequence -/

def Outcome.laterCalls (outcome : Outcome α) (continuation : α → Script β) :
    List SinkCall :=
  match outcome.ending with
  | .returned value => (continuation value).sinkCalls outcome.world
  | .panicked _ | .waiting => []

namespace Script

theorem sinkCalls_bind (script : Script α) (continuation : α → Script β)
    (world : World) :
    (script >>= continuation).sinkCalls world =
      script.sinkCalls world ++ (script.run world).laterCalls continuation := by
  change (script.bind continuation).sinkCalls world = _
  induction script generalizing world with
  | done | panic =>
      rfl
  | step action next inductionHypothesis =>
      simp only [bind, run, sinkCalls]
      cases action.perform 0 world with
      | none =>
          rfl
      | some performed =>
          simp only [inductionHypothesis, List.append_assoc]
          rfl

private theorem sinkCalls_attempt (script : Script α) (world : World) :
    script.attempt.sinkCalls world = script.sinkCalls world := by
  induction script generalizing world with
  | done | panic =>
      rfl
  | step action next inductionHypothesis =>
      simp only [attempt, sinkCalls]
      cases action.perform 0 world with
      | none =>
          rfl
      | some performed =>
          simp only [inductionHypothesis]

theorem sinkCalls_bind_congr {script : Script α}
    {first second : α → Script β} {world : World}
    (same : ∀ value, (script.run world).ending = .returned value →
      (first value).sinkCalls (script.run world).world =
        (second value).sinkCalls (script.run world).world) :
    (script >>= first).sinkCalls world =
      (script >>= second).sinkCalls world := by
  rw [sinkCalls_bind, sinkCalls_bind]
  unfold Outcome.laterCalls
  cases ending : (script.run world).ending with
  | returned value =>
      simp only [same value ending]
  | panicked | waiting =>
      rfl

theorem sinkCalls_bind_of_same {first second : Script α} {world : World}
    (runs : first.run world = second.run world)
    (calls : first.sinkCalls world = second.sinkCalls world)
    (continuation : α → Script β) :
    (first >>= continuation).sinkCalls world =
      (second >>= continuation).sinkCalls world := by
  rw [sinkCalls_bind, sinkCalls_bind, runs, calls]

theorem sinkCalls_load_bind (cell : Cell) (continuation : cell.Value → Script α)
    (world : World) :
    (load cell >>= continuation).sinkCalls world =
      (continuation (world.get cell)).sinkCalls world := rfl

/-- A script that has gone through the stages up to the first one has been
there all the time. -/
private theorem Follows.stage_eq_preparing {script : Script α}
    {stage : SinkStage} (follows : script.Follows Discipline.secluded
      (fun _ last => last = .preparing) (fun _ last => last = .preparing)
      stage) (world : World) :
    stage = .preparing := by
  induction script generalizing stage with
  | done | panic =>
      exact follows
  | step action next inductionHypothesis =>
      obtain ⟨result, expected⟩ :=
        Discipline.secluded_answerable stage action world
      obtain ⟨later, move, rest⟩ := follows result expected
      have last := inductionHypothesis result rest
      subst last
      cases move with
      | prepare =>
          rfl

theorem Prepares.sinkCalls {script : Script α} (prepares : script.Prepares)
    (world : World) : script.sinkCalls world = [] := by
  induction script generalizing world with
  | done | panic =>
      rfl
  | step action next inductionHypothesis =>
      have apart : action.isApart = true := by
        obtain ⟨result, expected⟩ :=
          Discipline.secluded_answerable .preparing action world
        obtain ⟨later, move, rest⟩ := prepares result expected
        have last := Follows.stage_eq_preparing rest world
        subst last
        cases move with
        | prepare _ _ apart =>
            exact apart
      rw [Script.sinkCalls]
      cases action.perform 0 world with
      | none =>
          rfl
      | some performed =>
          obtain ⟨later, _, rest⟩ := prepares performed.result
            (Discipline.secluded_expects .preparing apart performed.result)
          have last := Follows.stage_eq_preparing rest world
          subst last
          simp only [Action.sinkCalls_apart apart,
            inductionHypothesis performed.result rest, List.append_nil]

/-- What has nothing to do with sinks may be left out where it leads. -/
theorem Prepares.sinkCalls_bind {script : Script α}
    (prepares : script.Prepares) {world : World} {outcome : Outcome α}
    (runs : script.run world = outcome) (continuation : α → Script β) :
    (script >>= continuation).sinkCalls world =
      outcome.laterCalls continuation := by
  rw [Script.sinkCalls_bind, prepares.sinkCalls, runs, List.nil_append]

end Script

/-! ### The calls of several writes -/

namespace World

variable {world : World} {destination : Destination}

/-- The calls of a destination for the listed writes, up to the first in which
it panics. -/
def callsMade (world : World) (destination : Destination) :
    List Bytes → List SinkCall
  | [] => []
  | bytes :: others =>
      { delivery := world.surroundings.delivery destination bytes
        reaction := world.reactionAt destination 0 } ::
        match world.reactionAt destination 0 with
        | .accept _ => (world.afterCall destination).callsMade destination others
        | .panic _ => []

private theorem callsMade_singleton (world : World) (destination : Destination)
    (bytes : Bytes) :
    world.callsMade destination [bytes] =
      [{ delivery := world.surroundings.delivery destination bytes
         reaction := world.reactionAt destination 0 }] := by
  rw [callsMade]
  cases world.reactionAt destination 0 with
  | accept | panic =>
      rfl

theorem callsMade_ne_nil {writes : List Bytes} :
    world.callsMade destination writes ≠ [] ↔ writes ≠ [] := by
  cases writes with
  | nil | cons =>
      simp [callsMade]

theorem callsMade_prefix (world : World) (destination : Destination)
    (writes : List Bytes) :
    (world.callsMade destination writes).map SinkCall.delivery <+:
      writes.map (world.surroundings.delivery destination) := by
  induction writes generalizing world with
  | nil =>
      exact List.nil_prefix
  | cons bytes writes inductionHypothesis =>
      have later := inductionHypothesis (world.afterCall destination)
      have called := world.afterCall_changed destination
      rw [funext (called.delivery destination)] at later
      refine List.cons_prefix_cons.mpr ⟨rfl, ?_⟩
      cases world.reactionAt destination 0 with
      | accept =>
          exact later
      | panic =>
          exact List.nil_prefix

theorem callsMade_whole {writes : List Bytes}
    (calm : ∀ call ∈ world.callsMade destination writes,
      call.panic? = none) :
    (world.callsMade destination writes).map SinkCall.delivery =
      writes.map (world.surroundings.delivery destination) := by
  induction writes generalizing world with
  | nil =>
      rfl
  | cons bytes writes inductionHypothesis =>
      have called := world.afterCall_changed destination
      rw [callsMade] at calm ⊢
      cases reacts : world.reactionAt destination 0 with
      | accept changes =>
          rw [reacts] at calm
          have later := inductionHypothesis fun call member =>
            calm call (List.mem_cons_of_mem _ member)
          rw [funext (called.delivery destination)] at later
          exact congrArg _ later
      | panic text =>
          have impossible := calm _ List.mem_cons_self
          rw [SinkCall.panic?, reacts] at impossible
          cases impossible

theorem callsMade_of_heeds {assigned : Nat → List Change}
    (heeds : world.Heeds destination assigned) (writes : List Bytes) :
    (world.callsMade destination writes).map SinkCall.delivery =
      writes.map (world.surroundings.delivery destination) := by
  induction writes generalizing world assigned with
  | nil =>
      rfl
  | cons bytes writes inductionHypothesis =>
      have called := world.afterCall_changed destination
      have later := inductionHypothesis heeds.afterCall
      rw [funext (called.delivery destination)] at later
      rw [callsMade, heeds.accepts 0]
      exact congrArg _ later

private theorem callsMade_holdingOutput (world : World)
    (destination : Destination) (writes : List Bytes) :
    world.holdingOutput.callsMade destination writes =
      world.callsMade destination writes := by
  induction writes generalizing world with
  | nil =>
      rfl
  | cons bytes writes inductionHypothesis =>
      have reacts : world.holdingOutput.reactionAt destination 0 =
          world.reactionAt destination 0 := by
        cases destination <;> rfl
      simp only [callsMade, reacts, afterCall_holdingOutput,
        inductionHypothesis]
      rfl

end World

namespace Logger

open Script

variable {world : World}

private theorem makeChange_sinkCalls (change : Change) (world : World) :
    (makeChange change).sinkCalls world = [] := by
  cases change with
  | linePrefix text =>
      have prepares : (setPrefix text).Prepares :=
        .bind (.apart rfl) fun _ => .bind (.apart rfl) fun _ => .apart rfl
      exact prepares.sinkCalls world
  | destination | colorMode | rearm =>
      rfl

private theorem makeChanges_sinkCalls (changes : List Change) (world : World) :
    (makeChanges changes).sinkCalls world = [] := by
  induction changes generalizing world with
  | nil =>
      rfl
  | cons change changes inductionHypothesis =>
      rw [makeChanges, sinkCalls_bind, makeChange_sinkCalls]
      unfold Outcome.laterCalls
      cases ((makeChange change).run world).ending with
      | returned =>
          exact inductionHypothesis _
      | panicked | waiting =>
          rfl

theorem write_sinkCalls {destination : Destination} {bytes : Bytes}
    (nonempty : bytes ≠ []) :
    (write destination bytes).sinkCalls world =
      [{ delivery := world.surroundings.delivery destination bytes
         reaction := world.reactionAt destination 0 }] := by
  rw [write, if_neg nonempty]
  change Script.sinkCalls (.step (.deliver destination bytes) _) world = _
  rw [Script.sinkCalls, Action.perform_deliver_eq]
  refine congrArg (List.cons _) ?_
  cases world.reactionAt destination 0 with
  | accept changes =>
      exact makeChanges_sinkCalls changes _
  | panic text =>
      rfl

theorem writeAll_sinkCalls {destination : Destination} {writes : List Bytes}
    (free : world.configLock.holder = none)
    (nonempty : ∀ bytes ∈ writes, bytes ≠ []) :
    (writeAll destination writes).sinkCalls world =
      world.callsMade destination writes := by
  induction writes generalizing world with
  | nil =>
      rfl
  | cons bytes writes inductionHypothesis =>
      have called := world.afterCall_changed destination
      have first : bytes ≠ [] := nonempty bytes List.mem_cons_self
      rw [writeAll, sinkCalls_bind, write_sinkCalls first, World.callsMade]
      refine congrArg (List.cons _) ?_
      cases reacts : world.reactionAt destination 0 with
      | accept changes =>
          rw [run_write_of_accept first free reacts]
          apply inductionHypothesis
          · rw [called.configLock]
            exact free
          · intro other member
            exact nonempty other (List.mem_cons_of_mem _ member)
      | panic text =>
          rw [run_write_of_panic first reacts]
          rfl

theorem writeRaw_sinkCalls {bytes : Bytes} (nonempty : bytes ≠ [])
    (world : World) :
    (writeRaw bytes).sinkCalls world =
      [{ delivery :=
          world.surroundings.delivery (world.get .destination) bytes
         reaction := world.reactionAt (world.get .destination) 0 }] := by
  rw [writeRaw, sinkCalls_load_bind, write_sinkCalls nonempty]

/-! ### The calls of a line -/

private theorem readClock_sinkCalls_bind {α : Type}
    (continuation : ClockTime → Script α) (world : World) :
    (perform .readClock >>= continuation).sinkCalls world =
      (continuation world.surroundings.clock).sinkCalls world := rfl

private theorem lineWriter_sinkCalls_bind {α : Type}
    (continuation : LineWriter → Script α) (world : World) :
    (lineWriter >>= continuation).sinkCalls world =
      (continuation
        { destination := world.get .destination
          colored := world.colored }).sinkCalls world := rfl

section Emit

variable {now : World} (writer : LineWriter)

private theorem putSite_sinkCalls (changed : world.ChangedBySinks now)
    (site : CallSite) :
    (writer.putSite site).sinkCalls now =
      (writer.put (if world.get .sourceLocation then Line.siteGroup site
        else [])).sinkCalls now := by
  rw [LineWriter.putSite, sinkCalls_load_bind,
    changed.cells .sourceLocation rfl]
  cases world.get .sourceLocation with
  | false | true =>
      rfl

private theorem body_sinkCalls (free : world.configLock.holder = none)
    (changed : world.ChangedBySinks now) (linePrefix : LinePrefix)
    (entry : Entry) (message : String) :
    (do
      let host ← perform .readHost
      writer.put (Line.heading host.processId linePrefix entry.level)
      writer.putSite entry.site
      writer.putModule entry.moduleName
      writer.put (Line.messageGroup message) : Script Unit).sinkCalls now =
      (writer.put (Line.body world.surroundings.host.processId linePrefix
        entry (world.get .sourceLocation) message)).sinkCalls now := by
  have freeNow : now.configLock.holder = none := by
    rw [changed.configLock]
    exact free
  change Script.sinkCalls (writer.put (Line.heading
    now.surroundings.host.processId linePrefix entry.level) >>= _) now = _
  rw [changed.host, Line.body, put_append]
  apply sinkCalls_bind_congr
  intro _ _
  have later := changed.trans (put_changed freeNow writer (Line.heading
    world.surroundings.host.processId linePrefix entry.level))
  rw [sinkCalls_bind_of_same (run_putSite writer later entry.site)
    (putSite_sinkCalls writer later entry.site), put_append, put_append,
    putModule_eq]

private theorem putTimestamp_sinkCalls {stamp : List Fragment}
    (stamped : world.stamp? = some stamp) :
    writer.putTimestamp.sinkCalls world =
      (writer.put stamp).sinkCalls world := by
  revert stamped
  unfold World.stamp?
  rw [LineWriter.putTimestamp, sinkCalls_load_bind]
  cases world.get .timestamps with
  | false =>
      intro same
      cases same
      rfl
  | true =>
      intro stamped
      rw [if_pos rfl] at stamped ⊢
      rw [currentInstant, bind_assoc, readClock_sinkCalls_bind]
      cases reads : world.surroundings.clock.read with
      | error fault =>
          rw [reads] at stamped
          cases stamped
      | ok now =>
          rw [reads] at stamped
          cases stamped
          rfl

private theorem putTimestamp_sinkCalls_of_fault
    (on : world.get .timestamps = true) {fault : ClockFault}
    (reads : world.surroundings.clock.read = .error fault) :
    writer.putTimestamp.sinkCalls world = [] := by
  rw [LineWriter.putTimestamp, sinkCalls_load_bind, on, if_pos rfl,
    currentInstant, bind_assoc, readClock_sinkCalls_bind, reads]
  rfl

end Emit

private theorem emit_sinkCalls (free : world.configLock.holder = none)
    (entry : Entry) (message : String) :
    (emit (world.get .linePrefix) entry message).sinkCalls world =
      world.callsMade (world.get .destination)
        (world.lineWrites entry message) := by
  rw [emit, lineWriter_sinkCalls_bind]
  by_cases stamps : world.Stamps
  · obtain ⟨stamp, stamped⟩ :=
      Option.isSome_iff_exists.mp (World.stamp?_isSome.mpr stamps)
    rw [World.lineWrites,
      ← writeAll_sinkCalls free (Fragment.writes_nonempty _ _),
      World.lineFragments, stamped,
      sinkCalls_bind_of_same (run_putTimestamp _ stamped)
        (putTimestamp_sinkCalls _ stamped)]
    change _ = (writeAll
      ({ destination := world.get .destination, colored := world.colored } :
        LineWriter).destination _).sinkCalls world
    rw [← put_eq, put_append]
    apply sinkCalls_bind_congr
    intro _ _
    exact body_sinkCalls _ free (put_changed free _ _) _ _ _
  · obtain ⟨fault, on, reads, none⟩ := World.of_not_stamps stamps
    rw [none, sinkCalls_bind, putTimestamp_sinkCalls_of_fault _ on reads,
      run_putTimestamp_of_fault _ on reads]
    rfl

private theorem withOutputLock_sinkCalls (free : world.outputLock.holder = none)
    (body : Script Unit) :
    (withOutputLock body).sinkCalls world =
      body.sinkCalls world.holdingOutput := by
  have unheld : (world.lock .output).holder = none := free
  change Script.sinkCalls (.step (.acquire .output) _) world = _
  rw [Script.sinkCalls, Action.perform_acquire unheld]
  change Script.sinkCalls (attempt body >>= _) world.holdingOutput = _
  rw [sinkCalls_bind, sinkCalls_attempt, run_attempt]
  unfold Outcome.laterCalls Outcome.caught
  cases (body.run world.holdingOutput).ending with
  | returned | panicked | waiting =>
      exact List.append_nil _

private theorem prefixSnapshot_sinkCalls_bind {α : Type}
    (free : world.configLock.holder = none)
    (continuation : LinePrefix → Script α) :
    (prefixSnapshot >>= continuation).sinkCalls world =
      (continuation (world.get .linePrefix)).sinkCalls world :=
  prefixSnapshot_prepares.sinkCalls_bind
    (run_readUnderLock .linePrefix (fun linePrefix => pure linePrefix) free)
    continuation

theorem writeLine_sinkCalls (rest : world.AtRest) (entry : Entry)
    (message : String) :
    (writeLine entry message).sinkCalls world =
      world.callsMade (world.get .destination)
        (world.lineWrites entry message) := by
  rw [writeLine, prefixSnapshot_sinkCalls_bind rest.configFree,
    sinkCalls_load_bind]
  cases world.get .threadSafe with
  | false =>
      exact emit_sinkCalls rest.configFree entry message
  | true =>
      have freeHeld : world.holdingOutput.configLock.holder = none :=
        rest.configFree
      have emits := emit_sinkCalls freeHeld entry message
      rw [World.callsMade_holdingOutput] at emits
      exact (withOutputLock_sinkCalls rest.outputFree _).trans emits

theorem writeHeading_sinkCalls (free : world.configLock.holder = none)
    (level : Level) :
    (writeHeading level).sinkCalls world =
      world.callsMade (world.get .destination) (world.headingWrites level) := by
  rw [writeHeading, prefixSnapshot_sinkCalls_bind free,
    lineWriter_sinkCalls_bind, World.headingWrites,
    ← writeAll_sinkCalls free (Fragment.writes_nonempty _ _)]
  change (LineWriter.put _ _).sinkCalls world = _
  rw [put_eq]
  rfl

end Logger

theorem Output.sinkCalls_eq {world : World} (rest : world.AtRest)
    (output : Output) :
    output.script.sinkCalls world =
      world.callsMade (world.get .destination) (output.writes world) := by
  cases output with
  | line entry message =>
      exact Logger.writeLine_sinkCalls rest entry message
  | heading level =>
      exact Logger.writeHeading_sinkCalls rest.configFree level

/-! ### The calls of a call to log -/

theorem World.ready_delivery {world : World} (rest : world.AtRest)
    (destination : Destination) :
    world.ready.surroundings.delivery destination =
      world.surroundings.delivery destination := by
  obtain ⟨_, _, same⟩ := (world.ready_periphery rest).surroundings
  funext bytes
  rw [same]
  rfl

namespace Logger

open Script

variable {world : World} {entry : Entry}

private theorem wouldLog_prepares (level : Level) (moduleName : Option String) :
    (wouldLog level moduleName).Prepares := by
  rw [wouldLog_eq]
  exact .bind initOnce_prepares fun _ => gates_prepares level moduleName

private theorem log_sinkCalls (rest : world.AtRest)
    (asked : ((wouldLog entry.level entry.moduleName).run world).ending =
      .returned true) (render : Script (Option String)) :
    (log entry render).sinkCalls world =
      render.sinkCalls world.ready ++
        (render.run world.ready).laterCalls (writeRendered entry) := by
  rw [log, (wouldLog_prepares _ _).sinkCalls_bind
    (wouldLog_answers rest asked).1]
  exact sinkCalls_bind render (writeRendered entry) world.ready

/-- A call to log that has rendered a message writes a line where rendering
has led to. -/
theorem log_sinkCalls_of_rendered (rest : world.AtRest)
    (asked : ((wouldLog entry.level entry.moduleName).run world).ending =
      .returned true) {render : Script (Option String)} {text : String}
    (rendered : (render.run world.ready).ending = .returned (some text))
    (nonempty : text ≠ "") :
    (log entry render).sinkCalls world =
      render.sinkCalls world.ready ++
        (Output.line entry text).script.sinkCalls
          (render.run world.ready).world := by
  rw [log_sinkCalls rest asked, Outcome.laterCalls, rendered]
  change _ ++ Script.sinkCalls (if text = "" then pure () else _) _ = _
  rw [if_neg nonempty]
  rfl

private theorem writeRendered_sinkCalls (rest : world.AtRest) (entry : Entry)
    (rendered : Option String) :
    (writeRendered entry rendered).sinkCalls world =
      world.callsMade (world.get .destination)
        (world.renderedWrites entry rendered) := by
  cases rendered with
  | none =>
      rw [World.renderedWrites, World.callsMade_singleton]
      exact writeRaw_sinkCalls (by decide) world
  | some text =>
      by_cases empty : text = ""
      · rw [writeRendered, World.renderedWrites, if_pos empty, if_pos empty]
        rfl
      · rw [writeRendered, World.renderedWrites, if_neg empty, if_neg empty]
        exact writeLine_sinkCalls rest entry text

/-- A call to log whose message makes no calls calls the destination for what
the message is rendered to, if it passes. -/
theorem log_sinkCalls_of_inert (rest : world.AtRest) {entry : Entry}
    {message : Message} (inert : message.isInert = true) {answer : Bool}
    (asked : ((wouldLog entry.level entry.moduleName).run world).ending =
      .returned answer) :
    (log entry message.render).sinkCalls world =
      if answer then
        world.ready.callsMade (world.get .destination)
          (world.renderedWrites entry message.rendering)
      else
        [] := by
  have same := world.ready_periphery rest
  cases answer with
  | false =>
      rw [log, (wouldLog_prepares _ _).sinkCalls_bind
        (wouldLog_answers rest asked).1]
      rfl
  | true =>
      rw [if_pos rfl, log_sinkCalls rest asked, Message.render_inert inert]
      change (writeRendered entry message.rendering).sinkCalls world.ready = _
      rw [writeRendered_sinkCalls (world.ready_atRest rest),
        same.renderedWrites, same.cells .destination rfl]

end Logger

end LeveledLog
