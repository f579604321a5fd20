/-
The writes that a line is made of.

A line is a list of fragments, which are settled when the line starts: by the
settings and the surroundings at that moment, by the entry, and by the
message.  Writing the line is writing the bytes of these fragments to the
destination of that moment, each in a write of its own and without the empty
ones, whatever sinks do meanwhile.  The heading that can be written by itself
is made in the same way.
-/

import LeveledLog.Proofs.LineWriting
import LeveledLog.Proofs.Sending

namespace LeveledLog

/-! ### Fragments -/

/-- The writes of fragments; a fragment without bytes is not written. -/
def Fragment.writes (colored : Bool) (fragments : List Fragment) :
    List Bytes :=
  (fragments.map (Fragment.bytes colored)).filter fun bytes => bytes ≠ []

theorem Fragment.writes_nonempty (colored : Bool)
    (fragments : List Fragment) :
    ∀ bytes ∈ writes colored fragments, bytes ≠ [] := by
  intro bytes member
  simpa using (List.mem_filter.mp member).2

theorem Fragment.writes_append (colored : Bool)
    (earlier later : List Fragment) :
    writes colored (earlier ++ later) =
      writes colored earlier ++ writes colored later := by
  unfold writes
  rw [List.map_append, List.filter_append]

namespace Line

def body (processId : UInt32) (linePrefix : LinePrefix) (entry : Entry)
    (showsSite : Bool) (message : String) : List Fragment :=
  heading processId linePrefix entry.level ++
    ((if showsSite then siteGroup entry.site else []) ++
      (entry.moduleName.elim [] moduleGroup ++ messageGroup message))

end Line

namespace World

def colored (world : World) : Bool :=
  (world.get .colorMode).enabled world.surroundings.host.terminal

/-- The timestamp of a line, if lines begin with one; there is none if the
clock cannot be read. -/
def stamp? (world : World) : Option (List Fragment) :=
  if world.get .timestamps then
    match world.surroundings.clock.read with
    | .ok now => some [.raw now.timestamp]
    | .error _ => none
  else
    some []

def lineFragments (world : World) (entry : Entry) (message : String) :
    List Fragment :=
  match world.stamp? with
  | some stamp =>
      stamp ++ Line.body world.surroundings.host.processId
        (world.get .linePrefix) entry (world.get .sourceLocation) message
  | none => []

/-- The writes of a line that starts now; there are none if it has to begin
with a timestamp and the clock cannot be read. -/
def lineWrites (world : World) (entry : Entry) (message : String) :
    List Bytes :=
  Fragment.writes world.colored (world.lineFragments entry message)

def headingWrites (world : World) (level : Level) : List Bytes :=
  Fragment.writes world.colored
    (Line.heading world.surroundings.host.processId (world.get .linePrefix)
      level ++ [.text " "])

theorem stamp?_isSome {world : World} :
    world.stamp?.isSome = true ↔ world.Stamps := by
  unfold stamp? Stamps
  cases world.get .timestamps with
  | false =>
      simp
  | true =>
      cases world.surroundings.clock.read with
      | ok now =>
          simp
      | error fault =>
          simp

/-- A line that cannot have its timestamp has no writes. -/
theorem of_not_stamps {world : World} (fails : ¬ world.Stamps) :
    ∃ fault, world.get .timestamps = true ∧
      world.surroundings.clock.read = .error fault ∧
      ∀ entry message, world.lineWrites entry message = [] := by
  have on : world.get .timestamps = true := by
    by_contra off
    exact fails fun on => absurd on off
  have unstamped : world.stamp? = none := by
    rw [← Option.not_isSome_iff_eq_none, stamp?_isSome]
    exact fails
  cases reads : world.surroundings.clock.read with
  | ok now =>
      exact absurd (fun _ => ⟨now, reads⟩) fails
  | error fault =>
      refine ⟨fault, on, rfl, ?_⟩
      intro entry message
      rw [lineWrites, lineFragments, unstamped]
      rfl

end World

/-! ### Writing the fragments of a line -/

namespace Script

variable {α β : Type}

theorem run_bind_congr {script : Script α} {first second : α → Script β}
    {world : World}
    (same : ∀ value, (script.run world).ending = .returned value →
      (first value).run (script.run world).world =
        (second value).run (script.run world).world) :
    (script >>= first).run world = (script >>= second).run world := by
  rw [run_bind, run_bind]
  unfold Outcome.andThen
  cases ending : (script.run world).ending with
  | returned value =>
      simp only [same value ending]
  | panicked | waiting =>
      rfl

theorem run_bind_of_returned {script : Script α} {world : World} {value : α}
    (returned : (script.run world).ending = .returned value)
    (continuation : α → Script β) :
    (script >>= continuation).run world =
      ((continuation value).run (script.run world).world).after
        (script.run world).accepted := by
  rw [run_bind]
  unfold Outcome.andThen
  rw [returned]

/-- A script may be replaced by one that does the same where it starts. -/
theorem run_bind_of_run {first second : Script α} {world : World}
    (same : first.run world = second.run world)
    (continuation : α → Script β) :
    (first >>= continuation).run world =
      (second >>= continuation).run world := by
  rw [run_bind, run_bind, same]

private theorem run_readHost_bind (continuation : Host → Script α)
    (world : World) :
    (perform .readHost >>= continuation).run world =
      (continuation world.surroundings.host).run world := rfl

private theorem run_readClock_bind (continuation : ClockTime → Script α)
    (world : World) :
    (perform .readClock >>= continuation).run world =
      (continuation world.surroundings.clock).run world := rfl

end Script

namespace Logger

open Script

private theorem run_lineWriter_bind {α : Type}
    (continuation : LineWriter → Script α) (world : World) :
    (lineWriter >>= continuation).run world =
      (continuation
        { destination := world.get .destination
          colored := world.colored }).run world := rfl

theorem put_eq (writer : LineWriter) (fragments : List Fragment) :
    writer.put fragments =
      writeAll writer.destination
        (Fragment.writes writer.colored fragments) := by
  unfold Fragment.writes
  rw [writeAll_filter]
  induction fragments with
  | nil =>
      rfl
  | cons fragment fragments inductionHypothesis =>
      rw [LineWriter.put, inductionHypothesis]
      rfl

theorem put_append (writer : LineWriter) (earlier later : List Fragment) :
    writer.put (earlier ++ later) =
      (writer.put earlier >>= fun _ => writer.put later) := by
  simp only [put_eq, Fragment.writes_append, writeAll_append]

theorem put_changed {world : World} (free : world.configLock.holder = none)
    (writer : LineWriter) (fragments : List Fragment) :
    world.ChangedBySinks ((writer.put fragments).run world).world := by
  rw [put_eq]
  exact writeAll_changed free (Fragment.writes_nonempty _ _)

section Emit

variable {world now : World} (writer : LineWriter)

theorem run_putSite (changed : world.ChangedBySinks now) (site : CallSite) :
    (writer.putSite site).run now =
      (writer.put (if world.get .sourceLocation then Line.siteGroup site
        else [])).run now := by
  rw [LineWriter.putSite, run_load_bind, changed.cells .sourceLocation rfl]
  cases world.get .sourceLocation with
  | false | true =>
      rfl

theorem putModule_eq (moduleName : Option String) :
    writer.putModule moduleName =
      writer.put (moduleName.elim [] Line.moduleGroup) := by
  cases moduleName with
  | none | some =>
      rfl

private theorem run_body (free : world.configLock.holder = none)
    (changed : world.ChangedBySinks now) (linePrefix : LinePrefix)
    (entry : Entry) (message : String) :
    (do
      let host ← perform .readHost
      writer.put (Line.heading host.processId linePrefix entry.level)
      writer.putSite entry.site
      writer.putModule entry.moduleName
      writer.put (Line.messageGroup message) : Script Unit).run now =
      (writer.put (Line.body world.surroundings.host.processId linePrefix
        entry (world.get .sourceLocation) message)).run now := by
  have freeNow : now.configLock.holder = none := by
    rw [changed.configLock]
    exact free
  rw [run_readHost_bind, changed.host, Line.body, put_append]
  apply run_bind_congr
  intro _ _
  have later := changed.trans (put_changed freeNow writer (Line.heading
    world.surroundings.host.processId linePrefix entry.level))
  rw [run_bind_of_run (run_putSite writer later entry.site), put_append,
    put_append, putModule_eq]

theorem run_putTimestamp {stamp : List Fragment}
    (stamped : world.stamp? = some stamp) :
    writer.putTimestamp.run world = (writer.put stamp).run world := by
  revert stamped
  unfold World.stamp?
  rw [LineWriter.putTimestamp, run_load_bind]
  cases world.get .timestamps with
  | false =>
      intro same
      cases same
      rfl
  | true =>
      intro stamped
      rw [if_pos rfl] at stamped ⊢
      rw [currentInstant, bind_assoc, run_readClock_bind]
      cases reads : world.surroundings.clock.read with
      | error fault =>
          rw [reads] at stamped
          cases stamped
      | ok now =>
          rw [reads] at stamped
          cases stamped
          rfl

theorem run_putTimestamp_of_fault (on : world.get .timestamps = true)
    {fault : ClockFault} (reads : world.surroundings.clock.read = .error fault) :
    writer.putTimestamp.run world =
      { ending := .panicked fault.message, world := world
        accepted := [] } := by
  rw [LineWriter.putTimestamp, run_load_bind, on, if_pos rfl, currentInstant,
    bind_assoc, run_readClock_bind, reads]
  rfl

end Emit

variable {world : World}

private theorem run_emit (free : world.configLock.holder = none)
    (stamps : world.Stamps) (entry : Entry) (message : String) :
    (emit (world.get .linePrefix) entry message).run world =
      (writeAll (world.get .destination)
        (world.lineWrites entry message)).run world := by
  obtain ⟨stamp, stamped⟩ :=
    Option.isSome_iff_exists.mp (World.stamp?_isSome.mpr stamps)
  rw [World.lineWrites, World.lineFragments, stamped, emit,
    run_lineWriter_bind, run_bind_of_run (run_putTimestamp _ stamped)]
  change _ = (writeAll
    ({ destination := world.get .destination, colored := world.colored } :
      LineWriter).destination _).run world
  rw [← put_eq, put_append]
  apply run_bind_congr
  intro _ _
  exact run_body _ free (put_changed free _ _) _ _ _

private theorem run_emit_of_fault (on : world.get .timestamps = true)
    {fault : ClockFault} (reads : world.surroundings.clock.read = .error fault)
    (linePrefix : LinePrefix) (entry : Entry) (message : String) :
    (emit linePrefix entry message).run world =
      { ending := .panicked fault.message, world := world
        accepted := [] } := by
  rw [emit, run_lineWriter_bind, run_bind,
    run_putTimestamp_of_fault _ on reads]
  rfl

/-! ### Lines and headings -/

theorem run_writeHeading (free : world.configLock.holder = none)
    (level : Level) :
    (writeHeading level).run world =
      (writeAll (world.get .destination)
        (world.headingWrites level)).run world := by
  rw [writeHeading, prefixSnapshot]
  simp only [bind_assoc, pure_bind]
  rw [run_readUnderLock .linePrefix _ free, run_lineWriter_bind,
    run_readHost_bind, put_eq]
  rfl

theorem run_writeRaw (bytes : Bytes) :
    (writeRaw bytes).run world =
      (writeAll (world.get .destination)
        ([bytes].filter fun bytes => bytes ≠ [])).run world := by
  rw [writeAll_filter, writeRaw, run_load_bind, writeAll, writeAll,
    bind_pure_unit]

end Logger

namespace World

/-- The world while the output lock is held by a call that runs alone. -/
def holdingOutput (world : World) : World :=
  world.setLock .output { world.outputLock with holder := some 0 }

def givingOutputUp (world : World) (panicked : Bool) : World :=
  world.setLock .output
    { holder := none, poisoned := world.outputLock.poisoned || panicked }

theorem afterCall_holdingOutput (world : World) (destination : Destination) :
    world.holdingOutput.afterCall destination =
      (world.afterCall destination).holdingOutput := by
  have lock := (world.afterCall_changed destination).outputLock
  unfold holdingOutput
  rw [lock]
  cases destination with
  | standard | sink =>
      rfl

theorem givingOutputUp_of_free {world : World}
    (free : world.outputLock.holder = none) :
    world.givingOutputUp false = world := by
  rcases world with
    ⟨settings, configLock, ⟨holder, poisoned⟩, initialisation, surroundings⟩
  change holder = none at free
  subst free
  cases poisoned with
  | false | true =>
      rfl

end World

def Outcome.panicked {α : Type} (outcome : Outcome α) : Bool :=
  match outcome.ending with
  | .panicked _ => true
  | .returned _ | .waiting => false

namespace Logger

open Script

variable {world : World}

private theorem writeAll_peripheral {output : Bool} (destination : Destination)
    (writes : List Bytes) :
    (writeAll destination writes).Peripheral output := by
  induction writes with
  | nil =>
      exact .value ()
  | cons bytes writes inductionHypothesis =>
      exact .bind (write_peripheral destination bytes) fun _ =>
        inductionHypothesis

theorem run_writeAll_holdingOutput {destination : Destination}
    {writes : List Bytes} (free : world.configLock.holder = none)
    (nonempty : ∀ bytes ∈ writes, bytes ≠ []) :
    (writeAll destination writes).run world.holdingOutput =
      { (writeAll destination writes).run world with
        world := ((writeAll destination writes).run
          world).world.holdingOutput } := by
  induction writes generalizing world with
  | nil =>
      rfl
  | cons bytes writes inductionHypothesis =>
      have called := world.afterCall_changed destination
      have first : bytes ≠ [] := nonempty bytes List.mem_cons_self
      have reacts : world.holdingOutput.reactionAt destination 0 =
          world.reactionAt destination 0 := by
        cases destination <;> rfl
      rw [writeAll, run_bind, run_bind]
      cases reaction : world.reactionAt destination 0 with
      | accept changes =>
          have freeHeld : world.holdingOutput.configLock.holder = none := free
          have freeStill : (world.afterCall destination).configLock.holder =
              none := by
            rw [called.configLock]
            exact free
          have later := inductionHypothesis freeStill fun other member =>
            nonempty other (List.mem_cons_of_mem _ member)
          rw [run_write_of_accept first freeHeld (reacts.trans reaction),
            run_write_of_accept first free reaction,
            World.afterCall_holdingOutput]
          simp only [Outcome.andThen, later]
          rfl
      | panic text =>
          rw [run_write_of_panic first (reacts.trans reaction),
            run_write_of_panic first reaction,
            World.afterCall_holdingOutput]
          rfl

/-- What does the same while the output lock is held is done under it, and
nothing but a panic of it poisons the lock. -/
theorem run_underOutputLock {body : Script Unit} {outcome : Outcome Unit}
    (free : world.outputLock.holder = none)
    (held : body.run world.holdingOutput =
      { outcome with world := outcome.world.holdingOutput })
    (ends : outcome.ending ≠ .waiting) :
    (withOutputLock body).run world =
      { outcome with
        world := outcome.world.givingOutputUp outcome.panicked } := by
  have unheld : (world.lock .output).holder = none := free
  rw [withOutputLock, run_bind, run_perform, Action.perform_acquire unheld]
  change ((attempt body >>= _).run world.holdingOutput).after [] = _
  rw [Outcome.after_nil, run_bind, run_attempt, held]
  rcases outcome with ⟨ending, after, accepted⟩
  cases ending with
  | returned | panicked =>
      exact congrArg (Outcome.mk _ _) (List.append_nil accepted)
  | waiting =>
      exact absurd rfl ends

private theorem run_writeLine_eq (free : world.configLock.holder = none)
    (entry : Entry) (message : String) :
    (writeLine entry message).run world =
      (if world.get .threadSafe then
        withOutputLock (emit (world.get .linePrefix) entry message)
      else
        emit (world.get .linePrefix) entry message).run world := by
  rw [writeLine, prefixSnapshot]
  simp only [bind_assoc, pure_bind]
  rw [run_readUnderLock .linePrefix _ free, run_load_bind]

/-- A line that can be stamped is its writes, and poisons the output lock if
it has taken it and the destination panics. -/
theorem run_writeLine_of_stamps (rest : world.AtRest)
    (stamps : world.Stamps) (entry : Entry) (message : String) :
    let sent := (writeAll (world.get .destination)
      (world.lineWrites entry message)).run world
    (writeLine entry message).run world =
      { sent with
        world := sent.world.givingOutputUp
          (world.get .threadSafe && sent.panicked) } := by
  intro sent
  have nonempty := Fragment.writes_nonempty world.colored
    (world.lineFragments entry message)
  rw [run_writeLine_eq rest.configFree]
  cases world.get .threadSafe with
  | false =>
      have changed : world.ChangedBySinks sent.world :=
        writeAll_changed rest.configFree nonempty
      have free : sent.world.outputLock.holder = none := by
        rw [changed.outputLock]
        exact rest.outputFree
      rw [if_neg Bool.false_ne_true, run_emit rest.configFree stamps,
        Bool.false_and, World.givingOutputUp_of_free free]
  | true =>
      have freeHeld : world.holdingOutput.configLock.holder = none :=
        rest.configFree
      have held : (emit (world.get .linePrefix) entry message).run
          world.holdingOutput =
            { sent with world := sent.world.holdingOutput } :=
        (run_emit freeHeld stamps entry message).trans
          (run_writeAll_holdingOutput rest.configFree nonempty)
      have ends : sent.ending ≠ .waiting :=
        (Script.Peripheral.run (writeAll_peripheral _ _) rest).2.2
      rw [if_pos rfl, run_underOutputLock rest.outputFree held ends,
        Bool.true_and]

/-- A line that starts while its destination never panics: the destination
accepts the writes of the line, and nothing else happens but what it does. -/
theorem run_writeLine_of_heeds (rest : world.AtRest) (stamps : world.Stamps)
    {assigned : Nat → List Change}
    (heeds : world.Heeds (world.get .destination) assigned) (entry : Entry)
    (message : String) :
    (writeLine entry message).run world =
      { ending := .returned ()
        world := world.afterCalls (world.get .destination)
          (world.lineWrites entry message).length
        accepted :=
          (world.lineWrites entry message).map world.delivers } := by
  have changed := world.afterCalls_changed (world.get .destination)
    (world.lineWrites entry message).length
  have sends := run_writeAll heeds rest.configFree
    (Fragment.writes_nonempty world.colored
      (world.lineFragments entry message))
  refine (run_writeLine_of_stamps rest stamps entry message).trans ?_
  rw [World.lineWrites, sends, Outcome.panicked, Bool.and_false]
  exact congrArg (Outcome.mk _ · _)
    (World.givingOutputUp_of_free (changed.atRest rest).outputFree)

theorem run_writeLine_of_fault (rest : world.AtRest)
    (on : world.get .timestamps = true) {fault : ClockFault}
    (reads : world.surroundings.clock.read = .error fault) (entry : Entry)
    (message : String) :
    ∃ poisoned, (writeLine entry message).run world =
      { ending := .panicked fault.message
        world :=
          { world with
            outputLock := { holder := none, poisoned := poisoned } }
        accepted := [] } := by
  rw [run_writeLine_eq rest.configFree]
  cases world.get .threadSafe with
  | false =>
      refine ⟨world.outputLock.poisoned, ?_⟩
      rw [if_neg Bool.false_ne_true, run_emit_of_fault on reads,
        ← rest.outputFree]
  | true =>
      have onHeld : world.holdingOutput.get .timestamps = true := on
      let outcome : Outcome Unit :=
        { ending := .panicked fault.message, world := world, accepted := [] }
      have held : (emit (world.get .linePrefix) entry message).run
          world.holdingOutput =
            { outcome with world := outcome.world.holdingOutput } :=
        run_emit_of_fault onHeld reads (world.get .linePrefix) entry message
      have ends : outcome.ending ≠ .waiting := by
        intro impossible
        cases impossible
      refine ⟨world.outputLock.poisoned || true, ?_⟩
      rw [if_pos rfl, run_underOutputLock rest.outputFree held ends]
      rfl

theorem writeLine_settings (rest : world.AtRest) (entry : Entry)
    (message : String) :
    ((writeLine entry message).run world).world.settings =
      world.settings.changeAll
        (world.changesMade (world.get .destination)
          (world.lineWrites entry message).length) := by
  by_cases stamps : world.Stamps
  · rw [run_writeLine_of_stamps rest stamps]
    exact writeAll_settings rest.configFree (Fragment.writes_nonempty _ _)
  · obtain ⟨fault, on, reads, none⟩ := World.of_not_stamps stamps
    obtain ⟨_, fails⟩ := run_writeLine_of_fault rest on reads entry message
    rw [fails, none]
    rfl

end Logger

end LeveledLog
