/-
What becomes of bytes that are sent to a destination.

A destination that is called with the bytes of one write may panic, or make
changes to the logger before it returns.  Whatever it does, it changes nothing
but the destination, the line prefix and the colour mode, and how sinks react
later.  Several writes to one destination all go to it: if it never panics, it
accepts exactly these writes, in order, and the settings afterwards are those
that its changes, made in order, lead to.
-/

import LeveledLog.Proofs.Answers

namespace LeveledLog

/-! ### Changes -/

def Settings.change (settings : Settings) : Change → Settings
  | .destination destination => settings.set .destination destination
  | .linePrefix text =>
      settings.set .linePrefix (InlineText.truncating text)
  | .colorMode mode => settings.set .colorMode mode
  | .rearm _ _ => settings

def Settings.changeAll (settings : Settings) (changes : List Change) :
    Settings :=
  changes.foldl Settings.change settings

def Surroundings.change (surroundings : Surroundings) :
    Change → Surroundings
  | .rearm name reactions => surroundings.arm name reactions
  | .destination _ | .linePrefix _ | .colorMode _ => surroundings

def World.changeAll (world : World) (changes : List Change) : World :=
  { world with
    settings := world.settings.changeAll changes
    surroundings := changes.foldl Surroundings.change world.surroundings }

/-- Whether a sink can change a cell of the logger that calls it. -/
def Cell.isOpenToSinks : Cell → Bool
  | .destination | .linePrefix | .colorMode => true
  | .enabled | .minLevel | .timestamps | .sourceLocation => false
  | .threadSafe | .levelClaimed | .modulesClaimed => false
  | .filterActive | .modules => false

namespace Settings

private theorem changeAll_append (settings : Settings)
    (earlier later : List Change) :
    settings.changeAll (earlier ++ later) =
      (settings.changeAll earlier).changeAll later :=
  List.foldl_append

private theorem change_get (settings : Settings) (change : Change) {cell : Cell}
    (closed : cell.isOpenToSinks = false) :
    (settings.change change).get cell = settings.get cell := by
  cases change with
  | rearm name reactions =>
      rfl
  | destination | linePrefix | colorMode =>
      apply Settings.get_set_of_ne
      intro same
      subst same
      cases closed

private theorem changeAll_get (settings : Settings) (changes : List Change)
    {cell : Cell} (closed : cell.isOpenToSinks = false) :
    (settings.changeAll changes).get cell = settings.get cell := by
  induction changes generalizing settings with
  | nil =>
      rfl
  | cons change changes inductionHypothesis =>
      exact (inductionHypothesis _).trans (settings.change_get change closed)

end Settings

private theorem Surroundings.changeAll_eq (surroundings : Surroundings)
    (changes : List Change) :
    ∃ sinks, changes.foldl Surroundings.change surroundings =
      { surroundings with sinks := sinks } := by
  induction changes generalizing surroundings with
  | nil =>
      exact ⟨surroundings.sinks, rfl⟩
  | cons change changes inductionHypothesis =>
      obtain ⟨sinks, same⟩ := inductionHypothesis (surroundings.change change)
      refine ⟨sinks, ?_⟩
      rw [List.foldl_cons, same]
      cases change <;> rfl

theorem Surroundings.call_eq (surroundings : Surroundings)
    (name : SinkName) :
    ∃ sinks, (surroundings.call name).2 =
      { surroundings with sinks := sinks } := by
  simp only [Surroundings.call]
  split
  · exact ⟨surroundings.sinks, rfl⟩
  · exact ⟨_, rfl⟩

/-! ### One call of a destination -/

namespace Reaction

def changes : Reaction → List Change
  | .accept changes => changes
  | .panic _ => []

end Reaction

namespace World

def reactionAt (world : World) (destination : Destination) (call : Nat) :
    Reaction :=
  match destination with
  | .standard => Reaction.plain
  | .sink name => ((world.surroundings.reactions name).drop call).head

/-- The world after a call of a destination that has made no change yet. -/
def called (world : World) : Destination → World
  | .standard => world
  | .sink name =>
      { world with surroundings := (world.surroundings.call name).2 }

def afterCall (world : World) (destination : Destination) : World :=
  (world.called destination).changeAll
    (world.reactionAt destination 0).changes

def afterCalls (world : World) (destination : Destination) : Nat → World
  | 0 => world
  | more + 1 => (world.afterCall destination).afterCalls destination more

end World

theorem Action.perform_deliver_eq (world : World) (destination : Destination)
    (bytes : Bytes) (thread : Nat) :
    (deliver destination bytes).perform thread world =
      some
        { result := world.reactionAt destination 0
          world := world.called destination
          accepted :=
            match world.reactionAt destination 0 with
            | .accept _ => [world.surroundings.delivery destination bytes]
            | .panic _ => [] } := by
  cases destination with
  | sink name =>
      rfl
  | standard =>
      have whole : (Retry.deliver [] bytes).accepted = bytes := by
        cases bytes with
        | nil =>
            rfl
        | cons byte bytes =>
            simp [Retry.deliver, Retry.Report.idle, Retry.Report.after]
      simp only [perform, callDestination, whole]
      rfl

namespace Logger

open Script

theorem run_setPrefix {world : World} (free : world.configLock.holder = none)
    (text : String) :
    (setPrefix text).run world =
      { ending := .returned ()
        world := world.set .linePrefix (InlineText.truncating text)
        accepted := [] } := by
  rcases world with
    ⟨settings, ⟨holder, poisoned⟩, outputLock, initialisation, surroundings⟩
  change holder = none at free
  subst free
  cases poisoned with
  | false | true =>
      rfl

private theorem run_makeChange {world : World}
    (free : world.configLock.holder = none) (change : Change) :
    (makeChange change).run world =
      { ending := .returned (), world := world.changeAll [change]
        accepted := [] } := by
  cases change with
  | linePrefix text =>
      exact run_setPrefix free text
  | destination | colorMode | rearm =>
      rfl

private theorem run_makeChanges {world : World}
    (free : world.configLock.holder = none) (changes : List Change) :
    (makeChanges changes).run world =
      { ending := .returned (), world := world.changeAll changes
        accepted := [] } := by
  induction changes generalizing world with
  | nil =>
      rfl
  | cons change changes inductionHypothesis =>
      have freeStill : (world.changeAll [change]).configLock.holder = none :=
        free
      rw [makeChanges, run_bind, run_makeChange free]
      change ((makeChanges changes).run (world.changeAll [change])).after []
        = _
      rw [inductionHypothesis freeStill]
      rfl

section Write

variable {world : World} {destination : Destination} {bytes : Bytes}

theorem run_write_of_accept (nonempty : bytes ≠ [])
    (free : world.configLock.holder = none) {changes : List Change}
    (reacts : world.reactionAt destination 0 = .accept changes) :
    (write destination bytes).run world =
      { ending := .returned ()
        world := world.afterCall destination
        accepted := [world.surroundings.delivery destination bytes] } := by
  have freeStill : (world.called destination).configLock.holder = none := by
    cases destination with
    | standard | sink =>
        exact free
  rw [write, if_neg nonempty, run_bind, run_perform,
    Action.perform_deliver_eq, World.afterCall, reacts]
  change ((makeChanges changes).run (world.called destination)).after _ = _
  rw [run_makeChanges freeStill]
  rfl

theorem run_write_of_panic (nonempty : bytes ≠ []) {text : String}
    (reacts : world.reactionAt destination 0 = .panic text) :
    (write destination bytes).run world =
      { ending := .panicked text
        world := world.afterCall destination
        accepted := [] } := by
  rw [write, if_neg nonempty, run_bind, run_perform,
    Action.perform_deliver_eq, World.afterCall, reacts]
  rfl

end Write

/-! ### Several writes to one destination -/

def writeAll (destination : Destination) : List Bytes → Script Unit
  | [] => pure ()
  | bytes :: others => do
      write destination bytes
      writeAll destination others

theorem writeAll_append (destination : Destination)
    (earlier later : List Bytes) :
    writeAll destination (earlier ++ later) =
      (writeAll destination earlier >>= fun _ =>
        writeAll destination later) := by
  induction earlier with
  | nil =>
      rfl
  | cons bytes earlier inductionHypothesis =>
      rw [List.cons_append, writeAll, writeAll, inductionHypothesis,
        bind_assoc]

theorem writeAll_filter (destination : Destination) (writes : List Bytes) :
    writeAll destination (writes.filter fun bytes => bytes ≠ []) =
      writeAll destination writes := by
  induction writes with
  | nil =>
      rfl
  | cons bytes writes inductionHypothesis =>
      by_cases empty : bytes = []
      · subst empty
        exact inductionHypothesis
      · rw [List.filter_cons_of_pos (by simpa using empty), writeAll,
          writeAll, inductionHypothesis]

end Logger

/-! ### What sinks leave alone -/

/-- The second world differs from the first at most in what sinks can
change. -/
structure World.ChangedBySinks (before after : World) : Prop where
  cells : ∀ cell, cell.isOpenToSinks = false →
    after.get cell = before.get cell
  frame : ∃ sinks, after =
    { before with
      settings := after.settings
      surroundings := { before.surroundings with sinks := sinks } }

namespace World

variable {world : World} {destination : Destination}

namespace ChangedBySinks

theorem refl (world : World) : world.ChangedBySinks world :=
  ⟨fun _ _ => rfl, world.surroundings.sinks, rfl⟩

theorem trans {first second third : World}
    (earlier : first.ChangedBySinks second)
    (later : second.ChangedBySinks third) : first.ChangedBySinks third := by
  obtain ⟨earlierCells, earlierSinks, earlierSame⟩ := earlier
  obtain ⟨laterCells, laterSinks, laterSame⟩ := later
  refine ⟨?_, laterSinks, ?_⟩
  · intro cell closed
    exact (laterCells cell closed).trans (earlierCells cell closed)
  · rw [laterSame, earlierSame]

variable {before after : World}

theorem configLock (changed : before.ChangedBySinks after) :
    after.configLock = before.configLock := by
  obtain ⟨_, sinks, same⟩ := changed
  rw [same]

theorem outputLock (changed : before.ChangedBySinks after) :
    after.outputLock = before.outputLock := by
  obtain ⟨_, sinks, same⟩ := changed
  rw [same]

private theorem initialisation (changed : before.ChangedBySinks after) :
    after.initialisation = before.initialisation := by
  obtain ⟨_, sinks, same⟩ := changed
  rw [same]

theorem host (changed : before.ChangedBySinks after) :
    after.surroundings.host = before.surroundings.host := by
  obtain ⟨_, sinks, same⟩ := changed
  rw [same]

theorem delivery (changed : before.ChangedBySinks after)
    (destination : Destination) (bytes : Bytes) :
    after.surroundings.delivery destination bytes =
      before.surroundings.delivery destination bytes := by
  obtain ⟨_, sinks, same⟩ := changed
  rw [same]
  rfl

theorem atRest (changed : before.ChangedBySinks after)
    (rest : before.AtRest) : after.AtRest where
  configFree := by
    rw [changed.configLock]
    exact rest.configFree
  outputFree := by
    rw [changed.outputLock]
    exact rest.outputFree
  settled := by
    rw [changed.initialisation]
    exact rest.settled

end ChangedBySinks

private theorem called_changed (world : World) (destination : Destination) :
    world.ChangedBySinks (world.called destination) := by
  cases destination with
  | standard =>
      exact .refl world
  | sink name =>
      obtain ⟨sinks, same⟩ := world.surroundings.call_eq name
      refine ⟨fun _ _ => rfl, sinks, ?_⟩
      simp only [called, same]

private theorem changeAll_changed (world : World) (changes : List Change) :
    world.ChangedBySinks (world.changeAll changes) := by
  obtain ⟨sinks, same⟩ := world.surroundings.changeAll_eq changes
  refine ⟨?_, sinks, ?_⟩
  · intro cell closed
    exact world.settings.changeAll_get changes closed
  · unfold changeAll
    rw [same]

theorem afterCall_changed (world : World) (destination : Destination) :
    world.ChangedBySinks (world.afterCall destination) :=
  (world.called_changed destination).trans (changeAll_changed _ _)

theorem afterCalls_changed (world : World) (destination : Destination)
    (count : Nat) :
    world.ChangedBySinks (world.afterCalls destination count) := by
  induction count generalizing world with
  | zero =>
      exact .refl world
  | succ count inductionHypothesis =>
      exact (world.afterCall_changed destination).trans
        (inductionHypothesis _)

private theorem afterCall_settings (world : World) (destination : Destination) :
    (world.afterCall destination).settings =
      world.settings.changeAll
        (world.reactionAt destination 0).changes := by
  unfold afterCall
  cases destination with
  | standard | sink =>
      rfl

def changesMade (world : World) (destination : Destination) :
    Nat → List Change
  | 0 => []
  | more + 1 =>
      match world.reactionAt destination 0 with
      | .accept changes =>
          changes ++ (world.afterCall destination).changesMade destination more
      | .panic _ => []

end World

section WriteAll

variable {world : World} {destination : Destination} {writes : List Bytes}

theorem Logger.writeAll_changed (free : world.configLock.holder = none)
    (nonempty : ∀ bytes ∈ writes, bytes ≠ []) :
    world.ChangedBySinks
      ((writeAll destination writes).run world).world := by
  induction writes generalizing world with
  | nil =>
      exact .refl world
  | cons bytes writes inductionHypothesis =>
      have called := world.afterCall_changed destination
      have first : bytes ≠ [] := nonempty bytes List.mem_cons_self
      rw [writeAll, Script.run_bind]
      cases reacts : world.reactionAt destination 0 with
      | accept changes =>
          rw [run_write_of_accept first free reacts]
          refine called.trans (inductionHypothesis ?_ ?_)
          · rw [called.configLock]
            exact free
          · intro other member
            exact nonempty other (List.mem_cons_of_mem _ member)
      | panic text =>
          rw [run_write_of_panic first reacts]
          exact called

theorem Logger.writeAll_settings (free : world.configLock.holder = none)
    (nonempty : ∀ bytes ∈ writes, bytes ≠ []) :
    ((writeAll destination writes).run world).world.settings =
      world.settings.changeAll
        (world.changesMade destination writes.length) := by
  induction writes generalizing world with
  | nil =>
      rfl
  | cons bytes writes inductionHypothesis =>
      have called := world.afterCall_changed destination
      have first : bytes ≠ [] := nonempty bytes List.mem_cons_self
      have settings := world.afterCall_settings destination
      rw [writeAll, Script.run_bind, List.length_cons, World.changesMade]
      cases reacts : world.reactionAt destination 0 with
      | accept changes =>
          rw [reacts, Reaction.changes] at settings
          rw [run_write_of_accept first free reacts,
            Settings.changeAll_append, ← settings]
          apply inductionHypothesis
          · rw [called.configLock]
            exact free
          · intro other member
            exact nonempty other (List.mem_cons_of_mem _ member)
      | panic text =>
          rw [run_write_of_panic first reacts]
          rw [reacts] at settings
          exact settings

end WriteAll

/-! ### Destinations that never panic -/

/-- Whether a change lets a destination react otherwise from then on. -/
def Change.rearms (destination : Destination) : Change → Bool
  | .rearm name _ => destination == .sink name
  | .destination _ | .linePrefix _ | .colorMode _ => false

/-- From now on a destination never panics, and makes the assigned changes in
each of its calls, which are counted from zero. -/
structure World.Heeds (world : World) (destination : Destination)
    (assigned : Nat → List Change) : Prop where
  accepts : ∀ call,
    world.reactionAt destination call = .accept (assigned call)
  spares : ∀ call, ∀ change ∈ assigned call,
    change.rearms destination = false

theorem World.Heeds.of_capturing {world : World} {destination : Destination}
    (captures : ∀ name, destination = .sink name →
      world.surroundings.reactions name = Reaction.capturing) :
    world.Heeds destination fun _ => [] where
  accepts := by
    intro call
    cases destination with
    | standard =>
        rfl
    | sink name =>
        change ((world.surroundings.reactions name).drop call).head = _
        rw [captures name rfl, Reaction.capturing, Tape.drop_constant]
        rfl
  spares := by
    intro call change impossible
    cases impossible

theorem Surroundings.reactions_call (surroundings : Surroundings)
    (name : SinkName) :
    (surroundings.call name).2.reactions name =
      (surroundings.reactions name).tail := by
  simp only [call]
  split
  · rename_i unrecorded
    unfold Tape.tail
    rw [List.isEmpty_iff.mp unrecorded]
  · exact reactions_arm_same _ _ _

private theorem Surroundings.reactions_changeAll (surroundings : Surroundings)
    {name : SinkName} {changes : List Change}
    (spares : ∀ change ∈ changes, change.rearms (.sink name) = false) :
    (changes.foldl Surroundings.change surroundings).reactions name =
      surroundings.reactions name := by
  induction changes generalizing surroundings with
  | nil =>
      rfl
  | cons change changes inductionHypothesis =>
      have first := spares change List.mem_cons_self
      have kept : (surroundings.change change).reactions name =
          surroundings.reactions name := by
        cases change with
        | rearm armed reactions =>
            apply reactions_arm_of_ne
            intro same
            subst same
            simp [Change.rearms] at first
        | destination | linePrefix | colorMode =>
            rfl
      rw [List.foldl_cons, inductionHypothesis, kept]
      intro other member
      exact spares other (List.mem_cons_of_mem _ member)

namespace World

variable {world : World} {destination : Destination}
variable {assigned : Nat → List Change}

theorem Heeds.afterCall (heeds : world.Heeds destination assigned) :
    (world.afterCall destination).Heeds destination
      fun call => assigned (call + 1) := by
  refine ⟨?_, fun call => heeds.spares (call + 1)⟩
  intro call
  rw [← heeds.accepts (call + 1)]
  cases destination with
  | standard =>
      rfl
  | sink name =>
      have spares := heeds.spares 0
      unfold World.afterCall
      rw [heeds.accepts 0]
      simp only [reactionAt, Reaction.changes, changeAll]
      rw [Surroundings.reactions_changeAll _ spares]
      simp only [called, Surroundings.reactions_call]
      rfl

private theorem Heeds.changesMade (heeds : world.Heeds destination assigned)
    (count : Nat) :
    world.changesMade destination count =
      (List.range count).flatMap assigned := by
  induction count generalizing world assigned with
  | zero =>
      rfl
  | succ count inductionHypothesis =>
      rw [World.changesMade, heeds.accepts 0, List.range_succ_eq_map,
        List.flatMap_cons, List.flatMap_map]
      simp only [inductionHypothesis heeds.afterCall]

theorem Heeds.afterCalls_settings
    (heeds : world.Heeds destination assigned) (count : Nat) :
    (world.afterCalls destination count).settings =
      world.settings.changeAll ((List.range count).flatMap assigned) := by
  rw [← heeds.changesMade]
  induction count generalizing world assigned with
  | zero =>
      rfl
  | succ count inductionHypothesis =>
      rw [World.afterCalls, inductionHypothesis heeds.afterCall,
        World.afterCall_settings, ← Settings.changeAll_append,
        World.changesMade, heeds.accepts 0]
      rfl

end World

theorem Logger.run_writeAll {world : World} {destination : Destination}
    {assigned : Nat → List Change}
    (heeds : world.Heeds destination assigned)
    (free : world.configLock.holder = none) {writes : List Bytes}
    (nonempty : ∀ bytes ∈ writes, bytes ≠ []) :
    (writeAll destination writes).run world =
      { ending := .returned ()
        world := world.afterCalls destination writes.length
        accepted := writes.map (world.surroundings.delivery destination) } := by
  induction writes generalizing world assigned with
  | nil =>
      rfl
  | cons bytes writes inductionHypothesis =>
      have called := world.afterCall_changed destination
      have freeStill : (world.afterCall destination).configLock.holder =
          none := by
        rw [called.configLock]
        exact free
      have others : ∀ other ∈ writes, other ≠ [] := by
        intro other member
        exact nonempty other (List.mem_cons_of_mem _ member)
      have sameDelivery := funext (called.delivery destination)
      rw [writeAll, Script.run_bind,
        run_write_of_accept (nonempty bytes List.mem_cons_self) free
          (heeds.accepts 0)]
      simp only [Outcome.andThen,
        inductionHypothesis heeds.afterCall freeStill others, sameDelivery]
      rfl

end LeveledLog
