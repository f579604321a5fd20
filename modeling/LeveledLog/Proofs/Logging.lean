/-
What a call to log comes to.

A call to log initialises the logger, which concerns its core only: what a
line goes to and looks like stays as it was.  If the gates are closed, nothing
else is done.  If they are open, the message is rendered, and what is written
for it is a line, a fixed line in place of a message that cannot be rendered,
or nothing.
-/

import LeveledLog.Proofs.Reachable

namespace LeveledLog

/-! ### What initialising leaves alone -/

namespace World

/-- Agreement on everything but the core of a logger. -/
structure SamePeriphery (before after : World) : Prop where
  cells : ∀ cell, cell.isCore = false → after.get cell = before.get cell
  configLock : after.configLock = before.configLock
  outputLock : after.outputLock = before.outputLock
  surroundings : ∃ environment lookups, after.surroundings =
    { before.surroundings with
      environment := environment, lookups := lookups }

namespace SamePeriphery

variable {before after : World}

theorem refl (world : World) : world.SamePeriphery world :=
  ⟨fun _ _ => rfl, rfl, rfl, _, _, rfl⟩

theorem trans {first second third : World}
    (earlier : first.SamePeriphery second)
    (later : second.SamePeriphery third) : first.SamePeriphery third where
  cells cell peripheral :=
    (later.cells cell peripheral).trans (earlier.cells cell peripheral)
  configLock := later.configLock.trans earlier.configLock
  outputLock := later.outputLock.trans earlier.outputLock
  surroundings := by
    obtain ⟨_, _, same⟩ := earlier.surroundings
    obtain ⟨_, _, sameLater⟩ := later.surroundings
    rw [sameLater, same]
    exact ⟨_, _, rfl⟩

variable (same : before.SamePeriphery after)
include same

theorem stamps : after.Stamps ↔ before.Stamps := by
  obtain ⟨_, _, surroundings⟩ := same.surroundings
  unfold Stamps
  rw [same.cells .timestamps rfl, surroundings]

theorem delivers : after.delivers = before.delivers := by
  obtain ⟨_, _, surroundings⟩ := same.surroundings
  funext bytes
  unfold World.delivers
  rw [same.cells .destination rfl, surroundings]
  rfl

private theorem lineWrites (entry : Entry) (message : String) :
    after.lineWrites entry message = before.lineWrites entry message := by
  obtain ⟨_, _, surroundings⟩ := same.surroundings
  unfold World.lineWrites World.lineFragments World.stamp? World.colored
  rw [same.cells .colorMode rfl, same.cells .timestamps rfl,
    same.cells .linePrefix rfl, same.cells .sourceLocation rfl, surroundings]

theorem heeds {destination : Destination} {assigned : Nat → List Change}
    (heeds : before.Heeds destination assigned) :
    after.Heeds destination assigned := by
  obtain ⟨_, _, surroundings⟩ := same.surroundings
  refine ⟨?_, heeds.spares⟩
  intro call
  rw [← heeds.accepts call]
  unfold World.reactionAt
  rw [surroundings]
  rfl

end SamePeriphery

private theorem afterQuestion_periphery (world : World) (asked : Variable) :
    world.SamePeriphery (world.afterQuestion asked) :=
  ⟨fun _ _ => rfl, rfl, rfl, _, _, rfl⟩

private theorem set_periphery (world : World) {cell : Cell}
    (core : cell.isCore = true) (value : cell.Value) :
    world.SamePeriphery (world.set cell value) := by
  refine ⟨?_, rfl, rfl, _, _, rfl⟩
  intro read peripheral
  apply get_set_of_ne
  intro same
  rw [same, core] at peripheral
  cases peripheral

private theorem withModules_periphery (world : World) (table : ModuleTable) :
    world.SamePeriphery (world.withModules table) := by
  have isCore : Cell.modules.isCore = true := rfl
  exact (world.set_periphery isCore table).trans (set_periphery _ rfl _)

private theorem afterLevel_periphery (world : World) :
    world.SamePeriphery world.afterLevel := by
  unfold afterLevel
  split
  · exact .refl world
  · exact (world.afterQuestion_periphery .level).trans
      (set_periphery _ rfl _)

private theorem afterModules_periphery (world : World) :
    world.SamePeriphery world.afterModules := by
  unfold afterModules
  have asked := world.afterQuestion_periphery .modules
  split
  · exact asked.trans (withModules_periphery _ _)
  · exact asked

private theorem afterDefaults_periphery (world : World) :
    world.SamePeriphery world.afterDefaults := by
  unfold afterDefaults
  split
  · exact world.afterLevel_periphery.trans (afterModules_periphery _)
  · exact world.afterLevel_periphery

def ready (world : World) : World :=
  (Logger.initOnce.run world).world

theorem ready_of_complete {world : World}
    (complete : world.initialisation = .complete) : world.ready = world := by
  rw [ready, Logger.run_initOnce_of_complete complete]

theorem ready_periphery {world : World} (rest : world.AtRest) :
    world.SamePeriphery world.ready := by
  cases state : world.initialisation with
  | running =>
      exact absurd state rest.settled
  | complete =>
      rw [ready_of_complete state]
      exact .refl world
  | pending =>
      rw [ready, Logger.run_initOnce_of_pending state rest.configFree]
      have defaults := world.afterDefaults_periphery
      exact ⟨defaults.cells, defaults.configLock, defaults.outputLock,
        defaults.surroundings⟩

theorem ready_atRest {world : World} (rest : world.AtRest) :
    world.ready.AtRest :=
  (Role.initialises.played rest).atRest rest

end World

namespace Role

private theorem claim_periphery (role : Role) (world : World) :
    world.SamePeriphery (role.claim world) := by
  cases role with
  | peripheral | initialises =>
      exact .refl world
  | setsLevel level =>
      have isCore : Cell.levelClaimed.isCore = true := rfl
      exact world.set_periphery isCore true
  | changesModules change =>
      have isCore : Cell.modulesClaimed.isCore = true := rfl
      exact world.set_periphery isCore true

private theorem effect_periphery (role : Role) (world : World) :
    world.SamePeriphery (role.effect world) := by
  cases role with
  | peripheral | initialises =>
      exact .refl world
  | setsLevel level =>
      have isCore : Cell.minLevel.isCore = true := rfl
      exact world.set_periphery isCore level
  | changesModules change =>
      exact world.withModules_periphery _

theorem script_periphery (role : Role) {world : World} (rest : world.AtRest) :
    world.SamePeriphery (role.script.run world).world := by
  cases initialising : role.initialising with
  | false =>
      cases role with
      | peripheral =>
          exact .refl world
      | initialises | setsLevel | changesModules =>
          cases initialising
  | true =>
      have claimed := role.claim_periphery world
      have restClaimed : (role.claim world).AtRest := by
        constructor
        · rw [claim_configLock]
          exact rest.configFree
        · rw [claim_outputLock]
          exact rest.outputFree
        · rw [claim_initialisation]
          exact rest.settled
      have ready := World.ready_periphery restClaimed
      rw [run_script initialising
        (by rw [← World.ready, ready.configLock]
            exact restClaimed.configFree)]
      unfold outcome
      split
      · exact (claimed.trans ready).trans (role.effect_periphery _)
      · exact claimed.trans ready

end Role

namespace Logger

open Script

variable {world : World}

theorem initOnce_ends (rest : world.AtRest) :
    initOnce.run world =
        { ending := .returned (), world := world.ready, accepted := [] } ∨
      ∃ text, initOnce.run world =
        { ending := .panicked text, world := world.ready
          accepted := [] } := by
  have played := Role.initialises.played rest
  change Role.Played _ _ (initOnce.run world) at played
  unfold World.ready
  generalize initOnce.run world = outcome at played
  cases played with
  | outside | settled | applied =>
      exact .inl rfl
  | failed =>
      exact .inr ⟨_, rfl⟩

theorem run_initOnce (rest : world.AtRest)
    (calm : world.surroundings.environment.NeverPanics) :
    initOnce.run world =
        { ending := .returned (), world := world.ready, accepted := [] } ∧
      world.ready.initialisation = .complete := by
  cases state : world.initialisation with
  | running =>
      exact absurd state rest.settled
  | complete =>
      rw [World.ready_of_complete state]
      exact ⟨run_initOnce_of_complete state, state⟩
  | pending =>
      have runs := run_initOnce_of_pending state rest.configFree
      have unfaulted : world.fault? = none :=
        Claims.fault?_eq_none _ _ calm.now
      unfold World.attemptEnding at runs
      rw [World.ready, runs, unfaulted]
      exact ⟨rfl, rfl⟩

theorem wouldLog_world (rest : world.AtRest) (level : Level)
    (moduleName : Option String) :
    ((wouldLog level moduleName).run world).world = world.ready := by
  have gated := run_gates (world.ready_atRest rest).configFree level
    moduleName
  rw [wouldLog_eq, run_bind]
  rcases initOnce_ends rest with runs | ⟨text, runs⟩
  · rw [runs]
    exact congrArg Outcome.world gated
  · rw [runs]
    rfl

theorem wouldLog_answers (rest : world.AtRest) {level : Level}
    {moduleName : Option String} {answer : Bool}
    (returns : ((wouldLog level moduleName).run world).ending =
      .returned answer) :
    (wouldLog level moduleName).run world =
        { ending := .returned answer, world := world.ready
          accepted := [] } ∧
      world.ready.opens level moduleName = answer := by
  have gated := run_gates (world.ready_atRest rest).configFree level
    moduleName
  rw [wouldLog_eq, run_bind] at returns ⊢
  rcases initOnce_ends rest with runs | ⟨text, runs⟩
  · rw [runs] at returns ⊢
    simp only [Outcome.andThen, Outcome.after_nil, gated] at returns ⊢
    cases returns
    exact ⟨rfl, rfl⟩
  · rw [runs] at returns
    cases returns

/-- A call to log does nothing but initialise if the gates are closed;
otherwise it goes on with its message. -/
theorem run_log (rest : world.AtRest) {entry : Entry} {answer : Bool}
    (returns : ((wouldLog entry.level entry.moduleName).run world).ending =
      .returned answer) (render : Script (Option String)) :
    (log entry render).run world =
      if answer then
        (render >>= writeRendered entry).run world.ready
      else
        { ending := .returned (), world := world.ready, accepted := [] } := by
  rw [log, run_bind, (wouldLog_answers rest returns).1]
  cases answer with
  | false | true =>
      rfl

end Logger

/-! ### What is written for a rendered message -/

namespace World

def renderedWrites (world : World) (entry : Entry) :
    Option String → List Bytes
  | none => [Text.utf8 formatErrorLine]
  | some text => if text = "" then [] else world.lineWrites entry text

theorem SamePeriphery.renderedWrites {before after : World}
    (same : before.SamePeriphery after) (entry : Entry)
    (rendered : Option String) :
    after.renderedWrites entry rendered =
      before.renderedWrites entry rendered := by
  cases rendered with
  | none =>
      rfl
  | some text =>
      rw [World.renderedWrites, World.renderedWrites, same.lineWrites]

variable {world : World}

theorem renderedWrites_nonempty (entry : Entry) (rendered : Option String) :
    ∀ bytes ∈ world.renderedWrites entry rendered, bytes ≠ [] := by
  cases rendered with
  | none =>
      intro bytes member
      rw [List.mem_singleton.mp member]
      decide
  | some text =>
      by_cases empty : text = ""
      · rw [renderedWrites, if_pos empty]
        intro bytes impossible
        cases impossible
      · rw [renderedWrites, if_neg empty]
        exact Fragment.writes_nonempty _ _

def leadingFragments (world : World) (entry : Entry) : List Fragment :=
  world.stamp?.getD [] ++
    (Line.heading world.surroundings.host.processId (world.get .linePrefix)
        entry.level ++
      ((if world.get .sourceLocation then Line.siteGroup entry.site
        else []) ++
        entry.moduleName.elim [] Line.moduleGroup))

/-- A line ends in the write of a blank and the write of its message. -/
theorem lineWrites_eq (stamps : world.Stamps) (entry : Entry)
    {message : String} (nonempty : message ≠ "") :
    world.lineWrites entry message =
      Fragment.writes world.colored (world.leadingFragments entry) ++
        [Text.utf8 " ", Text.utf8 message] := by
  obtain ⟨stamp, stamped⟩ :=
    Option.isSome_iff_exists.mp (stamp?_isSome.mpr stamps)
  have ending : Fragment.writes world.colored (Line.messageGroup message) =
      [Text.utf8 " ", Text.utf8 message] := by
    have bytes : Text.utf8 message ≠ [] := by
      rw [ne_eq, Text.utf8_eq_nil_iff]
      exact nonempty
    have blank : Text.utf8 " " ≠ [] := by
      decide
    simp [Fragment.writes, Line.messageGroup, Fragment.text, Fragment.bytes,
      bytes, blank]
  unfold lineWrites lineFragments leadingFragments
  rw [stamped, ← ending, ← Fragment.writes_append]
  simp only [Line.body, Option.getD_some, List.append_assoc]

theorem renderedWrites_ne_nil (stamps : world.Stamps) (entry : Entry)
    (rendered : Option String) :
    world.renderedWrites entry rendered ≠ [] ↔
      rendered = none ∨ ∃ text, rendered = some text ∧ text ≠ "" := by
  cases rendered with
  | none =>
      simp [renderedWrites]
  | some text =>
      by_cases empty : text = ""
      · simp [renderedWrites, empty]
      · simp [renderedWrites, empty, lineWrites_eq stamps entry empty]

end World

namespace Logger

open Script

variable {world : World}

theorem run_writeRendered (rest : world.AtRest) (stamps : world.Stamps)
    {assigned : Nat → List Change}
    (heeds : world.Heeds (world.get .destination) assigned) (entry : Entry)
    (rendered : Option String) :
    (writeRendered entry rendered).run world =
      { ending := .returned ()
        world := world.afterCalls (world.get .destination)
          (world.renderedWrites entry rendered).length
        accepted :=
          (world.renderedWrites entry rendered).map world.delivers } := by
  cases rendered with
  | none =>
      have nonempty := world.renderedWrites_nonempty entry none
      rw [writeRendered, writeText, run_writeRaw]
      exact run_writeAll heeds rest.configFree nonempty
  | some text =>
      by_cases empty : text = ""
      · rw [writeRendered, World.renderedWrites, if_pos empty, if_pos empty]
        rfl
      · rw [writeRendered, World.renderedWrites, if_neg empty, if_neg empty]
        exact run_writeLine_of_heeds rest stamps heeds entry text

end Logger

end LeveledLog
