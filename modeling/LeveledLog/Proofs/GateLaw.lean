/-
The gate law.

Whether a call to log writes anything is what the query tells that asks
whether it would, provided that its message comes to anything.  A call that is
suppressed does not render its message, so that it makes no difference what
the message would do; on an initialised logger it might as well not have been
made.
-/

import LeveledLog.Proofs.Logging
import LeveledLog.Session

namespace LeveledLog

/-! ### Suppressed calls -/

def SessionReport.silent (world : World) : SessionReport where
  answer := .value .nothing
  accepted := []
  world := world

section Suppressed

variable {world : World} {entry : Entry}

/-- A message that is suppressed might be any other. -/
theorem Logger.run_log_of_closed (rest : world.AtRest)
    (complete : world.initialisation = .complete)
    (closed : world.opens entry.level entry.moduleName = false)
    (render : Script (Option String)) :
    (log entry render).run world =
      { ending := .returned (), world := world, accepted := [] } := by
  have asked := run_wouldLog rest.configFree complete entry.level
    entry.moduleName
  rw [closed] at asked
  rw [run_log rest (congrArg Outcome.ending asked),
    World.ready_of_complete complete]
  rfl

variable (rest : world.AtRest)
variable (complete : world.initialisation = .complete)
variable (closed : world.opens entry.level entry.moduleName = false)
include rest complete closed

private theorem Command.run_log_of_closed (message : Message) :
    (Command.log entry message).script.run world =
      { ending := .returned .nothing, world := world, accepted := [] } := by
  rw [Command.script, Script.run_map,
    Logger.run_log_of_closed rest complete closed]
  rfl

private theorem SessionStep.performAll_suppressed (message : Message)
    (later : List SessionStep) :
    performAll world (.call (.log entry message) :: later) =
      .silent world :: performAll world later := by
  simp only [performAll, perform,
    Command.run_log_of_closed rest complete closed]
  rfl

private theorem Part.run_renderAll_suppressed (message : Message)
    (parts : List Part) :
    (Part.renderAll (.calls (.log entry message) :: parts)).run world =
      (Part.renderAll parts).run world := by
  have unchanged (rendered : Option String) :
      rendered.map (fun text => "" ++ text) = rendered := by
    cases rendered with
    | none =>
        rfl
    | some text =>
        exact congrArg some String.empty_append
  rw [Part.renderAll, Part.render, bind_assoc, Script.run_bind,
    Command.run_log_of_closed rest complete closed]
  change ((Part.renderAll parts >>= fun others =>
    pure (others.map fun text => "" ++ text)).run world).after [] = _
  simp only [unchanged, bind_pure, Outcome.after_nil]

end Suppressed

/-! ### Calls that may be written -/

section Inert

variable {world : World} {entry : Entry} {message : Message}

theorem Logger.run_log_of_inert (rest : world.AtRest)
    {assigned : Nat → List Change}
    (heeds : world.Heeds (world.get .destination) assigned)
    (stamps : world.Stamps) (inert : message.isInert = true)
    (asked : ((wouldLog entry.level entry.moduleName).run world).ending =
      .returned true) :
    (log entry message.render).run world =
      { ending := .returned ()
        world := world.ready.afterCalls (world.get .destination)
          (world.renderedWrites entry message.rendering).length
        accepted := (world.renderedWrites entry message.rendering).map
          world.delivers } := by
  have same := world.ready_periphery rest
  have heedsReady : world.ready.Heeds (world.ready.get .destination)
      assigned := by
    rw [same.cells .destination rfl]
    exact same.heeds heeds
  rw [run_log rest asked, if_pos rfl, Message.render_inert inert, pure_bind]
  refine (run_writeRendered (world.ready_atRest rest)
    (same.stamps.mpr stamps) heedsReady entry message.rendering).trans ?_
  rw [same.delivers, same.renderedWrites, same.cells .destination rfl]

/-- A call whose message makes no calls writes something if it passes and
comes to anything. -/
theorem Logger.log_accepts_iff (rest : world.AtRest)
    (captures : world.Captures) (stamps : world.Stamps)
    (inert : message.isInert = true) {answer : Bool}
    (asked : ((wouldLog entry.level entry.moduleName).run world).ending =
      .returned answer) :
    ((log entry message.render).run world).ending = .returned () ∧
      (((log entry message.render).run world).accepted ≠ [] ↔
        answer = true ∧
          (message.rendering = none ∨
            ∃ text, message.rendering = some text ∧ text ≠ "")) := by
  cases answer with
  | false =>
      rw [run_log rest asked]
      simp
  | true =>
      rw [run_log_of_inert rest (.of_capturing captures) stamps inert asked]
      refine ⟨rfl, ?_⟩
      rw [ne_eq, List.map_eq_nil_iff, ← ne_eq,
        World.renderedWrites_ne_nil stamps]
      simp

end Inert

theorem Logger.wouldLog_empty (level : Level) :
    wouldLog level (some "") = wouldLog level none := by
  unfold wouldLog
  rfl

/-! ### The gate law -/

/-- What the gates of a reachable logger decide, if the environment does not
panic.  The query tells whether output is on, the level suffices and the
module passes, once the defaults have been applied; a call writes something if
the query says so and the message comes to anything, provided that the sink
accepts it and that a clock which lines show can be read; a suppressed call
does nothing but apply the defaults, and may be left out if they have been
applied; and the empty module is no module. -/
theorem gates_decide {world : World} (reachable : world.Reachable)
    (calm : world.surroundings.environment.NeverPanics) :
    let start := world.ready
    (start.initialisation = .complete ∧
        (world.initialisation = .complete → start = world)) ∧
      (∀ level moduleName,
        (Logger.wouldLog level moduleName).run world =
          { ending := .returned (start.passes level moduleName)
            world := start, accepted := [] }) ∧
      (∀ (entry : Entry) (message : Message), message.isInert = true →
        world.Captures → world.Stamps →
        let outcome := (Logger.log entry message.render).run world
        outcome.ending = .returned () ∧
          (outcome.accepted ≠ [] ↔
            ((Logger.wouldLog entry.level entry.moduleName).run
                world).ending = .returned true ∧
              (message.rendering = none ∨
                ∃ text, message.rendering = some text ∧ text ≠ ""))) ∧
      (∀ entry render, start.passes entry.level entry.moduleName = false →
        (Logger.log entry render).run world =
          { ending := .returned (), world := start, accepted := [] }) ∧
      (world.initialisation = .complete → ∀ entry message,
        world.passes entry.level entry.moduleName = false →
        (∀ later,
          SessionStep.performAll world
              (.call (.log entry message) :: later) =
            .silent world :: SessionStep.performAll world later) ∧
          ∀ parts,
            (Part.renderAll (.calls (.log entry message) :: parts)).run
                world =
              (Part.renderAll parts).run world) ∧
      ∀ level site,
        (Entry.untagged level site).withModule "" =
            Entry.untagged level site ∧
          Logger.wouldLog level (some "") = Logger.wouldLog level none := by
  intro start
  have rest := reachable.atRest
  have passes := World.opens_eq reachable.initOnce.mirror
  obtain ⟨initialises, complete⟩ := Logger.run_initOnce rest calm
  have asks (level : Level) (moduleName : Option String) :
      (Logger.wouldLog level moduleName).run world =
        { ending := .returned (start.passes level moduleName)
          world := start, accepted := [] } := by
    rw [Logger.wouldLog_eq, Script.run_bind, initialises]
    change ((Logger.gates level moduleName).run start).after [] = _
    rw [Outcome.after_nil,
      Logger.run_gates (world.ready_atRest rest).configFree]
    exact congrArg (Outcome.mk · start []) (congrArg _ (passes _ _))
  refine ⟨⟨complete, World.ready_of_complete⟩, asks, ?_, ?_, ?_, ?_⟩
  · intro entry message inert captures stamps
    have asked := congrArg Outcome.ending
      (asks entry.level entry.moduleName)
    obtain ⟨ends, accepts⟩ :=
      Logger.log_accepts_iff rest captures stamps inert asked
    refine ⟨ends, ?_⟩
    rw [accepts, asked]
    simp
  · intro entry render closed
    have asked := congrArg Outcome.ending
      (asks entry.level entry.moduleName)
    rw [Logger.run_log rest asked, closed]
    rfl
  · intro applied entry message closed
    rw [← World.opens_eq reachable.mirror] at closed
    exact ⟨SessionStep.performAll_suppressed rest applied closed message,
      Part.run_renderAll_suppressed rest applied closed message⟩
  · intro level site
    exact ⟨rfl, Logger.wouldLog_empty level⟩

/-- A message below the level of the environment is not rendered, whatever it
would do; one at that level is written. -/
theorem gates_decide_before_rendering :
    let host : Host := { processId := 1, terminal := false }
    let environment : Environment := fun _ => Tape.constant (.text "warn")
    let world :=
      (World.fresh (Surroundings.start host environment)).afterAll
        [.enable, .setTimestamps true, .setDestination (.sink "kept")]
    let message : Message :=
      .rendered [.calls .disable, .calls (.setMinLevel .error), .panics "end"]
    let info := Entry.untagged .info { file := none, line := 1 }
    let warn := (Entry.untagged .warn { file := none, line := 2 }).withModule
      "warn"
    (Logger.log info message.render).run world =
        { ending := .returned (), world := world.ready, accepted := [] } ∧
      ((Logger.log warn (Message.literal "text").render).run
        world).accepted ≠ [] := by
  intro host environment world message info warn
  have reachable : world.Reachable :=
    World.Reachable.afterAll (.fresh _) _
  have calm : world.surroundings.environment.NeverPanics :=
    Environment.neverPanics_constant fun _ => rfl
  obtain ⟨_, asks, writes, suppresses, _, _⟩ :=
    gates_decide reachable calm
  have captures : world.Captures := by
    intro name kept
    cases kept
    rfl
  have stamps : world.Stamps := by
    intro _
    exact ⟨_, ClockTime.read_epoch⟩
  constructor
  · apply suppresses
    decide +kernel
  · refine (writes warn (.literal "text") rfl captures stamps).2.mpr ?_
    refine ⟨?_, .inr ⟨"text", rfl, by decide⟩⟩
    rw [asks]
    exact congrArg Ending.returned (by decide +kernel)

end LeveledLog
