/-
The loggers that calls made one after the other can come to.

A logger is reachable if it is fresh, or if a call has left it.  So is the
logger that a message leaves when it has been rendered.  A reachable logger is
at rest, and the mirror of its module table tells what the table holds.
-/

import LeveledLog.Proofs.LineLayout
import LeveledLog.Proofs.ModuleNames

namespace LeveledLog

/-- A fresh logger, or the logger that a call has left. -/
inductive World.Reachable : World → Prop
  | fresh (surroundings : Surroundings) : Reachable (.fresh surroundings)
  | call {world : World} (reachable : Reachable world) (command : Command) :
      Reachable (command.script.run world).world

namespace World.Reachable

variable {world : World}

theorem afterAll (reachable : world.Reachable) (commands : List Command) :
    (world.afterAll commands).Reachable := by
  induction commands generalizing world with
  | nil =>
      exact reachable
  | cons command commands inductionHypothesis =>
      exact inductionHypothesis (reachable.call command)

theorem steady (reachable : world.Reachable) :
    ∃ calls, Steady (fun _ world => ∃ names, world.Lists names) calls
      world := by
  induction reachable with
  | fresh surroundings =>
      exact ⟨[], World.atRest_fresh surroundings, [],
        World.Lists.fresh surroundings⟩
  | call reachable command inductionHypothesis =>
      obtain ⟨calls, before⟩ := inductionHypothesis
      have after := (World.Lists.invariant.runs command before).along.at_end
      exact ⟨_, after⟩

theorem atRest (reachable : world.Reachable) : world.AtRest := by
  obtain ⟨calls, steady⟩ := reachable.steady
  exact steady.rest

theorem mirror (reachable : world.Reachable) :
    world.get .filterActive = (world.get .modules).isActive := by
  obtain ⟨calls, rest, names, lists⟩ := reachable.steady
  exact lists.mirror

theorem waits_not (reachable : world.Reachable) (command : Command) :
    (command.script.run world).ending ≠ .waiting := by
  obtain ⟨calls, steady⟩ := reachable.steady
  exact (World.Lists.invariant.runs command steady).ends

theorem initOnce (reachable : world.Reachable) :
    (Logger.initOnce.run world).world.Reachable := by
  have after := reachable.call .initOnce
  rw [Command.script, Script.run_map] at after
  exact after

theorem part (reachable : world.Reachable) (part : Part) :
    (part.render.run world).world.Reachable := by
  cases part with
  | text | fails | panics =>
      rw [Part.render]
      exact reachable
  | calls command =>
      have after := reachable.call command
      rw [Part.render, Script.run_bind]
      unfold Outcome.andThen
      cases (command.script.run world).ending with
      | returned | panicked | waiting =>
          exact after

private theorem parts (reachable : world.Reachable) (parts : List Part) :
    ((Part.renderAll parts).run world).world.Reachable := by
  induction parts generalizing world with
  | nil =>
      rw [Part.renderAll]
      exact reachable
  | cons part parts inductionHypothesis =>
      have after := reachable.part part
      rw [Part.renderAll, Script.run_bind]
      unfold Outcome.andThen
      cases (part.render.run world).ending with
      | panicked | waiting =>
          exact after
      | returned rendered =>
          cases rendered with
          | none =>
              exact after
          | some first =>
              have later := inductionHypothesis after
              change (Script.run (Part.renderAll parts >>= _) _).world.Reachable
              rw [Script.run_bind]
              unfold Outcome.andThen
              cases ((Part.renderAll parts).run
                (part.render.run world).world).ending with
              | returned | panicked | waiting =>
                  exact later

theorem message (reachable : world.Reachable) (message : Message) :
    (message.render.run world).world.Reachable := by
  cases message with
  | literal text =>
      rw [Message.render]
      exact reachable
  | rendered parts =>
      have after := reachable.parts parts
      rw [Message.render, Script.run_bind, Script.run_attempt]
      unfold Outcome.andThen Outcome.caught
      cases ((Part.renderAll parts).run world).ending with
      | returned | panicked | waiting =>
          exact after

end World.Reachable

end LeveledLog
