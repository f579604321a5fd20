/-
What the calls do that render no message.

Such a call plays its role, stores what it sets, and then writes what it is
asked to write, to the destination at that moment.
-/

import LeveledLog.Proofs.LineLayout
import LeveledLog.Proofs.ModuleNames

namespace LeveledLog

theorem Logger.run_prefixText {world : World}
    (free : world.configLock.holder = none) :
    prefixText.run world =
      { ending := .returned (world.get .linePrefix).text, world := world
        accepted := [] } := by
  rw [prefixText, prefixSnapshot]
  simp only [bind_assoc, pure_bind]
  rw [Script.run_readUnderLock .linePrefix _ free]
  rfl

namespace Command

def stored : Command → World → World
  | .enable, world => world.set .enabled true
  | .disable, world => world.set .enabled false
  | .setPrefix text, world =>
      world.set .linePrefix (InlineText.truncating text)
  | .setThreadSafe on, world => world.set .threadSafe on
  | .setTimestamps on, world => world.set .timestamps on
  | .setSourceLocation on, world => world.set .sourceLocation on
  | .setColorMode mode, world => world.set .colorMode mode
  | .setDestination target, world => world.set .destination target
  | .facadeInstall, world =>
      { world with
        surroundings := { world.surroundings with facadeTaken := true } }
  | .setClock time, world =>
      { world with surroundings := { world.surroundings with clock := time } }
  | .arm name reactions, world =>
      { world with surroundings := world.surroundings.arm name reactions }
  | .collect target, world =>
      { world with surroundings := world.surroundings.collect target }
  | _, world => world

def sent : Command → World → List Bytes
  | .writeRaw bytes, _ => [bytes].filter fun bytes => bytes ≠ []
  | .writeText text, _ => [Text.utf8 text].filter fun bytes => bytes ≠ []
  | .writeDecimal word, _ =>
      [Numeral.decimal word].filter fun bytes => bytes ≠ []
  | .writeHexadecimal word, _ =>
      [Numeral.hexadecimal word].filter fun bytes => bytes ≠ []
  | .writeHeading level, world => world.headingWrites level
  | _, _ => []

theorem sent_nonempty (command : Command) (world : World) :
    ∀ bytes ∈ command.sent world, bytes ≠ [] := by
  have filtered (bytes : Bytes) :
      ∀ other ∈ [bytes].filter fun bytes => bytes ≠ [], other ≠ [] := by
    intro other member
    simpa using (List.mem_filter.mp member).2
  cases command with
  | writeRaw | writeText | writeDecimal | writeHexadecimal =>
      exact filtered _
  | writeHeading level =>
      exact Fragment.writes_nonempty _ _
  | _ =>
      intro bytes impossible
      cases impossible

section Rest

variable {world now : World} {destination : Destination}

private theorem run_map_of_writes {script : Script Unit}
    {writes : List Bytes}
    (runs : script.run world = (Logger.writeAll destination writes).run now) :
    ∃ value, (Value.ofUnit <$> script).run world =
      ((Logger.writeAll destination writes).run now).map fun _ => value := by
  refine ⟨.nothing, ?_⟩
  rw [Script.run_map, runs]
  rfl

private theorem run_map_of_answer {α : Type} {script : Script α} {answer : α}
    (runs : script.run world =
      { ending := .returned answer, world := world, accepted := [] })
    (function : α → Value) :
    ∃ value, (function <$> script).run world =
      ((Logger.writeAll destination []).run world).map fun _ => value := by
  refine ⟨function answer, ?_⟩
  rw [Script.run_map, runs]
  rfl

/-- What is left of a command that renders no message, once it has played its
role: it stores something, and then makes its writes. -/
theorem run_rest {command : Command} (plain : command.logs = false)
    (free : world.configLock.holder = none) :
    ∃ value, command.rest.run world =
      ((Logger.writeAll (world.get .destination) (command.sent world)).run
        (command.stored world)).map fun _ => value := by
  cases command with
  | log | facadeLog =>
      cases plain
  | setPrefix text =>
      exact run_map_of_writes (Logger.run_setPrefix free text)
  | prefixText =>
      exact run_map_of_answer (Logger.run_prefixText free) Value.text
  | enabledModules =>
      exact run_map_of_answer
        (Script.run_readUnderLock .modules (fun table => pure table.names)
          free) Value.names
  | moduleIsEnabled name =>
      exact run_map_of_answer (Logger.run_moduleIsEnabled free name)
        Value.truth
  | wouldLog level moduleName =>
      exact run_map_of_answer (Logger.run_gates free level moduleName)
        Value.truth
  | facadeEnabled severity target =>
      exact run_map_of_answer (Logger.run_gates free severity.level _)
        Value.truth
  | writeRaw bytes =>
      exact run_map_of_writes (Logger.run_writeRaw bytes)
  | writeText text =>
      exact run_map_of_writes (Logger.run_writeRaw (Text.utf8 text))
  | writeDecimal word =>
      exact run_map_of_writes (Logger.run_writeRaw (Numeral.decimal word))
  | writeHexadecimal word =>
      exact run_map_of_writes
        (Logger.run_writeRaw (Numeral.hexadecimal word))
  | writeHeading level =>
      exact run_map_of_writes (Logger.run_writeHeading free level)
  | _ =>
      exact ⟨_, rfl⟩

end Rest

end Command

end LeveledLog
