/-
Levels that are read from texts.

A text names a level if its bytes are those of the label up to the case of
ASCII letters, so that no blank and no character outside ASCII occurs in it,
and no text names two levels.  A setting asks for the level that it names
between blanks, or else for the least severe one; this is the minimum level of
a logger whose level nobody has claimed once it has been given the setting,
whatever its minimum level was before.
-/

import LeveledLog.Proofs.DecodedNames
import LeveledLog.Proofs.MinimumLevel

namespace LeveledLog

/-! ### Loggers that are given a setting -/

private theorem Claims.levelReading_of_unclaimed {claims : Claims}
    (unclaimed : claims.level = false) (environment : Environment) :
    claims.levelReading environment = (environment .level).head := by
  unfold levelReading
  rw [unclaimed]
  rfl

private theorem Role.level?_of_not_claiming {role : Role}
    (leaves : role.claimsLevel = false) : role.level? = none := by
  cases role with
  | peripheral | initialises | changesModules =>
      rfl
  | setsLevel =>
      cases leaves

/-- Applying the defaults to a logger whose level nobody has claimed asks for
the setting and stores what it asks for, also if the module names cannot be
had. -/
theorem Role.Played.takes_level {role : Role} {world : World}
    {outcome : Outcome Unit} {setting : String}
    (played : role.Played world outcome)
    (initialising : role.initialising = true)
    (pending : world.initialisation = .pending)
    (unclaimed : (role.claim world).claims.level = false)
    (given : (world.surroundings.environment .level).head = .text setting) :
    (∃ others, outcome.world.surroundings.lookups =
        world.surroundings.lookups ++ .level :: others) ∧
      outcome.world.get .minLevel = Level.ofSetting setting := by
  have next : (role.claim world).nextLevel = Level.ofSetting setting := by
    have follows := (role.claim world).nextLevel_follows
    rw [Role.claim_surroundings, Claims.levelReading_of_unclaimed unclaimed,
      given] at follows
    exact (Level.ofSetting_eq_iff.mpr follows).symm
  have asks : ∃ others, (role.claim world).questions = .level :: others := by
    unfold World.questions Claims.questions
    rw [unclaimed]
    exact ⟨_, rfl⟩
  obtain ⟨others, questions⟩ := asks
  have leaves : role.level? = none := by
    apply Role.level?_of_not_claiming
    rw [Role.claim_claims] at unclaimed
    exact (Bool.or_eq_false_iff.mp unclaimed).2
  cases played with
  | outside peripheral =>
      rw [initialising] at peripheral
      cases peripheral
  | settled _ complete =>
      rw [pending] at complete
      cases complete
  | applied _ _ attempt _ =>
      refine ⟨⟨others, ?_⟩, ?_⟩
      · rw [Role.effect_surroundings, attempt.lookups, questions,
          Role.claim_surroundings]
      · rw [Role.effect_minLevel, leaves, Option.getD_none, attempt.minLevel]
        exact next
  | failed _ _ attempt _ =>
      refine ⟨⟨others, ?_⟩, attempt.minLevel.trans next⟩
      rw [attempt.lookups, questions, Role.claim_surroundings]

/-- A text is read as the level that it names up to the case of ASCII letters,
if there is one, which is then the only one; any other text is refused and
handed back, and so is one with a blank or a character outside ASCII.  A
logger that has not applied the defaults and whose level nobody has claimed
takes the level that its setting spells, up to blanks around it, and the least
severe level if it spells none, in the place of any level that it had. -/
theorem levels_read_from_texts :
    (∀ text : String,
      (∀ level, Level.parse text = .ok level ↔ level.Named text) ∧
      (∀ first second : Level, first.Named text → second.Named text →
        first = second) ∧
      (∀ failure, Level.parse text = .error failure ↔
        failure = { text := text } ∧ ∀ level : Level, ¬ level.Named text) ∧
      ∀ character ∈ text.toList,
        Text.isBlank character = true ∨ 128 ≤ character.toNat →
          Level.parse text = .error { text := text }) ∧
      ∀ world : World, world.AtRest → world.initialisation = .pending →
        ∀ role : Role, role.initialising = true →
          (role.claim world).claims.level = false →
        ∀ setting,
          (world.surroundings.environment .level).head = .text setting →
          let after := (role.script.run world).world
          (∃ others, after.surroundings.lookups =
              world.surroundings.lookups ++ .level :: others) ∧
            ∀ level, after.get .minLevel = level ↔
              level.Spelled setting ∨
                level = .info ∧
                  ∀ other : Level, ¬ other.Spelled setting := by
  constructor
  · intro text
    refine ⟨fun level => Level.parse_iff_named,
      fun first second => Level.named_unique,
      fun failure => Level.parse_eq_error_iff, ?_⟩
    intro character member foreign
    apply Level.parse_eq_error_iff.mpr
    refine ⟨rfl, ?_⟩
    intro level named
    obtain ⟨solid, inside⟩ := named.solid character member
    rcases foreign with blank | outside
    · rw [solid] at blank
      cases blank
    · omega
  · intro world rest pending role initialising unclaimed setting given after
    obtain ⟨asked, stored⟩ := (role.played rest).takes_level initialising
      pending unclaimed given
    refine ⟨asked, ?_⟩
    intro level
    have same : after.get .minLevel = Level.ofSetting setting := stored
    rw [same]
    exact Level.ofSetting_eq_iff

/-- A level between blanks that are not ASCII takes the place of the one that
a failed attempt has left behind; a letter that only looks like another one
spoils a name. -/
theorem level_between_blanks_after_failure :
    let host : Host := { processId := 1, terminal := false }
    let environment : Environment := fun asked =>
      match asked with
      | .level =>
          (Tape.constant (.text "\u3000wArN\t")).before (.text "error") 1
      | .modules => (Tape.constant .unset).before (.panic "no") 1
    let failed := (Command.initOnce.script.run
      (World.fresh (Surroundings.start host environment))).world
    failed.get .minLevel = .error ∧
      (Logger.initOnce.run failed).world.get .minLevel = .warn ∧
      Level.parse "ınfo" = .error { text := "ınfo" } ∧
      Level.parse " info" = .error { text := " info" } := by
  intro host environment failed
  have rest : failed.AtRest :=
    ((World.Reachable.fresh _).call .initOnce).atRest
  obtain ⟨read, taken⟩ := levels_read_from_texts
  have level := (taken failed rest (by decide +kernel) .initialises rfl
    (by decide +kernel) "\u3000wArN\t" (by decide +kernel)).2 .warn
  refine ⟨by decide +kernel, ?_, ?_, ?_⟩
  · apply level.mpr
    left
    refine ⟨['\u3000'], "wArN", ['\t'], by decide, ?_, by decide +kernel⟩
    rintro character (first | last)
    · rw [List.mem_singleton.mp first]
      decide
    · rw [List.mem_singleton.mp last]
      decide
  · exact (read "ınfo").2.2.2 'ı' (by decide) (.inr (by decide))
  · exact (read " info").2.2.2 ' ' (by decide) (.inl (by decide))

end LeveledLog
