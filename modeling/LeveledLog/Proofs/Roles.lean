/-
The part that calls play for the core of a logger.

A call plays its role first: it claims a setting, makes sure that the defaults
have been applied, and stores what it sets.  What it does after that is
peripheral, except that a message which passes may make calls of its own while
it is rendered.  `Role.Played` lists what playing a role can come to on a
logger at rest.
-/

import LeveledLog.Proofs.Attempt

namespace LeveledLog

inductive ModuleChange where
  | enable (name : String)
  | disable (name : String)
  | clear
deriving DecidableEq

def ModuleChange.apply : ModuleChange → ModuleTable → ModuleTable
  | .enable name, table => table.enable name
  | .disable name, table => table.disable name
  | .clear, _ => ModuleTable.empty

inductive Role where
  | peripheral
  | initialises
  | setsLevel (level : Level)
  | changesModules (change : ModuleChange)
deriving DecidableEq

def Command.role : Command → Role
  | .initOnce | .wouldLog _ _ | .log _ _ => .initialises
  | .facadeEnabled _ _ | .facadeLog _ _ => .initialises
  | .setMinLevel level => .setsLevel level
  | .enableModule name =>
      if ModuleTable.acceptable name then .changesModules (.enable name)
      else .peripheral
  | .disableModule name =>
      if name = "" then .peripheral else .changesModules (.disable name)
  | .enableAllModules => .changesModules .clear
  | _ => .peripheral

theorem Command.role_eq_setsLevel {command : Command} {level : Level}
    (sets : command.role = .setsLevel level) :
    command = .setMinLevel level := by
  cases command with
  | setMinLevel other =>
      cases sets
      rfl
  | enableModule name =>
      simp only [role] at sets
      split at sets
      · cases sets
      · cases sets
  | disableModule name =>
      simp only [role] at sets
      split at sets
      · cases sets
      · cases sets
  | _ =>
      cases sets

namespace Role

def initialising : Role → Bool
  | .peripheral => false
  | .initialises | .setsLevel _ | .changesModules _ => true

def claimsLevel : Role → Bool
  | .setsLevel _ => true
  | .peripheral | .initialises | .changesModules _ => false

def claimsModules : Role → Bool
  | .changesModules _ => true
  | .peripheral | .initialises | .setsLevel _ => false

def level? : Role → Option Level
  | .setsLevel level => some level
  | .peripheral | .initialises | .changesModules _ => none

def change : Role → ModuleTable → ModuleTable
  | .changesModules change => change.apply
  | .peripheral | .initialises | .setsLevel _ => id

def script : Role → Script Unit
  | .peripheral => pure ()
  | .initialises => Logger.initOnce
  | .setsLevel level => Logger.setMinLevel level
  | .changesModules change => do
      Logger.claimModules
      Logger.changeModules change.apply

def claim : Role → World → World
  | .peripheral, world | .initialises, world => world
  | .setsLevel _, world => world.set .levelClaimed true
  | .changesModules _, world => world.set .modulesClaimed true

def effect : Role → World → World
  | .peripheral, world | .initialises, world => world
  | .setsLevel level, world => world.set .minLevel level
  | .changesModules change, world =>
      world.withModules (change.apply (world.get .modules))

end Role

namespace Logger

open Script

def logPassing (entry : Entry) (render : Script (Option String)) :
    Script Unit := do
  let passes ← gates entry.level entry.moduleName
  if passes then do
    let rendered ← render
    writeRendered entry rendered
  else
    pure ()

theorem log_eq (entry : Entry) (render : Script (Option String)) :
    log entry render = (initOnce >>= fun _ => logPassing entry render) := by
  unfold log logPassing
  rw [wouldLog_eq, bind_assoc]

end Logger

namespace Command

def rest : Command → Script Value
  | .initOnce | .setMinLevel _ => pure .nothing
  | .enableModule _ | .disableModule _ | .enableAllModules => pure .nothing
  | .wouldLog level moduleName =>
      Value.truth <$> Logger.gates level moduleName
  | .facadeEnabled severity target =>
      Value.truth <$> Logger.gates severity.level (some target)
  | .log entry message =>
      Value.ofUnit <$> Logger.logPassing entry message.render
  | .facadeLog record message =>
      Value.ofUnit <$>
        Logger.logPassing record.entry (Facade.endLine message.render)
  | command => command.script

/-- Every command plays its role before it does anything else. -/
theorem script_eq (command : Command) :
    command.script = (command.role.script >>= fun _ => command.rest) := by
  cases command with
  | initOnce | setMinLevel =>
      exact map_eq_pure_bind _ _
  | enableAllModules =>
      change Value.ofUnit <$> Logger.enableAllModules = _
      rw [map_eq_pure_bind]
      rfl
  | enableModule name =>
      simp only [script, role, Logger.enableModule]
      split
      · exact map_eq_pure_bind _ _
      · rfl
  | disableModule name =>
      simp only [script, role, Logger.disableModule]
      split
      · rfl
      · exact map_eq_pure_bind _ _
  | wouldLog level moduleName =>
      simp only [script, role, rest, Role.script, Logger.wouldLog_eq,
        map_bind]
  | facadeEnabled severity target =>
      simp only [script, role, rest, Role.script, Facade.enabled,
        Logger.wouldLog_eq, map_bind]
  | log entry message =>
      simp only [script, role, rest, Role.script, Logger.log_eq, map_bind]
  | facadeLog record message =>
      simp only [script, role, rest, Role.script, Facade.log, Logger.log_eq,
        map_bind]
  | _ =>
      rfl

end Command

def Command.logs : Command → Bool
  | .log _ _ | .facadeLog _ _ => true
  | _ => false

theorem Command.rest_peripheral {command : Command}
    (silent : command.logs = false) :
    command.rest.Peripheral false := by
  cases command with
  | log | facadeLog =>
      cases silent
  | initOnce | setMinLevel | enableModule | disableModule
  | enableAllModules =>
      exact .value _
  | wouldLog | facadeEnabled =>
      exact .map _ (Logger.gates_peripheral _ _)
  | _ =>
      exact Command.script_peripheral rfl

/-! ### Playing a role -/

namespace Role

open Script

theorem claim_configLock (role : Role) (world : World) :
    (role.claim world).configLock = world.configLock := by
  cases role <;> rfl

theorem claim_outputLock (role : Role) (world : World) :
    (role.claim world).outputLock = world.outputLock := by
  cases role <;> rfl

theorem claim_initialisation (role : Role) (world : World) :
    (role.claim world).initialisation = world.initialisation := by
  cases role <;> rfl

theorem claim_surroundings (role : Role) (world : World) :
    (role.claim world).surroundings = world.surroundings := by
  cases role <;> rfl

theorem claim_get (role : Role) (world : World) {cell : Cell}
    (notLevel : cell ≠ .levelClaimed) (notModules : cell ≠ .modulesClaimed) :
    (role.claim world).get cell = world.get cell := by
  cases role with
  | peripheral | initialises =>
      rfl
  | setsLevel level =>
      exact World.get_set_of_ne _ _ notLevel
  | changesModules change =>
      exact World.get_set_of_ne _ _ notModules

theorem claim_claims (role : Role) (world : World) :
    (role.claim world).claims =
      { level := world.claims.level || role.claimsLevel
        modules := world.claims.modules || role.claimsModules } := by
  cases role with
  | peripheral | initialises =>
      simp [claim, claimsLevel, claimsModules]
  | setsLevel level =>
      have others : (world.set .levelClaimed true).get .modulesClaimed =
          world.get .modulesClaimed := rfl
      simp [claim, claimsLevel, claimsModules, World.claims, others]
  | changesModules change =>
      have others : (world.set .modulesClaimed true).get .levelClaimed =
          world.get .levelClaimed := rfl
      simp [claim, claimsLevel, claimsModules, World.claims, others]

private theorem effect_configLock (role : Role) (world : World) :
    (role.effect world).configLock = world.configLock := by
  cases role <;> rfl

private theorem effect_outputLock (role : Role) (world : World) :
    (role.effect world).outputLock = world.outputLock := by
  cases role <;> rfl

theorem effect_initialisation (role : Role) (world : World) :
    (role.effect world).initialisation = world.initialisation := by
  cases role <;> rfl

theorem effect_surroundings (role : Role) (world : World) :
    (role.effect world).surroundings = world.surroundings := by
  cases role <;> rfl

theorem effect_claims (role : Role) (world : World) :
    (role.effect world).claims = world.claims := by
  cases role <;> rfl

theorem effect_minLevel (role : Role) (world : World) :
    (role.effect world).get .minLevel =
      role.level?.getD (world.get .minLevel) := by
  cases role <;> rfl

theorem effect_modules (role : Role) (world : World) :
    (role.effect world).get .modules =
      role.change (world.get .modules) := by
  cases role <;> rfl

theorem effect_filterActive (role : Role) (world : World)
    (mirror : world.get .filterActive = (world.get .modules).isActive) :
    (role.effect world).get .filterActive =
      ((role.effect world).get .modules).isActive := by
  cases role with
  | peripheral | initialises | setsLevel =>
      exact mirror
  | changesModules change =>
      rfl

def outcome (role : Role) (attempted : Outcome Unit) : Outcome Unit :=
  match attempted.ending with
  | .returned () => { attempted with world := role.effect attempted.world }
  | _ => attempted

theorem run_script {role : Role} (initialising : role.initialising = true)
    {world : World}
    (freeAfter : (Logger.initOnce.run (role.claim world)).world.configLock.holder
      = none) :
    role.script.run world =
      role.outcome (Logger.initOnce.run (role.claim world)) := by
  cases role with
  | peripheral =>
      cases initialising
  | initialises =>
      change Logger.initOnce.run world = outcome _ (Logger.initOnce.run world)
      unfold outcome
      split <;> rfl
  | setsLevel level =>
      change (Logger.setMinLevel level).run world = _
      rw [Logger.setMinLevel, run_store_bind, run_bind]
      change (Logger.initOnce.run (claim (.setsLevel level) world)).andThen
        _ = _
      rcases Logger.initOnce.run (claim (.setsLevel level) world) with
        ⟨ending, after, accepted⟩
      cases ending with
      | returned value =>
          simp [Outcome.andThen, Outcome.after, run_store, outcome, effect]
      | panicked | waiting =>
          rfl
  | changesModules change =>
      change (Logger.claimModules >>= fun _ =>
        Logger.changeModules change.apply).run world = _
      rw [Logger.claimModules, bind_assoc, run_store_bind, run_bind]
      change (Logger.initOnce.run
        (claim (.changesModules change) world)).andThen _ = _
      rcases attempted :
        Logger.initOnce.run (claim (.changesModules change) world) with
        ⟨ending, after, accepted⟩
      rw [attempted] at freeAfter
      cases ending with
      | returned value =>
          simp [Outcome.andThen, Outcome.after, outcome, effect,
            Logger.run_changeModules freeAfter]
      | panicked | waiting =>
          rfl

/-- All that playing a role on a logger at rest can come to. -/
inductive Played (role : Role) (world : World) : Outcome Unit → Prop
  | outside (peripheral : role.initialising = false) :
      Played role world
        { ending := .returned (), world := world, accepted := [] }
  | settled (initialising : role.initialising = true)
      (complete : world.initialisation = .complete) :
      Played role world
        { ending := .returned ()
          world := role.effect (role.claim world)
          accepted := [] }
  | applied {attempted : Outcome Unit}
      (initialising : role.initialising = true)
      (pending : world.initialisation = .pending)
      (attempt : (role.claim world).Attempt attempted)
      (passed : (role.claim world).fault? = none) :
      Played role world
        { ending := .returned ()
          world := role.effect attempted.world
          accepted := [] }
  | failed {attempted : Outcome Unit} {text : String}
      (initialising : role.initialising = true)
      (pending : world.initialisation = .pending)
      (attempt : (role.claim world).Attempt attempted)
      (fault : (role.claim world).fault? = some text) :
      Played role world
        { ending := .panicked text
          world := attempted.world
          accepted := [] }

theorem played (role : Role) {world : World} (rest : world.AtRest) :
    role.Played world (role.script.run world) := by
  by_cases initialising : role.initialising = true
  · have free : (role.claim world).configLock.holder = none := by
      rw [claim_configLock]
      exact rest.configFree
    cases state : world.initialisation with
    | running =>
        exact absurd state rest.settled
    | complete =>
        have complete : (role.claim world).initialisation = .complete := by
          rw [claim_initialisation, state]
        have runs := Logger.run_initOnce_of_complete complete
        rw [run_script initialising (by rw [runs]; exact free), runs]
        exact .settled initialising state
    | pending =>
        have pending : (role.claim world).initialisation = .pending := by
          rw [claim_initialisation, state]
        have attempt := Logger.attempt_initOnce pending free
        rw [run_script initialising
          (by rw [attempt.configLock]; exact free)]
        revert attempt
        rcases Logger.initOnce.run (role.claim world) with
          ⟨ending, after, accepted⟩
        intro attempt
        have silent : accepted = [] := attempt.accepted
        have ends : ending = (role.claim world).attemptEnding :=
          attempt.ending
        subst silent ends
        cases fault : (role.claim world).fault? with
        | none =>
            have result := Played.applied initialising state attempt fault
            simpa [outcome, World.attemptEnding, fault] using result
        | some text =>
            have result := Played.failed initialising state attempt fault
            simpa [outcome, World.attemptEnding, fault] using result
  · have peripheral : role = .peripheral := by
      cases role with
      | peripheral =>
          rfl
      | initialises | setsLevel | changesModules =>
          exact absurd rfl initialising
    subst peripheral
    exact .outside rfl

namespace Played

variable {role : Role} {world : World} {outcome : Outcome Unit}

theorem atRest (played : role.Played world outcome) (rest : world.AtRest) :
    outcome.world.AtRest := by
  cases played with
  | outside =>
      exact rest
  | settled _ complete =>
      constructor
      · rw [effect_configLock, claim_configLock]
        exact rest.configFree
      · rw [effect_outputLock, claim_outputLock]
        exact rest.outputFree
      · rw [effect_initialisation, claim_initialisation]
        exact rest.settled
  | applied _ pending attempt passed =>
      constructor
      · rw [effect_configLock, attempt.configLock, claim_configLock]
        exact rest.configFree
      · rw [effect_outputLock, attempt.outputLock, claim_outputLock]
        exact rest.outputFree
      · rw [effect_initialisation, attempt.initialisation, passed]
        intro impossible
        cases impossible
  | failed _ pending attempt fault =>
      constructor
      · rw [attempt.configLock, claim_configLock]
        exact rest.configFree
      · rw [attempt.outputLock, claim_outputLock]
        exact rest.outputFree
      · rw [attempt.initialisation, fault]
        intro impossible
        cases impossible

end Played

end Role

end LeveledLog
