/-
One attempt at applying the defaults of the environment.

Which variables an attempt asks for, and whether it fails, is settled by the
claims made before it and by the next answers of the environment.  `Attempt`
says all that an attempt does to a logger at rest, and `attempt_initOnce` that
it does no more and no less.
-/

import LeveledLog.Proofs.Core

namespace LeveledLog

namespace Reading

def fault? : Reading → Option String
  | .panic message => some message
  | .unset | .text _ => none

def value? : Reading → Option String
  | .text value => some value
  | .unset | .panic _ => none

end Reading

structure Claims where
  level : Bool
  modules : Bool
deriving DecidableEq

namespace Claims

def levelReading (claims : Claims) (environment : Environment) : Reading :=
  if claims.level then .unset else (environment .level).head

def asksModules (claims : Claims) (environment : Environment) : Bool :=
  !claims.modules && (claims.levelReading environment).fault?.isNone

def modulesReading (claims : Claims) (environment : Environment) : Reading :=
  if claims.asksModules environment then (environment .modules).head
  else .unset

def questions (claims : Claims) (environment : Environment) :
    List Variable :=
  (if claims.level then [] else [.level]) ++
    (if claims.asksModules environment then [.modules] else [])

def fault? (claims : Claims) (environment : Environment) : Option String :=
  (claims.levelReading environment).fault?.or
    (claims.modulesReading environment).fault?

end Claims

namespace Environment

def afterQuestions (environment : Environment) (asked : List Variable) :
    Environment :=
  fun other =>
    if other ∈ asked then (environment other).tail else environment other

end Environment

namespace World

def claims (world : World) : Claims where
  level := world.get .levelClaimed
  modules := world.get .modulesClaimed

def fault? (world : World) : Option String :=
  world.claims.fault? world.surroundings.environment

def questions (world : World) : List Variable :=
  world.claims.questions world.surroundings.environment

def nextLevel (world : World) : Level :=
  match (world.claims.levelReading world.surroundings.environment).value? with
  | some setting => Level.ofSetting setting
  | none => world.get .minLevel

def nextModules (world : World) : ModuleTable :=
  match (world.claims.modulesReading
    world.surroundings.environment).value? with
  | some setting => (world.get .modules).enableAll (Text.segments setting)
  | none => world.get .modules

end World

/-! ### The parts of an attempt -/

namespace World

def afterQuestion (world : World) (asked : Variable) : World :=
  { world with surroundings := (world.surroundings.lookup asked).2 }

def withModules (world : World) (table : ModuleTable) : World :=
  (world.set .modules table).set .filterActive table.isActive

def afterLevel (world : World) : World :=
  if world.claims.level then world
  else (world.afterQuestion .level).set .minLevel world.nextLevel

private theorem afterLevel_configLock (world : World) :
    world.afterLevel.configLock = world.configLock := by
  unfold afterLevel
  split <;> rfl

private theorem afterLevel_get (world : World) {cell : Cell}
    (different : cell ≠ .minLevel) :
    world.afterLevel.get cell = world.get cell := by
  unfold afterLevel
  split
  · rfl
  · exact get_set_of_ne _ _ different

private theorem afterLevel_claims (world : World) :
    world.afterLevel.claims = world.claims := by
  unfold claims
  rw [afterLevel_get world (fun same => by cases same),
    afterLevel_get world (fun same => by cases same)]

private theorem afterLevel_environment_modules (world : World) :
    world.afterLevel.surroundings.environment .modules =
      world.surroundings.environment .modules := by
  unfold afterLevel
  split <;> rfl

def afterModules (world : World) : World :=
  match (world.surroundings.environment .modules).head.value? with
  | some setting =>
      (world.afterQuestion .modules).withModules
        ((world.get .modules).enableAll (Text.segments setting))
  | none => world.afterQuestion .modules

def afterDefaults (world : World) : World :=
  if world.claims.asksModules world.surroundings.environment then
    world.afterLevel.afterModules
  else world.afterLevel

def attemptEnding (world : World) : Ending Unit :=
  match world.fault? with
  | some text => .panicked text
  | none => .returned ()

end World

namespace Script

variable {α : Type}

theorem run_load_bind (cell : Cell) (continuation : cell.Value → Script α)
    (world : World) :
    (load cell >>= continuation).run world =
      (continuation (world.get cell)).run world := rfl

theorem run_store_bind (cell : Cell) (value : cell.Value)
    (continuation : Unit → Script α) (world : World) :
    (store cell value >>= continuation).run world =
      (continuation ()).run (world.set cell value) := rfl

theorem run_store (cell : Cell) (value : cell.Value) (world : World) :
    (store cell value).run world =
      { ending := .returned (), world := world.set cell value
        accepted := [] } := rfl

private theorem run_lookup (asked : Variable) (world : World) :
    (lookup asked).run world =
      { ending :=
          match (world.surroundings.environment asked).head with
          | .unset => .returned none
          | .text value => .returned (some value)
          | .panic text => .panicked text
        world := world.afterQuestion asked
        accepted := [] } := by
  rw [lookup, run_bind]
  change Outcome.andThen
    { ending := .returned (world.surroundings.environment asked).head
      world := world.afterQuestion asked
      accepted := [] } _ = _
  cases (world.surroundings.environment asked).head with
  | unset | text | panic =>
      rfl

end Script

namespace Logger

open Script

theorem run_changeModules {world : World}
    (free : world.configLock.holder = none)
    (change : ModuleTable → ModuleTable) :
    (changeModules change).run world =
      { ending := .returned ()
        world := world.withModules (change (world.get .modules))
        accepted := [] } := by
  rcases world with
    ⟨settings, ⟨holder, poisoned⟩, outputLock, initialisation, surroundings⟩
  change holder = none at free
  subst free
  cases poisoned with
  | false | true =>
      rfl

private theorem run_applyLevelDefault (world : World) :
    applyLevelDefault.run world =
      { ending :=
          match (world.claims.levelReading
            world.surroundings.environment).fault? with
          | some text => .panicked text
          | none => .returned ()
        world := world.afterLevel
        accepted := [] } := by
  rw [applyLevelDefault, run_load_bind]
  unfold World.afterLevel World.nextLevel Claims.levelReading
  change (if world.claims.level then pure () else _ : Script Unit).run world
    = _
  have unchanged : (world.afterQuestion .level).set .minLevel
      (world.get .minLevel) = world.afterQuestion .level := rfl
  cases world.claims.level with
  | true =>
      rfl
  | false =>
      simp only [Bool.false_eq_true, if_false, run_bind, run_lookup]
      cases (world.surroundings.environment .level).head with
      | unset =>
          simp only [Outcome.andThen, Reading.fault?, Reading.value?,
            unchanged]
          rfl
      | text setting =>
          rfl
      | panic text =>
          simp only [Outcome.andThen, Reading.fault?, Reading.value?,
            unchanged]

private theorem run_applyModulesDefault {world : World}
    (free : world.configLock.holder = none) :
    applyModulesDefault.run world =
      if world.claims.modules then
        { ending := .returned (), world := world, accepted := [] }
      else
        { ending :=
            match (world.surroundings.environment .modules).head.fault? with
            | some text => .panicked text
            | none => .returned ()
          world := world.afterModules
          accepted := [] } := by
  rw [applyModulesDefault, run_load_bind]
  unfold World.afterModules
  change (if world.claims.modules then pure () else _ : Script Unit).run world
    = _
  cases world.claims.modules with
  | true =>
      rfl
  | false =>
      simp only [Bool.false_eq_true, if_false, run_bind, run_lookup]
      cases (world.surroundings.environment .modules).head with
      | unset | panic =>
          rfl
      | text setting =>
          have freeStill : (world.afterQuestion .modules).configLock.holder =
              none := free
          simp only [Outcome.andThen, run_changeModules freeStill,
            Reading.fault?, Reading.value?]
          rfl

private theorem run_applyDefaults {world : World}
    (free : world.configLock.holder = none) :
    applyDefaults.run world =
      { ending := world.attemptEnding
        world := world.afterDefaults
        accepted := [] } := by
  have sameClaims := world.afterLevel_claims
  have sameAnswers := world.afterLevel_environment_modules
  have freeAfter : world.afterLevel.configLock.holder = none := by
    rw [world.afterLevel_configLock]
    exact free
  rw [applyDefaults, run_bind, run_applyLevelDefault]
  unfold World.attemptEnding World.afterDefaults World.fault? Claims.fault?
    Claims.modulesReading Claims.asksModules
  cases (world.claims.levelReading world.surroundings.environment).fault? with
  | some text =>
      simp [Outcome.andThen]
  | none =>
      simp only [Outcome.andThen, Outcome.after_nil,
        run_applyModulesDefault freeAfter, sameClaims, sameAnswers]
      cases world.claims.modules with
      | true =>
          rfl
      | false =>
          rfl

private theorem afterDefaults_initialisation (world : World)
    (initialisation : Initialisation) :
    ({ world with initialisation := initialisation } : World).afterDefaults =
      { world.afterDefaults with initialisation := initialisation } := by
  have level :
      ({ world with initialisation := initialisation } : World).afterLevel =
        { world.afterLevel with initialisation := initialisation } := by
    change (if world.claims.level then _ else _) = _
    unfold World.afterLevel
    split
    · rfl
    · rfl
  change (if world.claims.asksModules world.surroundings.environment then _
    else _) = _
  unfold World.afterDefaults
  rw [level]
  split
  · change (match (world.afterLevel.surroundings.environment
      .modules).head.value? with | some _ => _ | none => _) = _
    unfold World.afterModules
    split
    · rfl
    · rfl
  · rfl

theorem run_initOnce_of_complete {world : World}
    (complete : world.initialisation = .complete) :
    initOnce.run world =
      { ending := .returned (), world := world, accepted := [] } := by
  rw [initOnce, run_bind, run_perform,
    Action.perform_begin_of_complete complete]
  rfl

theorem run_initOnce_of_pending {world : World}
    (pending : world.initialisation = .pending)
    (free : world.configLock.holder = none) :
    initOnce.run world =
      { ending := world.attemptEnding
        world :=
          { world.afterDefaults with
            initialisation :=
              if world.fault?.isSome then .pending else .complete }
        accepted := [] } := by
  have runs : initOnce.run world =
      (applyDefaults.run
        { world with initialisation := .running }).caught.andThen
          finishInitialisation := by
    rw [initOnce, run_bind, run_perform]
    simp only [Action.perform, pending]
    change ((attempt applyDefaults >>= finishInitialisation).run _).after [] = _
    rw [Outcome.after_nil, run_bind, run_attempt]
    rfl
  have freeRunning :
      ({ world with initialisation := .running } : World).configLock.holder =
        none := free
  rw [runs, run_applyDefaults freeRunning, afterDefaults_initialisation]
  change Outcome.andThen (Outcome.caught
    { ending := world.attemptEnding
      world := { world.afterDefaults with initialisation := .running }
      accepted := [] }) finishInitialisation = _
  unfold World.attemptEnding
  cases world.fault? with
  | some text =>
      rfl
  | none =>
      rfl

end Logger

/-! ### What an attempt does -/

namespace Environment

private theorem afterQuestions_lookup (surroundings : Surroundings)
    (asked : Variable) :
    (surroundings.lookup asked).2.environment =
      surroundings.environment.afterQuestions [asked] := by
  funext other
  simp only [Surroundings.lookup, afterQuestions, List.mem_singleton]
  split
  · rename_i same
    rw [same]
  · rfl

@[simp] theorem afterQuestions_nil (environment : Environment) :
    environment.afterQuestions [] = environment := by
  funext other
  simp [afterQuestions]

end Environment

namespace World

private theorem afterLevel_lookups (world : World) :
    world.afterLevel.surroundings.lookups =
      world.surroundings.lookups ++
        if world.claims.level then [] else [.level] := by
  unfold afterLevel
  split
  · simp
  · rfl

private theorem afterLevel_environment (world : World) :
    world.afterLevel.surroundings.environment =
      world.surroundings.environment.afterQuestions
        (if world.claims.level then [] else [.level]) := by
  unfold afterLevel
  split
  · simp
  · exact Environment.afterQuestions_lookup world.surroundings .level

private theorem afterLevel_minLevel (world : World) :
    world.afterLevel.get .minLevel = world.nextLevel := by
  unfold afterLevel nextLevel Claims.levelReading
  split
  · simp [Reading.value?]
  · simp

private theorem afterDefaults_lookups (world : World) :
    world.afterDefaults.surroundings.lookups =
      world.surroundings.lookups ++ world.questions := by
  unfold afterDefaults questions Claims.questions
  split
  · rw [← List.append_assoc, ← afterLevel_lookups]
    unfold afterModules
    split
    · rfl
    · rfl
  · rw [List.append_nil, ← afterLevel_lookups]

private theorem afterDefaults_environment (world : World) :
    world.afterDefaults.surroundings.environment =
      world.surroundings.environment.afterQuestions world.questions := by
  unfold afterDefaults questions Claims.questions
  split
  · have asked : world.afterLevel.afterModules.surroundings.environment =
        world.afterLevel.surroundings.environment.afterQuestions
          [.modules] := by
      rw [← Environment.afterQuestions_lookup]
      unfold afterModules
      split
      · rfl
      · rfl
    rw [asked, afterLevel_environment]
    funext other
    cases other with
    | level =>
        simp [Environment.afterQuestions]
    | modules =>
        simp [Environment.afterQuestions]
  · rw [List.append_nil, ← afterLevel_environment]

private theorem afterModules_minLevel (world : World) :
    world.afterModules.get .minLevel = world.get .minLevel := by
  unfold afterModules
  split
  · rfl
  · rfl

private theorem afterDefaults_minLevel (world : World) :
    world.afterDefaults.get .minLevel = world.nextLevel := by
  unfold afterDefaults
  split
  · rw [afterModules_minLevel, afterLevel_minLevel]
  · exact afterLevel_minLevel world

private theorem afterDefaults_modules (world : World) :
    world.afterDefaults.get .modules = world.nextModules := by
  have kept : world.afterLevel.get .modules = world.get .modules :=
    afterLevel_get world (fun same => by cases same)
  unfold afterDefaults nextModules Claims.modulesReading
  split
  · rw [← afterLevel_environment_modules]
    unfold afterModules
    split
    · rw [kept]
      rfl
    · exact kept
  · exact kept

private theorem afterDefaults_filterActive (world : World) :
    world.afterDefaults.get .filterActive =
      if (world.claims.modulesReading
          world.surroundings.environment).value?.isSome then
        world.nextModules.isActive
      else world.get .filterActive := by
  have keptModules : world.afterLevel.get .modules = world.get .modules :=
    afterLevel_get world (fun same => by cases same)
  have keptMirror :
      world.afterLevel.get .filterActive = world.get .filterActive :=
    afterLevel_get world (fun same => by cases same)
  unfold afterDefaults nextModules Claims.modulesReading
  split
  · rw [← afterLevel_environment_modules]
    unfold afterModules
    split
    · rename_i setting given
      rw [keptModules, given]
      rfl
    · rename_i given
      rw [given]
      exact keptMirror
  · exact keptMirror

private theorem afterDefaults_get (world : World) {cell : Cell}
    (notLevel : cell ≠ .minLevel) (notModules : cell ≠ .modules)
    (notMirror : cell ≠ .filterActive) :
    world.afterDefaults.get cell = world.get cell := by
  have kept : world.afterLevel.get cell = world.get cell :=
    afterLevel_get world notLevel
  unfold afterDefaults
  split
  · unfold afterModules
    split
    · unfold withModules
      rw [get_set_of_ne _ _ notMirror, get_set_of_ne _ _ notModules]
      exact kept
    · exact kept
  · exact kept

private theorem afterDefaults_configLock (world : World) :
    world.afterDefaults.configLock = world.configLock := by
  unfold afterDefaults
  split
  · unfold afterModules
    split
    · exact afterLevel_configLock world
    · exact afterLevel_configLock world
  · exact afterLevel_configLock world

private theorem afterLevel_outputLock (world : World) :
    world.afterLevel.outputLock = world.outputLock := by
  unfold afterLevel
  split <;> rfl

private theorem afterDefaults_outputLock (world : World) :
    world.afterDefaults.outputLock = world.outputLock := by
  unfold afterDefaults
  split
  · unfold afterModules
    split
    · exact afterLevel_outputLock world
    · exact afterLevel_outputLock world
  · exact afterLevel_outputLock world

/-- All that an attempt from a world does, up to its outcome. -/
structure Attempt (before : World) (outcome : Outcome Unit) : Prop where
  ending : outcome.ending = before.attemptEnding
  accepted : outcome.accepted = []
  initialisation : outcome.world.initialisation =
    if before.fault?.isSome then .pending else .complete
  lookups : outcome.world.surroundings.lookups =
    before.surroundings.lookups ++ before.questions
  environment : outcome.world.surroundings.environment =
    before.surroundings.environment.afterQuestions before.questions
  minLevel : outcome.world.get .minLevel = before.nextLevel
  modules : outcome.world.get .modules = before.nextModules
  filterActive : outcome.world.get .filterActive =
    if (before.claims.modulesReading
        before.surroundings.environment).value?.isSome then
      before.nextModules.isActive
    else before.get .filterActive
  others : ∀ cell, cell ≠ .minLevel → cell ≠ .modules →
    cell ≠ .filterActive → outcome.world.get cell = before.get cell
  configLock : outcome.world.configLock = before.configLock
  outputLock : outcome.world.outputLock = before.outputLock

theorem Attempt.mirror {before : World} {outcome : Outcome Unit}
    (attempt : before.Attempt outcome)
    (mirror : before.get .filterActive = (before.get .modules).isActive) :
    outcome.world.get .filterActive =
      (outcome.world.get .modules).isActive := by
  rw [attempt.filterActive, attempt.modules]
  unfold nextModules
  cases (before.claims.modulesReading
    before.surroundings.environment).value? with
  | none =>
      exact mirror
  | some setting =>
      rfl

theorem modulesReading_of_fault {world : World} {text : String}
    (fault : world.fault? = some text) :
    (world.claims.modulesReading world.surroundings.environment).value? =
      none := by
  revert fault
  unfold fault? Claims.fault? Claims.modulesReading Claims.asksModules
  cases (world.claims.levelReading world.surroundings.environment).fault? with
  | some other =>
      simp [Reading.value?]
  | none =>
      split
      · cases (world.surroundings.environment .modules).head with
        | unset | panic =>
            exact fun _ => rfl
        | text setting =>
            intro impossible
            cases impossible
      · exact fun _ => rfl

theorem Attempt.claims {before : World} {outcome : Outcome Unit}
    (attempt : before.Attempt outcome) :
    outcome.world.claims = before.claims := by
  unfold World.claims
  rw [attempt.others _ (fun same => by cases same)
      (fun same => by cases same) (fun same => by cases same),
    attempt.others _ (fun same => by cases same)
      (fun same => by cases same) (fun same => by cases same)]

end World

/-- An initialising call makes one attempt as long as none has succeeded. -/
theorem Logger.attempt_initOnce {world : World}
    (pending : world.initialisation = .pending)
    (free : world.configLock.holder = none) :
    world.Attempt (initOnce.run world) := by
  rw [run_initOnce_of_pending pending free]
  exact
    { ending := rfl
      accepted := rfl
      initialisation := rfl
      lookups := world.afterDefaults_lookups
      environment := world.afterDefaults_environment
      minLevel := world.afterDefaults_minLevel
      modules := world.afterDefaults_modules
      filterActive := world.afterDefaults_filterActive
      others := fun _ notLevel notModules notMirror =>
        world.afterDefaults_get notLevel notModules notMirror
      configLock := world.afterDefaults_configLock
      outputLock := world.afterDefaults_outputLock }

end LeveledLog
