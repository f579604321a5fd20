/-
The module table along every run.

Along a sequence of calls on a fresh logger the table holds the names that the
claiming calls have left in it, in order, starting from the names of the
environment if the first call that applies the defaults does not claim the
table itself.  Whether the table lets a module through is answered alike by
the table, by the mirror of the table, and by the list of its names.
-/

import LeveledLog.Proofs.Answers
import LeveledLog.Proofs.Gates
import LeveledLog.Proofs.Journal
import LeveledLog.Proofs.Names

namespace LeveledLog

/-! ### What calls do to a list of names -/

def ModuleChange.onNames : ModuleChange → List String → List String
  | .enable name, names => Names.enable names name
  | .disable name, names => names.erase name
  | .clear, _ => []

def Role.onNames : Role → List String → List String
  | .changesModules change => change.onNames
  | .peripheral | .initialises | .setsLevel _ => id

def Reading.names : Reading → List String
  | .text setting => Text.segments setting
  | .unset | .panic _ => []

def Environment.moduleNames (environment : Environment) : List String :=
  Names.enableAll [] (environment .modules).head.names

/-- The names from the environment, unless the first call that applies the
defaults claims the table. -/
def seed (environment : Environment) (calls : List Call) : List String :=
  match calls.find? fun call => call.role.initialising with
  | none => []
  | some first =>
      if first.role.claimsModules then [] else environment.moduleNames

def namesAfter (environment : Environment) (calls : List Call) :
    List String :=
  calls.foldl (fun names call => call.role.onNames names)
    (seed environment calls)

/-! ### Tables and their mirror -/

structure World.Lists (world : World) (names : List String) : Prop where
  represents : (world.get .modules).Represents names
  mirror : world.get .filterActive = (world.get .modules).isActive

theorem ModuleChange.represents (change : ModuleChange) {table : ModuleTable}
    {names : List String} (represents : table.Represents names) :
    (change.apply table).Represents (change.onNames names) := by
  cases change with
  | enable name =>
      exact represents.enable name
  | disable name =>
      exact represents.disable name
  | clear =>
      exact ModuleTable.represents_empty

namespace World.Lists

variable {world : World} {names : List String}

theorem fresh (surroundings : Surroundings) :
    (World.fresh surroundings).Lists [] where
  represents := ModuleTable.represents_empty
  mirror := rfl

private theorem frame {after : World} (core : world.SameCore after)
    (lists : world.Lists names) : after.Lists names where
  represents := by
    rw [core.cells .modules rfl]
    exact lists.represents
  mirror := by
    rw [core.cells .modules rfl, core.cells .filterActive rfl]
    exact lists.mirror

theorem claim (role : Role) (lists : world.Lists names) :
    (role.claim world).Lists names where
  represents := by
    rw [Role.claim_get _ _ (fun same => by cases same)
      (fun same => by cases same)]
    exact lists.represents
  mirror := by
    rw [Role.claim_get _ _ (fun same => by cases same)
        (fun same => by cases same),
      Role.claim_get _ _ (fun same => by cases same)
        (fun same => by cases same)]
    exact lists.mirror

theorem effect (role : Role) (lists : world.Lists names) :
    (role.effect world).Lists (role.onNames names) where
  represents := by
    rw [Role.effect_modules]
    cases role with
    | peripheral | initialises | setsLevel =>
        exact lists.represents
    | changesModules change =>
        exact change.represents lists.represents
  mirror := role.effect_filterActive world lists.mirror

theorem attempt {outcome : Outcome Unit} (attempt : world.Attempt outcome)
    (lists : world.Lists names) :
    outcome.world.Lists
      (Names.enableAll names
        (world.claims.modulesReading
          world.surroundings.environment).names) where
  represents := by
    rw [attempt.modules, World.nextModules]
    cases world.claims.modulesReading world.surroundings.environment with
    | unset | panic =>
        exact lists.represents
    | text setting =>
        exact lists.represents.enableAll _
  mirror := attempt.mirror lists.mirror

theorem invariant : Invariant fun _ world => ∃ names, world.Lists names where
  frame := by
    intro calls before after core kept
    obtain ⟨names, lists⟩ := kept
    exact ⟨names, lists.frame core⟩
  plays := by
    intro calls call outcome rest kept runs played
    obtain ⟨names, lists⟩ := kept
    cases played with
    | outside =>
        exact ⟨_, lists⟩
    | settled =>
        exact ⟨_, (lists.claim call.role).effect call.role⟩
    | applied _ _ made =>
        exact ⟨_, ((lists.claim call.role).attempt made).effect call.role⟩
    | failed _ _ made =>
        have kept := (lists.claim call.role).attempt made
        exact ⟨_, kept⟩

end World.Lists

/-! ### The names along a run -/

structure Roster (environment : Environment) (calls : List Call)
    (world : World) : Prop where
  lists : world.Lists (namesAfter environment calls)
  untouched : calls.any (fun call => call.role.initialising) = false →
    world.initialisation = .pending ∧
      world.surroundings.environment = environment ∧
      world.claims = { level := false, modules := false }
  applied : calls.any (fun call => call.role.initialising) = true →
    world.initialisation = .complete

private theorem Role.onNames_of_not_initialising {role : Role}
    (peripheral : role.initialising = false) (names : List String) :
    role.onNames names = names := by
  cases role with
  | peripheral =>
      rfl
  | initialises | setsLevel | changesModules =>
      cases peripheral

private theorem foldl_onNames {calls : List Call}
    (untouched : calls.any (fun call => call.role.initialising) = false)
    (names : List String) :
    calls.foldl (fun names call => call.role.onNames names) names =
      names := by
  induction calls with
  | nil =>
      rfl
  | cons call calls inductionHypothesis =>
      rw [List.any_cons, Bool.or_eq_false_iff] at untouched
      rw [List.foldl_cons, Role.onNames_of_not_initialising untouched.1]
      exact inductionHypothesis untouched.2

private theorem find?_of_untouched {calls : List Call}
    (untouched : calls.any (fun call => call.role.initialising) = false) :
    (calls.find? fun call => call.role.initialising) = none := by
  rw [List.find?_eq_none]
  intro call member
  exact List.any_eq_false.mp untouched call member

private theorem namesAfter_of_untouched (environment : Environment)
    {calls : List Call}
    (untouched : calls.any (fun call => call.role.initialising) = false) :
    namesAfter environment calls = [] := by
  unfold namesAfter seed
  rw [find?_of_untouched untouched]
  exact foldl_onNames untouched []

private theorem namesAfter_append (environment : Environment)
    {calls : List Call}
    (applied : calls.any (fun call => call.role.initialising) = true)
    (call : Call) :
    namesAfter environment (calls ++ [call]) =
      call.role.onNames (namesAfter environment calls) := by
  have same : seed environment (calls ++ [call]) = seed environment calls := by
    obtain ⟨first, found⟩ := Option.isSome_iff_exists.mp
      (by rw [List.find?_isSome]; exact List.any_eq_true.mp applied)
    unfold seed
    rw [List.find?_append, found]
    rfl
  unfold namesAfter
  rw [same, List.foldl_append]
  rfl

private theorem namesAfter_first (environment : Environment) {calls : List Call}
    (untouched : calls.any (fun call => call.role.initialising) = false)
    {call : Call} (initialising : call.role.initialising = true) :
    namesAfter environment (calls ++ [call]) =
      call.role.onNames
        (if call.role.claimsModules then [] else environment.moduleNames) := by
  unfold namesAfter seed
  rw [List.find?_append, find?_of_untouched untouched, List.foldl_append,
    foldl_onNames untouched]
  simp only [List.find?_cons, initialising]
  rfl

private theorem Claims.names_of_calm (claims : Claims)
    {environment : Environment}
    (calm : ∀ asked, (environment asked).head.fault? = none) :
    Names.enableAll [] (claims.modulesReading environment).names =
      if claims.modules then [] else environment.moduleNames := by
  unfold Claims.modulesReading Claims.asksModules
  rw [claims.levelReading_calm environment calm]
  cases claims.modules with
  | true | false =>
      rfl

namespace Roster

variable {environment : Environment} {calls : List Call}

private theorem fresh (surroundings : Surroundings) :
    Roster surroundings.environment [] (World.fresh surroundings) where
  lists := World.Lists.fresh surroundings
  untouched _ := ⟨rfl, rfl, rfl⟩
  applied impossible := by cases impossible

private theorem frame {before after : World} (core : before.SameCore after)
    (roster : Roster environment calls before) :
    Roster environment calls after where
  lists := roster.lists.frame core
  untouched none := by
    obtain ⟨pending, same, claims⟩ := roster.untouched none
    refine ⟨core.initialisation.trans pending, core.environment.trans same, ?_⟩
    rw [← claims]
    unfold World.claims
    rw [core.cells _ rfl, core.cells _ rfl]
  applied some := core.initialisation.trans (roster.applied some)

private theorem outside {call : Call}
    (peripheral : call.role.initialising = false)
    (roster : Roster environment calls call.world) :
    Roster environment (calls ++ [call]) call.world := by
  have same : (calls ++ [call]).any (fun call => call.role.initialising) =
      calls.any fun call => call.role.initialising := by
    simp [peripheral]
  constructor
  · have kept : namesAfter environment (calls ++ [call]) =
        namesAfter environment calls := by
      cases state : calls.any fun call => call.role.initialising with
      | false =>
          rw [namesAfter_of_untouched environment (same.trans state),
            namesAfter_of_untouched environment state]
      | true =>
          rw [namesAfter_append environment state,
            Role.onNames_of_not_initialising peripheral]
    rw [kept]
    exact roster.lists
  · rw [same]
    exact roster.untouched
  · rw [same]
    exact roster.applied

private theorem settled {call : Call}
    (complete : call.world.initialisation = .complete)
    (roster : Roster environment calls call.world) :
    Roster environment (calls ++ [call])
      (call.role.effect (call.role.claim call.world)) := by
  have applied : calls.any (fun call => call.role.initialising) = true := by
    cases state : calls.any fun call => call.role.initialising with
    | false =>
        have pending := (roster.untouched state).1
        rw [complete] at pending
        cases pending
    | true =>
        rfl
  constructor
  · rw [namesAfter_append environment applied]
    exact (roster.lists.claim call.role).effect call.role
  · rw [List.any_append, applied]
    intro impossible
    cases impossible
  · intro _
    rw [Role.effect_initialisation, Role.claim_initialisation]
    exact complete

private theorem none_of_pending {world : World}
    (roster : Roster environment calls world)
    (pending : world.initialisation = .pending) :
    calls.any (fun call => call.role.initialising) = false := by
  cases state : calls.any fun call => call.role.initialising with
  | false =>
      rfl
  | true =>
      have complete := roster.applied state
      rw [pending] at complete
      cases complete

private theorem first {call : Call} {attempted : Outcome Unit}
    (calm : environment.NeverPanics)
    (initialising : call.role.initialising = true)
    (pending : call.world.initialisation = .pending)
    (attempt : (call.role.claim call.world).Attempt attempted)
    (passed : (call.role.claim call.world).fault? = none)
    (roster : Roster environment calls call.world) :
    Roster environment (calls ++ [call])
      (call.role.effect attempted.world) := by
  have state := roster.none_of_pending pending
  obtain ⟨_, same, claims⟩ := roster.untouched state
  constructor
  · rw [namesAfter_first environment state initialising]
    have lists := (roster.lists.claim call.role).attempt attempt
    rw [namesAfter_of_untouched environment state, Role.claim_claims, claims,
      Role.claim_surroundings, same,
      Claims.names_of_calm _ calm.now] at lists
    exact lists.effect call.role
  · rw [List.any_append, List.any_cons, initialising, Bool.true_or,
      Bool.or_true]
    intro impossible
    cases impossible
  · intro _
    rw [Role.effect_initialisation, attempt.initialisation, passed]
    rfl

theorem invariant (calm : environment.NeverPanics) :
    Invariant (Roster environment) where
  frame := fun core roster => roster.frame core
  plays := by
    intro calls call outcome rest roster runs played
    cases played with
    | outside peripheral =>
        exact roster.outside peripheral
    | settled _ complete =>
        exact roster.settled complete
    | applied initialising pending attempt passed =>
        exact roster.first calm initialising pending attempt passed
    | failed _ pending attempt fault =>
        obtain ⟨_, same, _⟩ := roster.untouched (roster.none_of_pending pending)
        rw [World.fault?, Role.claim_surroundings, same,
          Claims.fault?_eq_none _ _ calm.now] at fault
        cases fault

end Roster

/-! ### What calls answer about modules -/

def World.passes (world : World) (level : Level)
    (moduleName : Option String) : Bool :=
  world.get .enabled && decide (world.get .minLevel ≤ level) &&
    moduleName.all fun name =>
      name == "" || (world.get .modules).allows name

/-- The short cut past the table agrees with the table. -/
theorem World.admits_eq {world : World}
    (mirror : world.get .filterActive = (world.get .modules).isActive)
    (name : String) :
    world.admits name = (world.get .modules).allows name := by
  unfold World.admits
  rw [mirror, ModuleTable.allows]
  cases (world.get .modules).isActive with
  | false | true =>
      rfl

theorem World.opens_eq {world : World}
    (mirror : world.get .filterActive = (world.get .modules).isActive)
    (level : Level) (moduleName : Option String) :
    world.opens level moduleName = world.passes level moduleName := by
  unfold World.opens World.passes
  simp only [admits_eq mirror]

theorem Logger.run_enabledModules {world : World} (rest : world.AtRest) :
    enabledModules.run world =
      { ending := .returned (world.get .modules).names, world := world
        accepted := [] } :=
  Script.run_readUnderLock .modules (fun table => pure table.names)
    rest.configFree

/-! ### The table along every run -/

/-- The module table at every moment of every run on a fresh logger. -/
theorem modules_along_every_run (surroundings : Surroundings)
    (commands : List Command) {calls : List Call} {world : World}
    (moment : Moment (World.fresh surroundings) commands calls world) :
    let table := world.get .modules
    world.get .filterActive = !table.names.isEmpty ∧
      (∀ name,
        (Logger.moduleIsEnabled name).run world =
            { ending := .returned (table.allows name), world := world
              accepted := [] } ∧
          table.allows name = Names.allows table.names name) ∧
      (world.initialisation = .complete → ∀ level moduleName,
        (Logger.wouldLog level moduleName).run world =
          { ending := .returned (world.passes level moduleName)
            world := world, accepted := [] }) ∧
      (surroundings.environment.NeverPanics →
        (calls.any (fun call => call.role.initialising) = false →
          table.names = [] ∧ ∀ name, table.allows name = true) ∧
        Logger.enabledModules.run world =
          { ending := .returned (namesAfter surroundings.environment calls)
            world := world, accepted := [] }) := by
  intro table
  have fresh : Steady (fun _ world => ∃ names, world.Lists names) []
      (World.fresh surroundings) :=
    ⟨World.atRest_fresh surroundings, [], World.Lists.fresh surroundings⟩
  obtain ⟨rest, names, lists⟩ :=
    World.Lists.invariant.at_moment fresh moment
  have held : table.names = names := lists.represents.names_eq
  refine ⟨?_, ?_, ?_, ?_⟩
  · rw [lists.mirror, held]
    exact lists.represents.isActive_eq
  · intro name
    constructor
    · rw [Logger.run_moduleIsEnabled rest.configFree,
        World.admits_eq lists.mirror]
    · rw [held]
      exact lists.represents.allows_eq name
  · intro complete level moduleName
    rw [Logger.run_wouldLog rest.configFree complete,
      World.opens_eq lists.mirror]
  · intro calm
    have start : Steady (Roster surroundings.environment) []
        (World.fresh surroundings) :=
      ⟨World.atRest_fresh surroundings, Roster.fresh surroundings⟩
    have roster := ((Roster.invariant calm).at_moment start moment).holds
    have after : table.names = namesAfter surroundings.environment calls :=
      roster.lists.represents.names_eq
    constructor
    · intro untouched
      have empty : table.names = [] := by
        rw [after, namesAfter_of_untouched _ untouched]
      refine ⟨empty, ?_⟩
      intro name
      rw [lists.represents.allows_eq, ← held, empty]
      rfl
    · rw [Logger.run_enabledModules rest, ← after]

/-- Names from the environment stay if the first call does not claim the
table. -/
theorem modules_after_query :
    let host : Host := { processId := 1, terminal := false }
    let environment : Environment := fun _ => Tape.constant (.text "net, db")
    let start := World.fresh (Surroundings.start host environment)
    let commands : List Command :=
      [.disableModule "", .wouldLog .info none, .enableModule "ui",
        .disableModule "net"]
    (Logger.enabledModules.run (start.afterAll commands)).ending =
      .returned ["db", "ui"] := by
  intro host environment start commands
  have calm : environment.NeverPanics :=
    Environment.neverPanics_constant fun _ => rfl
  have listed := ((modules_along_every_run
    (Surroundings.start host environment) commands .ends).2.2.2 calm).2
  have names : namesAfter environment (journal start commands) =
      ["db", "ui"] := by
    decide +kernel
  rw [listed, ← names]
  rfl

end LeveledLog
