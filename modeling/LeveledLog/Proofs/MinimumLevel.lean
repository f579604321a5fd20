/-
The minimum level, and the questions to the environment, along every run.

Along a sequence of calls on a fresh logger the minimum level is the one that
the last successful call set, or else the one that the environment asked for
last, or else the default.  Which variables are asked for, by which call, and
how that call ends if asking panics, depends on the claims of the calls begun
so far and on the answers of the environment, and on nothing else.
-/

import LeveledLog.Proofs.Answers
import LeveledLog.Proofs.Journal
import LeveledLog.Proofs.SpelledLevels

namespace LeveledLog

def Claims.madeBy (calls : List Call) : Claims where
  level := calls.any fun call => call.role.claimsLevel
  modules := calls.any fun call => call.role.claimsModules

def Call.levelSet? (call : Call) : Option Level :=
  match call.command, call.outcome.ending with
  | .setMinLevel level, .returned _ => some level
  | _, _ => none

def lastLevelSet? (calls : List Call) : Option Level :=
  (calls.filterMap Call.levelSet?).getLast?

def Environment.lastSetting? (environment : Environment)
    (asked : List Variable) : Option String :=
  ((environment.readings asked .level).filterMap Reading.value?).getLast?

/-- Whether a level is asked for by a setting, or is the one before if there is
no setting. -/
def Level.Follows (level before : Level) (setting? : Option String) : Prop :=
  match setting? with
  | some setting => level.AskedBy setting
  | none => level = before

/-- Whether a level is the one that the last successful call has set, or else
the one that the last setting asks for, or else the default. -/
def LevelAfter (environment : Environment) (calls : List Call)
    (asked : List Variable) (level : Level) : Prop :=
  match lastLevelSet? calls with
  | some set => level = set
  | none => level.Follows defaultLevel (environment.lastSetting? asked)

def Call.questions (call : Call) : List Variable :=
  if call.role.initialising = true ∧ call.world.initialisation = .pending then
    (call.role.claim call.world).questions
  else []

/-- How calls, and questions asked during them, have left a logger. -/
structure Ledger (surroundings : Surroundings) (calls : List Call)
    (asked : List Variable) (world : World) : Prop where
  claims : world.claims = .madeBy calls
  lookups : world.surroundings.lookups = surroundings.lookups ++ asked
  environment :
    world.surroundings.environment = surroundings.environment.drop asked
  minLevel :
    LevelAfter surroundings.environment calls asked (world.get .minLevel)
  set : (lastLevelSet? calls).isSome → world.initialisation = .complete

/-! ### Levels that calls set -/

private theorem Claims.madeBy_append (calls : List Call) (call : Call) :
    Claims.madeBy (calls ++ [call]) =
      { level := (Claims.madeBy calls).level || call.role.claimsLevel
        modules :=
          (Claims.madeBy calls).modules || call.role.claimsModules } := by
  simp [Claims.madeBy]

private theorem lastLevelSet?_append (calls : List Call) (call : Call) :
    lastLevelSet? (calls ++ [call]) =
      call.levelSet?.or (lastLevelSet? calls) := by
  unfold lastLevelSet?
  cases set : call.levelSet? with
  | none =>
      simp [set]
  | some level =>
      simp [set]

namespace Call

variable {call : Call} {outcome : Outcome Unit}

private theorem levelSet?_of_role
    (other : ∀ level, call.role ≠ .setsLevel level) :
    call.levelSet? = none := by
  unfold levelSet?
  split
  · rename_i level _ same _
    exact absurd (by rw [role, same]; rfl) (other level)
  · rfl

private theorem levelSet?_of_returned {after : World} {level : Level}
    (sets : call.role = .setsLevel level)
    (runs : call.role.script.run call.world =
      { ending := .returned (), world := after, accepted := [] }) :
    call.levelSet? = some level := by
  have same : call.command = .setMinLevel level :=
    Command.role_eq_setsLevel sets
  unfold levelSet?
  rw [outcome_of_returned runs, same]
  rfl

private theorem levelAfter_of_returned {after : World}
    (runs : call.role.script.run call.world =
      { ending := .returned (), world := after, accepted := [] })
    {environment : Environment} {calls : List Call} {asked : List Variable}
    {level : Level} (before : LevelAfter environment calls asked level) :
    LevelAfter environment (calls ++ [call]) asked
      (call.role.level?.getD level) := by
  unfold LevelAfter
  rw [lastLevelSet?_append]
  cases role : call.role with
  | setsLevel level =>
      rw [levelSet?_of_returned role runs]
      rfl
  | peripheral | initialises | changesModules =>
      have unset : call.levelSet? = none := levelSet?_of_role fun level => by
        rw [role]
        intro impossible
        cases impossible
      rw [unset]
      exact before

private theorem levelSet?_of_panicked {after : World} {text : String}
    (runs : call.role.script.run call.world =
      { ending := .panicked text, world := after, accepted := [] }) :
    call.levelSet? = none := by
  unfold levelSet?
  rw [outcome_of_panicked runs]
  split
  · rename_i impossible
    cases impossible
  · rfl

end Call

/-! ### Levels that the environment asks for -/

theorem World.nextLevel_follows (world : World) :
    world.nextLevel.Follows (world.get .minLevel)
      (world.claims.levelReading world.surroundings.environment).value? := by
  unfold nextLevel
  split
  · rename_i setting same
    rw [same]
    exact Level.ofSetting_eq_iff.mp rfl
  · rename_i same
    rw [same]
    exact rfl

theorem Level.Follows.trans {first second third : Level}
    {earlier? later? : Option String} (later : third.Follows second later?)
    (earlier : second.Follows first earlier?) :
    third.Follows first (later?.or earlier?) := by
  cases later? with
  | some setting =>
      exact later
  | none =>
      have same : third = second := later
      rw [same, Option.none_or]
      exact earlier

private theorem Environment.lastSetting?_append (environment : Environment)
    (asked : List Variable) (claims : Claims) :
    environment.lastSetting?
        (asked ++ claims.questions (environment.drop asked)) =
      (claims.levelReading (environment.drop asked)).value?.or
        (environment.lastSetting? asked) := by
  unfold lastSetting?
  rw [environment.readings_append asked (claims.questions_nodup _)]
  unfold Claims.levelReading
  cases claimed : claims.level with
  | true =>
      have notAsked :
          .level ∉ claims.questions (environment.drop asked) := by
        rw [claims.level_mem_questions, claimed]
        intro impossible
        cases impossible
      simp [notAsked, Reading.value?]
  | false =>
      have isAsked : .level ∈ claims.questions (environment.drop asked) :=
        (claims.level_mem_questions _).mpr claimed
      simp only [isAsked, if_true, Bool.false_eq_true, if_false,
        List.filterMap_append]
      cases given : (environment.drop asked .level).head.value? with
      | none =>
          simp [given]
      | some setting =>
          simp [given]

/-! ### The ledger along a run -/

namespace Ledger

variable {surroundings : Surroundings} {calls : List Call}
variable {asked : List Variable}

private theorem fresh (surroundings : Surroundings) :
    Ledger surroundings [] [] (World.fresh surroundings) where
  claims := rfl
  lookups := (List.append_nil _).symm
  environment := rfl
  minLevel := rfl
  set impossible := by cases impossible

private theorem frame {before after : World} (core : before.SameCore after)
    (ledger : Ledger surroundings calls asked before) :
    Ledger surroundings calls asked after where
  claims := by
    rw [← ledger.claims]
    unfold World.claims
    rw [core.cells _ rfl, core.cells _ rfl]
  lookups := core.lookups.trans ledger.lookups
  environment := core.environment.trans ledger.environment
  minLevel := by
    rw [core.cells .minLevel rfl]
    exact ledger.minLevel
  set some := core.initialisation.trans (ledger.set some)

private theorem claimed {call : Call}
    (ledger : Ledger surroundings calls asked call.world) :
    (call.role.claim call.world).claims = .madeBy (calls ++ [call]) := by
  rw [Role.claim_claims, ledger.claims, Claims.madeBy_append]

private theorem questions {call : Call}
    (ledger : Ledger surroundings calls asked call.world) :
    (call.role.claim call.world).questions =
      (Claims.madeBy (calls ++ [call])).questions
        (surroundings.environment.drop asked) := by
  unfold World.questions
  rw [ledger.claimed, Role.claim_surroundings, ledger.environment]

private theorem nextLevel {call : Call}
    (ledger : Ledger surroundings calls asked call.world)
    (unset : lastLevelSet? calls = none) :
    (call.role.claim call.world).nextLevel.Follows defaultLevel
      (surroundings.environment.lastSetting?
        (asked ++ (call.role.claim call.world).questions)) := by
  have current := ledger.minLevel
  rw [LevelAfter, unset] at current
  have next := (call.role.claim call.world).nextLevel_follows
  rw [Role.claim_get _ _ (fun same => by cases same)
      (fun same => by cases same), ledger.claimed, Role.claim_surroundings,
    ledger.environment] at next
  rw [ledger.questions, Environment.lastSetting?_append]
  exact next.trans current

private theorem unset {world : World}
    (ledger : Ledger surroundings calls asked world)
    (pending : world.initialisation = .pending) :
    lastLevelSet? calls = none := by
  cases set : lastLevelSet? calls with
  | none =>
      rfl
  | some level =>
      have complete := ledger.set (by rw [set]; rfl)
      rw [pending] at complete
      cases complete

private theorem attempted {call : Call} {attempted : Outcome Unit}
    (ledger : Ledger surroundings calls asked call.world)
    (pending : call.world.initialisation = .pending)
    (attempt : (call.role.claim call.world).Attempt attempted) :
    LevelAfter surroundings.environment calls
      (asked ++ (call.role.claim call.world).questions)
      (attempted.world.get .minLevel) := by
  have unset := ledger.unset pending
  rw [attempt.minLevel, LevelAfter, unset]
  exact ledger.nextLevel unset

private theorem outside {call : Call}
    (peripheral : call.role.initialising = false)
    (ledger : Ledger surroundings calls asked call.world) :
    Ledger surroundings (calls ++ [call]) asked call.world := by
  have role : call.role = .peripheral := by
    revert peripheral
    cases call.role with
    | peripheral =>
        exact fun _ => rfl
    | initialises | setsLevel | changesModules =>
        intro impossible
        cases impossible
  have same : call.levelSet? = none := Call.levelSet?_of_role fun level => by
    rw [role]
    intro impossible
    cases impossible
  refine ⟨?_, ledger.lookups, ledger.environment, ?_, ?_⟩
  · rw [← ledger.claimed, role]
    rfl
  · rw [LevelAfter, lastLevelSet?_append, same]
    exact ledger.minLevel
  · rw [lastLevelSet?_append, same]
    exact ledger.set

private theorem settled {call : Call}
    (complete : call.world.initialisation = .complete)
    (runs : call.role.script.run call.world =
      { ending := .returned ()
        world := call.role.effect (call.role.claim call.world)
        accepted := [] })
    (ledger : Ledger surroundings calls asked call.world) :
    Ledger surroundings (calls ++ [call]) asked
      (call.role.effect (call.role.claim call.world)) := by
  constructor
  · rw [Role.effect_claims, ledger.claimed]
  · rw [Role.effect_surroundings, Role.claim_surroundings]
    exact ledger.lookups
  · rw [Role.effect_surroundings, Role.claim_surroundings]
    exact ledger.environment
  · rw [Role.effect_minLevel, Role.claim_get _ _ (fun same => by cases same)
      (fun same => by cases same)]
    exact Call.levelAfter_of_returned runs ledger.minLevel
  · intro _
    rw [Role.effect_initialisation, Role.claim_initialisation]
    exact complete

private theorem applied {call : Call} {attempted : Outcome Unit}
    (pending : call.world.initialisation = .pending)
    (attempt : (call.role.claim call.world).Attempt attempted)
    (passed : (call.role.claim call.world).fault? = none)
    (runs : call.role.script.run call.world =
      { ending := .returned (), world := call.role.effect attempted.world
        accepted := [] })
    (ledger : Ledger surroundings calls asked call.world) :
    Ledger surroundings (calls ++ [call])
      (asked ++ (call.role.claim call.world).questions)
      (call.role.effect attempted.world) := by
  constructor
  · rw [Role.effect_claims, attempt.claims, ledger.claimed]
  · rw [Role.effect_surroundings, attempt.lookups, Role.claim_surroundings,
      ledger.lookups, List.append_assoc]
  · rw [Role.effect_surroundings, attempt.environment,
      Role.claim_surroundings, ledger.environment]
    exact Environment.afterQuestions_drop _ _ (Claims.questions_nodup _ _)
  · rw [Role.effect_minLevel]
    exact Call.levelAfter_of_returned runs (ledger.attempted pending attempt)
  · intro _
    rw [Role.effect_initialisation, attempt.initialisation, passed]
    rfl

private theorem failed {call : Call} {attempted : Outcome Unit} {text : String}
    (pending : call.world.initialisation = .pending)
    (attempt : (call.role.claim call.world).Attempt attempted)
    (runs : call.role.script.run call.world =
      { ending := .panicked text, world := attempted.world, accepted := [] })
    (ledger : Ledger surroundings calls asked call.world) :
    Ledger surroundings (calls ++ [call])
      (asked ++ (call.role.claim call.world).questions) attempted.world := by
  have unset : lastLevelSet? (calls ++ [call]) = none := by
    rw [lastLevelSet?_append, Call.levelSet?_of_panicked runs,
      ledger.unset pending]
    rfl
  constructor
  · rw [attempt.claims, ledger.claimed]
  · rw [attempt.lookups, Role.claim_surroundings, ledger.lookups,
      List.append_assoc]
  · rw [attempt.environment, Role.claim_surroundings, ledger.environment]
    exact Environment.afterQuestions_drop _ _ (Claims.questions_nodup _ _)
  · have kept := ledger.attempted pending attempt
    rw [LevelAfter, ledger.unset pending] at kept
    rw [LevelAfter, unset]
    exact kept
  · rw [unset]
    intro impossible
    cases impossible

private theorem plays {call : Call} {outcome : Outcome Unit}
    (ledger : Ledger surroundings calls asked call.world)
    (runs : call.role.script.run call.world = outcome)
    (played : call.role.Played call.world outcome) :
    Ledger surroundings (calls ++ [call]) (asked ++ call.questions)
      outcome.world := by
  unfold Call.questions
  cases played with
  | outside peripheral =>
      rw [peripheral]
      simpa using ledger.outside peripheral
  | settled initialising complete =>
      rw [complete]
      simpa using ledger.settled complete runs
  | applied initialising pending attempt passed =>
      rw [if_pos ⟨initialising, pending⟩]
      exact ledger.applied pending attempt passed runs
  | failed initialising pending attempt fault =>
      rw [if_pos ⟨initialising, pending⟩]
      have kept := ledger.failed pending attempt runs
      exact kept

theorem invariant (surroundings : Surroundings) :
    Invariant fun calls world =>
      ∃ asked, Ledger surroundings calls asked world where
  frame := by
    intro calls before after core kept
    obtain ⟨asked, ledger⟩ := kept
    exact ⟨asked, ledger.frame core⟩
  plays := by
    intro calls call outcome rest kept runs played
    obtain ⟨asked, ledger⟩ := kept
    exact ⟨_, ledger.plays runs played⟩

end Ledger

/-! ### Calls after which no variable is asked for -/

private theorem Call.questions_of_peripheral {call : Call}
    (peripheral : call.role.initialising = false) : call.questions = [] := by
  simp [questions, peripheral]

private theorem Call.questions_of_complete {call : Call}
    (complete : call.world.initialisation = .complete) :
    call.questions = [] := by
  simp [questions, complete]

private theorem Call.questions_of_pending {call : Call}
    (initialising : call.role.initialising = true)
    (pending : call.world.initialisation = .pending) :
    call.questions = (call.role.claim call.world).questions :=
  if_pos ⟨initialising, pending⟩

def Call.Settles (call : Call) : Prop :=
  call.world.initialisation = .complete ∨
    call.role.initialising = true ∧
      (call.role.claim call.world).fault? = none

theorem Call.Settles.invariant {call : Call} (settles : call.Settles) :
    Invariant fun calls world => call ∈ calls →
      world.initialisation = .complete ∧
        world.surroundings.lookups =
          call.world.surroundings.lookups ++ call.questions where
  frame := by
    intro calls before after core kept member
    rw [core.initialisation, core.lookups]
    exact kept member
  plays := by
    intro calls other outcome rest kept runs played member
    rcases List.mem_append.mp member with earlier | same
    · obtain ⟨complete, lookups⟩ := kept earlier
      cases played with
      | outside =>
          exact ⟨complete, lookups⟩
      | settled =>
          rw [Role.effect_initialisation, Role.claim_initialisation,
            Role.effect_surroundings, Role.claim_surroundings]
          exact ⟨complete, lookups⟩
      | applied _ pending | failed _ pending =>
          rw [complete] at pending
          cases pending
    · rw [List.mem_singleton] at same
      subst same
      cases played with
      | outside peripheral =>
          rcases settles with complete | ⟨initialising, _⟩
          · rw [Call.questions_of_peripheral peripheral, List.append_nil]
            exact ⟨complete, rfl⟩
          · rw [peripheral] at initialising
            cases initialising
      | settled _ complete =>
          rw [Role.effect_initialisation, Role.claim_initialisation,
            Role.effect_surroundings, Role.claim_surroundings,
            Call.questions_of_complete complete, List.append_nil]
          exact ⟨complete, rfl⟩
      | applied initialising pending attempt passed =>
          rw [Role.effect_initialisation, Role.effect_surroundings,
            attempt.initialisation, attempt.lookups, passed,
            Role.claim_surroundings,
            Call.questions_of_pending initialising pending]
          exact ⟨rfl, rfl⟩
      | failed _ pending _ fault =>
          rcases settles with complete | ⟨_, passed⟩
          · rw [complete] at pending
            cases pending
          · rw [passed] at fault
            cases fault

/-! ### What a call does about the defaults -/

/-- A call whose attempt has panicked: it ends in that panic, writes nothing,
and does no more than any other call of the same role would have done, so
that it has rendered nothing and stored no level of its own. -/
structure Call.Fails (call : Call) (text : String) (claims : Claims) :
    Prop where
  ending : call.outcome.ending = .panicked text
  accepted : call.outcome.accepted = []
  alone : call.command.calls call.world = [call]
  whatever : ∀ other : Command, other.role = call.role →
    other.script.run call.world = call.outcome
  incomplete : call.outcome.world.initialisation = .pending
  claimed : call.outcome.world.claims = claims
  minLevel : (call.outcome.world.get .minLevel).Follows
    (call.world.get .minLevel)
    (claims.levelReading call.world.surroundings.environment).value?
  others : ∀ cell, cell ≠ .minLevel → cell ≠ .levelClaimed →
    cell ≠ .modulesClaimed →
    call.outcome.world.get cell = call.world.get cell

structure Call.Conducts (call : Call) (claims : Claims) : Prop where
  ends : call.outcome.ending ≠ .waiting
  quiet : call.role.initialising = false ∨
      call.world.initialisation = .complete →
    call.outcome.world.initialisation = call.world.initialisation ∧
      call.outcome.world.surroundings.lookups =
        call.world.surroundings.lookups
  asks : call.role.initialising = true →
    call.world.initialisation ≠ .complete →
    call.outcome.world.surroundings.lookups =
      call.world.surroundings.lookups ++
        claims.questions call.world.surroundings.environment
  applies : call.role.initialising = true →
    claims.fault? call.world.surroundings.environment = none →
    call.outcome.world.initialisation = .complete
  fails : ∀ text, call.role.initialising = true →
    call.world.initialisation ≠ .complete →
    claims.fault? call.world.surroundings.environment = some text →
    call.Fails text claims

namespace Call

variable {call : Call}

private theorem role_ne_peripheral_of_logs {command : Command}
    (logs : command.logs = true) :
    command.role.initialising = true := by
  cases command with
  | log | facadeLog =>
      rfl
  | _ =>
      cases logs

private theorem ends (rest : call.world.AtRest) :
    call.outcome.ending ≠ .waiting := by
  have always : Invariant fun _ _ => True :=
    { frame := fun _ _ => trivial
      plays := fun _ _ _ _ _ _ => trivial }
  have steady : Steady (fun _ _ => True) [] call.world := ⟨rest, trivial⟩
  exact (always.runs call.command steady).ends

private theorem sameCore_of_peripheral (rest : call.world.AtRest)
    (peripheral : call.role.initialising = false) :
    call.world.SameCore call.outcome.world := by
  have silent : call.command.logs = false := by
    cases logs : call.command.logs with
    | false =>
        rfl
    | true =>
        have initialising := role_ne_peripheral_of_logs logs
        change call.role.initialising = true at initialising
        rw [peripheral] at initialising
        cases initialising
  have played := call.role.played rest
  generalize runs : call.role.script.run call.world = outcome at played
  cases played with
  | outside =>
      rw [outcome_of_returned runs]
      exact ((Command.rest_peripheral silent).run rest).2.1
  | settled initialising | applied initialising | failed initialising =>
      rw [peripheral] at initialising
      cases initialising

private theorem outcome_of_settles (rest : call.world.AtRest)
    (settles : call.Settles) :
    call.outcome.world.initialisation = .complete ∧
      call.outcome.world.surroundings.lookups =
        call.world.surroundings.lookups ++ call.questions := by
  have steady : Steady (fun calls world => call ∈ calls →
      world.initialisation = .complete ∧
        world.surroundings.lookups =
          call.world.surroundings.lookups ++ call.questions) []
      call.world := by
    refine ⟨rest, ?_⟩
    intro impossible
    cases impossible
  have kept := (settles.invariant.runs call.command steady).along.at_end
  exact kept.holds List.mem_cons_self

private theorem attempt_of_fault (rest : call.world.AtRest)
    (initialising : call.role.initialising = true)
    (incomplete : call.world.initialisation ≠ .complete) {text : String}
    (fault : (call.role.claim call.world).fault? = some text) :
    ∃ attempted, (call.role.claim call.world).Attempt attempted ∧
      call.role.script.run call.world =
        { ending := .panicked text, world := attempted.world
          accepted := [] } := by
  have played := call.role.played rest
  generalize call.role.script.run call.world = outcome at played
  cases played with
  | outside peripheral =>
      rw [peripheral] at initialising
      cases initialising
  | settled _ complete =>
      exact absurd complete incomplete
  | applied _ _ _ passed =>
      rw [passed] at fault
      cases fault
  | failed _ _ attempt given =>
      rw [given] at fault
      cases fault
      exact ⟨_, attempt, rfl⟩

theorem fails (rest : call.world.AtRest)
    (initialising : call.role.initialising = true)
    (incomplete : call.world.initialisation ≠ .complete) {text : String}
    (fault : (call.role.claim call.world).fault? = some text) :
    call.Fails text (call.role.claim call.world).claims := by
  obtain ⟨attempted, attempt, runs⟩ :=
    attempt_of_fault rest initialising incomplete fault
  have outcome := outcome_of_panicked runs
  refine ⟨?_, ?_, calls_of_panicked runs, ?_, ?_, ?_, ?_, ?_⟩
  · rw [outcome]
  · rw [outcome]
  · intro other same
    have otherRuns : ({ command := other, world := call.world } : Call).outcome
        = _ := outcome_of_panicked (by
      change other.role.script.run call.world = _
      rw [same]
      exact runs)
    rw [outcome]
    exact otherRuns
  · rw [outcome, attempt.initialisation, fault]
    rfl
  · rw [outcome, attempt.claims]
  · have next := (call.role.claim call.world).nextLevel_follows
    rw [Role.claim_surroundings, Role.claim_get _ _
      (fun same => by cases same) (fun same => by cases same)] at next
    rw [outcome, attempt.minLevel]
    exact next
  · intro cell notMinLevel notLevel notModules
    have unread := World.modulesReading_of_fault fault
    rw [outcome, ← call.role.claim_get call.world notLevel notModules]
    by_cases modules : cell = .modules
    · subst modules
      rw [attempt.modules, World.nextModules, unread]
    · by_cases mirror : cell = .filterActive
      · subst mirror
        rw [attempt.filterActive, unread]
        rfl
      · exact attempt.others cell notMinLevel modules mirror

theorem conducts (rest : call.world.AtRest) :
    call.Conducts (call.role.claim call.world).claims := by
  have sameFault : (call.role.claim call.world).claims.fault?
      call.world.surroundings.environment =
        (call.role.claim call.world).fault? := by
    rw [World.fault?, Role.claim_surroundings]
  have sameQuestions : (call.role.claim call.world).claims.questions
      call.world.surroundings.environment =
        (call.role.claim call.world).questions := by
    rw [World.questions, Role.claim_surroundings]
  refine ⟨ends rest, ?_, ?_, ?_, ?_⟩
  · intro idle
    rcases idle with peripheral | complete
    · have core := sameCore_of_peripheral rest peripheral
      exact ⟨core.initialisation, core.lookups⟩
    · obtain ⟨stays, lookups⟩ := outcome_of_settles rest (.inl complete)
      rw [questions_of_complete complete, List.append_nil] at lookups
      exact ⟨stays.trans complete.symm, lookups⟩
  · intro initialising incomplete
    rw [sameQuestions]
    cases fault : (call.role.claim call.world).fault? with
    | none =>
        have pending : call.world.initialisation = .pending := by
          cases state : call.world.initialisation with
          | pending =>
              rfl
          | running =>
              exact absurd state rest.settled
          | complete =>
              exact absurd state incomplete
        have settled := outcome_of_settles rest (.inr ⟨initialising, fault⟩)
        rw [questions_of_pending initialising pending] at settled
        exact settled.2
    | some text =>
        obtain ⟨attempted, attempt, runs⟩ :=
          attempt_of_fault rest initialising incomplete fault
        rw [outcome_of_panicked runs, attempt.lookups,
          Role.claim_surroundings]
  · intro initialising passed
    rw [sameFault] at passed
    exact (outcome_of_settles rest (.inr ⟨initialising, passed⟩)).1
  · intro text initialising incomplete fault
    rw [sameFault] at fault
    exact fails rest initialising incomplete fault

private theorem settles_of_outcome (rest : call.world.AtRest)
    (complete : call.outcome.world.initialisation = .complete) :
    call.Settles := by
  by_cases before : call.world.initialisation = .complete
  · exact .inl before
  · cases initialising : call.role.initialising with
    | false =>
        have core := sameCore_of_peripheral rest initialising
        exact absurd (core.initialisation.symm.trans complete) before
    | true =>
        cases fault : (call.role.claim call.world).fault? with
        | none =>
            exact .inr ⟨initialising, fault⟩
        | some text =>
            have incomplete := (fails rest initialising before fault).incomplete
            rw [complete] at incomplete
            cases incomplete

end Call

/-- The defaults and the minimum level along every run on a fresh logger. -/
theorem defaults_along_every_run (surroundings : Surroundings)
    (commands : List Command) :
    let start := World.fresh surroundings
    let calls := journal start commands
    let final := start.afterAll commands
    (∀ begun world, Moment start commands begun world →
        ∃ asked, Ledger surroundings begun asked world) ∧
      ∀ before call after, calls = before ++ call :: after →
        call.Conducts (.madeBy (before ++ [call])) ∧
        (call.outcome.world.initialisation = .complete →
          ∀ later ∈ after.map Call.world ++ [final],
            later.initialisation = .complete ∧
              later.surroundings.lookups =
                call.outcome.world.surroundings.lookups) := by
  intro start calls final
  have atRest : start.AtRest := World.atRest_fresh surroundings
  have fresh : Steady (fun calls world =>
      ∃ asked, Ledger surroundings calls asked world) [] start :=
    ⟨atRest, [], Ledger.fresh surroundings⟩
  have valid := Ledger.invariant surroundings
  refine ⟨fun _ _ moment => (valid.at_moment fresh moment).holds, ?_⟩
  intro before call after made
  obtain ⟨rest, asked, ledger⟩ := valid.at_call fresh made
  constructor
  · rw [← ledger.claimed]
    exact Call.conducts rest
  · intro complete later member
    have settles := Call.settles_of_outcome rest complete
    have unasked : Steady (fun calls world => call ∈ calls →
        world.initialisation = .complete ∧
          world.surroundings.lookups =
            call.world.surroundings.lookups ++ call.questions) [] start := by
      refine ⟨atRest, ?_⟩
      intro impossible
      cases impossible
    rw [(Call.outcome_of_settles rest settles).2]
    rcases List.mem_append.mp member with among | last
    · obtain ⟨next, found, same⟩ := List.mem_map.mp among
      obtain ⟨between, others, split⟩ := List.append_of_mem found
      rw [split] at made
      have path : calls = (before ++ call :: between) ++ next :: others := by
        rw [made]
        simp
      have kept := (settles.invariant.at_call unasked path).holds
      rw [← same]
      exact kept (by simp)
    · rw [List.mem_singleton] at last
      subst last
      have kept := (settles.invariant.at_end commands unasked).holds
      apply kept
      change call ∈ calls
      rw [made]
      simp

/-- A question that panics fails the call that asks it, and the next call that
needs the defaults asks again. -/
theorem defaults_after_panic :
    let host : Host := { processId := 1, terminal := false }
    let environment : Environment := fun asked =>
      match asked with
      | .level => (Tape.constant (.text "warn")).before (.panic "no") 1
      | .modules => Tape.constant .unset
    let start := World.fresh (Surroundings.start host environment)
    let call : Call := { command := .wouldLog .error none, world := start }
    let next : Call := { command := .initOnce, world := call.outcome.world }
    call.outcome.ending = .panicked "no" ∧
      next.outcome.world.surroundings.lookups = [.level, .level, .modules] ∧
      next.outcome.world.initialisation = .complete := by
  intro host environment start call next
  have along := (defaults_along_every_run
    (Surroundings.start host environment) [call.command, next.command]).2
  have first := (along [] call _ rfl).1
  have failed := first.fails "no" rfl (fun same => by cases same) rfl
  have incomplete : next.world.initialisation ≠ .complete := by
    intro same
    rw [failed.incomplete] at same
    cases same
  obtain ⟨others, made⟩ : ∃ others,
      journal start [call.command, next.command] =
        [call] ++ next :: others := by
    have split : journal start [call.command, next.command] =
        call.command.calls call.world ++
          (next.command.calls next.world ++ []) := rfl
    rw [failed.alone] at split
    exact ⟨_, split⟩
  have second := (along [call] next others made).1
  have asked : next.world.surroundings.lookups = [.level] := by
    decide +kernel
  refine ⟨failed.ending, ?_, ?_⟩
  · rw [second.asks rfl incomplete, asked]
    decide +kernel
  · exact second.applies rfl rfl

end LeveledLog
