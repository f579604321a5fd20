/-
The steps of calls that change the module table or look a name up in it.

A call that changes the table takes the configuration lock, reads the table,
stores the changed one and then its mirror, and gives the lock up.  A call that
looks a name up reads the mirror; if the table keeps some modules out, it then
takes the lock and reads the table.  `Discipline.table` says so move by move,
and every such call follows it on a logger that is initialised.
-/

import LeveledLog.Proofs.TableHistory

namespace LeveledLog

/-! ### Where a thread is -/

/-- How far a call has come: a change takes the lock, reads the table, stores
the changed one, shows it in the mirror and gives the lock up; a lookup sees
that the table is active, enters, finds its answer there and leaves with it,
or has its answer at once. -/
inductive TableStage where
  | starting
  | locked
  | read (table : ModuleTable)
  | stored (table : ModuleTable)
  | shown
  | changed
  | active
  | entered
  | found (answer : Bool)
  | answered (answer : Bool)

namespace TableStage

def holds : TableStage → Bool
  | .locked | .read _ | .stored _ | .shown | .entered | .found _ => true
  | .starting | .changed | .active | .answered _ => false

def wrote : TableStage → Bool
  | .stored _ | .shown | .changed => true
  | .starting | .locked | .read _ => false
  | .active | .entered | .found _ | .answered _ => false

def behind : TableStage → Bool
  | .stored _ => true
  | .starting | .locked | .read _ | .shown | .changed => false
  | .active | .entered | .found _ | .answered _ => false

def table? : TableStage → Option ModuleTable
  | .read table | .stored table => some table
  | .starting | .locked | .shown | .changed => none
  | .active | .entered | .found _ | .answered _ => none

def answer? : TableStage → Option Bool
  | .found answer | .answered answer => some answer
  | .starting | .locked | .read _ | .stored _ | .shown | .changed => none
  | .active | .entered => none

theorem holds_of_table? {stage : TableStage} {table : ModuleTable}
    (knows : stage.table? = some table) : stage.holds = true := by
  cases stage with
  | read | stored =>
      rfl
  | starting | locked | shown | changed | active | entered | found
  | answered =>
      cases knows

theorem holds_of_behind {stage : TableStage} (behind : stage.behind = true) :
    stage.holds = true := by
  cases stage with
  | stored =>
      rfl
  | starting | locked | read | shown | changed | active | entered | found
  | answered =>
      cases behind

end TableStage

/-- Where a thread is: the calls that it has ended, the call that it is in, and
how far it has come with that. -/
structure TableTurn where
  ended : List Command
  call : Option Command
  stage : TableStage

namespace TableTurn

def starting (ended : List Command) (command : Command) : TableTurn where
  ended := ended
  call := some command
  stage := .starting

def withStage (turn : TableTurn) (stage : TableStage) : TableTurn :=
  { turn with stage := stage }

/-- The calls that the thread has begun, without one that may yet store the
table. -/
def settled (turn : TableTurn) : List Command :=
  turn.ended ++ if turn.stage.wrote then turn.call.toList else []

structure Resting (turn : TableTurn) : Prop where
  call : turn.call = none
  stage : turn.stage = .starting

def Changes (turn : TableTurn) (change : ModuleChange) : Prop :=
  ∃ command, turn.call = some command ∧
    command.moduleChange? = some change

def LooksUp (turn : TableTurn) (name : String) : Prop :=
  turn.call = some (.moduleIsEnabled name)

/-- How a call may end: a lookup with its answer, a change when it is done, and
a call that is no change at once. -/
inductive Ends (turn : TableTurn) : Value → Prop
  | lookup (name : String) (answer : Bool) (looks : turn.LooksUp name)
      (answered : turn.stage = .answered answer) :
      Ends turn (.truth answer)
  | change (change : ModuleChange) (value : Value)
      (changes : turn.Changes change) (changed : turn.stage = .changed) :
      Ends turn value
  | ignored (command : Command) (value : Value)
      (calls : turn.call = some command)
      (changes : command.moduleChange? = none)
      (other : ∀ name, command ≠ .moduleIsEnabled name)
      (starting : turn.stage = .starting) :
      Ends turn value

end TableTurn

/-! ### Moves -/

/-- The moves of a call that changes the table or looks a name up in it. -/
inductive TableMove (turn : TableTurn) :
    (action : Action) → action.Result → TableTurn → Prop
  | claim (starting : turn.stage = .starting) :
      TableMove turn (.store .modulesClaimed true) () turn
  | pass (starting : turn.stage = .starting) :
      TableMove turn .beginInitialisation false turn
  | lock (change : ModuleChange) (changes : turn.Changes change)
      (starting : turn.stage = .starting) :
      TableMove turn (.acquire .config) () (turn.withStage .locked)
  | read (table : ModuleTable) (locked : turn.stage = .locked) :
      TableMove turn (.load .modules) table (turn.withStage (.read table))
  | store (table : ModuleTable) (change : ModuleChange)
      (changes : turn.Changes change) (read : turn.stage = .read table) :
      TableMove turn (.store .modules (change.apply table)) ()
        (turn.withStage (.stored (change.apply table)))
  | mirror (table : ModuleTable) (stored : turn.stage = .stored table) :
      TableMove turn (.store .filterActive table.isActive) ()
        (turn.withStage .shown)
  | unlock (shown : turn.stage = .shown) :
      TableMove turn (.release .config false) () (turn.withStage .changed)
  | seeNone (name : String) (looks : turn.LooksUp name)
      (starting : turn.stage = .starting) :
      TableMove turn (.load .filterActive) false
        (turn.withStage (.answered true))
  | seeSome (name : String) (looks : turn.LooksUp name)
      (starting : turn.stage = .starting) :
      TableMove turn (.load .filterActive) true (turn.withStage .active)
  | enter (active : turn.stage = .active) :
      TableMove turn (.acquire .config) () (turn.withStage .entered)
  | find (name : String) (table : ModuleTable) (looks : turn.LooksUp name)
      (entered : turn.stage = .entered) :
      TableMove turn (.load .modules) table
        (turn.withStage (.found (table.allows name)))
  | leave (answer : Bool) (found : turn.stage = .found answer) :
      TableMove turn (.release .config false) ()
        (turn.withStage (.answered answer))

def Discipline.table : Discipline TableTurn where
  expects
    | _, .beginInitialisation, started => started = false
    | _, _, _ => True
  allows := TableMove

/-- The regime of the threads that change the table and look names up; no call
panics. -/
def Regime.table : Regime TableTurn :=
  { Discipline.table with
    rests := TableTurn.Resting
    returns := fun value turn => turn.Ends value
    panics := fun _ _ => False }

/-! ### Commands -/

def Command.usesTable : Command → Bool
  | .enableModule _ | .disableModule _ | .enableAllModules => true
  | .moduleIsEnabled _ => true
  | _ => false

namespace Logger

open Script

variable {turn : TableTurn} {panics : String → TableTurn → Prop}

private theorem claimModules_follows (starting : turn.stage = .starting) :
    claimModules.Follows Discipline.table (fun _ later => later = turn)
      panics turn := by
  intro _ _
  refine ⟨_, .claim starting, ?_⟩
  intro started passes
  cases passes
  exact ⟨_, .pass starting, rfl⟩

private theorem changeModules_follows_table {change : ModuleChange}
    (changes : turn.Changes change) (starting : turn.stage = .starting) :
    (changeModules change.apply).Follows Discipline.table
      (fun _ later => later = turn.withStage .changed) panics turn := by
  intro _ _
  refine ⟨_, .lock change changes starting, ?_⟩
  intro table _
  refine ⟨_, .read table rfl, ?_⟩
  intro _ _
  refine ⟨_, .store table change changes rfl, ?_⟩
  intro _ _
  refine ⟨_, .mirror _ rfl, ?_⟩
  intro _ _
  exact ⟨_, .unlock rfl, rfl⟩

private theorem moduleIsEnabled_follows {name : String}
    (looks : turn.LooksUp name) (starting : turn.stage = .starting) :
    (moduleIsEnabled name).Follows Discipline.table
      (fun answer later => later = turn.withStage (.answered answer))
      panics turn := by
  intro active _
  cases active with
  | false =>
      exact ⟨_, .seeNone name looks starting, rfl⟩
  | true =>
      refine ⟨_, .seeSome name looks starting, ?_⟩
      intro _ _
      refine ⟨_, .enter rfl, ?_⟩
      intro table _
      refine ⟨_, .find name table looks rfl, ?_⟩
      intro _ _
      exact ⟨_, .leave _ rfl, rfl⟩

end Logger

namespace Command

open Script

theorem followed_of_role {command : Command} {ended : List Command}
    (rest : command.rest = pure .nothing)
    (plain : command.role.claimsModules = command.role.initialising)
    (other : ∀ name, command ≠ .moduleIsEnabled name) :
    Regime.table.Followed command.script (.starting ended command) := by
  unfold Regime.Followed
  rw [script_eq, rest, follows_bind]
  cases role : command.role with
  | initialises | setsLevel =>
      rw [role] at plain
      cases plain
  | peripheral =>
      exact .ignored command .nothing rfl
        (congrArg Role.moduleChange? role) other rfl
  | changesModules change =>
      have changes : (TableTurn.starting ended command).Changes change :=
        ⟨command, rfl, congrArg Role.moduleChange? role⟩
      change Script.Follows _ _ _ (Logger.claimModules >>= _) _
      refine (Logger.claimModules_follows rfl).followedBy fun _ => ?_
      refine (Logger.changeModules_follows_table changes rfl).weaken ?_
        fun _ _ impossible => impossible
      intro _ later same
      subst same
      exact .change change .nothing changes rfl

theorem followed_table {command : Command} (uses : command.usesTable = true)
    (ended : List Command) :
    Regime.table.Followed command.script (.starting ended command) := by
  cases command with
  | moduleIsEnabled name =>
      have looks : (TableTurn.starting ended (.moduleIsEnabled name)).LooksUp
          name := rfl
      unfold Regime.Followed script
      rw [follows_map]
      refine (Logger.moduleIsEnabled_follows looks rfl).weaken ?_
        fun _ _ impossible => impossible
      intro answer later same
      subst same
      exact .lookup name answer looks rfl
  | enableModule name =>
      refine followed_of_role rfl ?_ (fun _ same => by cases same)
      simp only [role]
      split
      · rfl
      · rfl
  | disableModule name =>
      refine followed_of_role rfl ?_ (fun _ same => by cases same)
      simp only [role]
      split
      · rfl
      · rfl
  | enableAllModules =>
      exact followed_of_role rfl rfl (fun _ same => by cases same)
  | _ =>
      cases uses

end Command

end LeveledLog
