/-
The order in which a call initialises and stores.

A thread that is in a call stands somewhere: before its first initialising
step, while it applies the defaults, or where it knows that they have been
applied; and it may hold the configuration lock, perhaps having read the
module table under it.  Levels and tables of its own a call stores only where
it knows that the defaults have been applied, and a variable is asked for only
by the thread that applies them, and only once.  `Discipline.ordered` says so
move by move, and every command follows it.
-/

import LeveledLog.Proofs.Roles

namespace LeveledLog

/-! ### The roles of a command and of the calls in its message -/

mutual

def Command.roles : Command → List Role
  | .log _ message | .facadeLog _ message => .initialises :: message.roles
  | command => [command.role]

def Message.roles : Message → List Role
  | .literal _ => []
  | .rendered parts => Part.rolesAll parts

def Part.roles : Part → List Role
  | .calls command => command.roles
  | .text _ | .fails | .panics _ => []

def Part.rolesAll : List Part → List Role
  | [] => []
  | part :: parts => part.roles ++ Part.rolesAll parts

end

private theorem Command.role_mem_roles (command : Command) :
    command.role ∈ command.roles := by
  cases command with
  | log | facadeLog =>
      rw [Command.roles]
      exact List.mem_cons_self
  | _ =>
      exact List.mem_singleton_self _

/-! ### Where a thread stands -/

/-- How far a call has come with the defaults: it does not know of them, it
applies them and has asked for some variables, or it knows that they have been
applied. -/
inductive Progress where
  | unknown
  | applying (asked : List Variable)
  | ready

inductive ConfigUse where
  | free
  | held
  | read (table : ModuleTable)

/-- Where a thread stands in its call, and whether that call has stored a
level of its own. -/
structure Standing where
  command : Option Command
  progress : Progress
  config : ConfigUse
  wrote : Bool

namespace Standing

def withProgress (standing : Standing) (progress : Progress) : Standing :=
  { standing with progress := progress }

def withConfig (standing : Standing) (config : ConfigUse) : Standing :=
  { standing with config := config }

def resting : Standing where
  command := none
  progress := .unknown
  config := .free
  wrote := false

def starting (command : Command) : Standing :=
  { resting with command := some command }

def roles (standing : Standing) : List Role :=
  match standing.command with
  | some command => command.roles
  | none => []

structure Idle (standing : Standing) : Prop where
  config : standing.config = .free
  progress : standing.progress = .unknown ∨ standing.progress = .ready

structure Onward (before after : Standing) : Prop where
  command : after.command = before.command
  idle : after.Idle
  ready : before.progress = .ready → after.progress = .ready
  wrote : before.wrote = true → after.wrote = true

theorem Onward.refl {standing : Standing} (idle : standing.Idle) :
    standing.Onward standing :=
  ⟨rfl, idle, id, id⟩

theorem Onward.trans {first second third : Standing}
    (earlier : first.Onward second) (later : second.Onward third) :
    first.Onward third where
  command := later.command.trans earlier.command
  idle := later.idle
  ready known := later.ready (earlier.ready known)
  wrote known := later.wrote (earlier.wrote known)

private theorem Onward.roles {before after : Standing}
    (onward : before.Onward after) : after.roles = before.roles := by
  unfold Standing.roles
  rw [onward.command]

end Standing

inductive OrderedMove (standing : Standing) :
    (action : Action) → action.Result → Standing → Prop
  | load (cell : Cell) (value : cell.Value) :
      OrderedMove standing (.load cell) value standing
  | loadTable (table : ModuleTable) (held : standing.config = .held) :
      OrderedMove standing (.load .modules) table
        (standing.withConfig (.read table))
  | store (cell : Cell) (value : cell.Value) (notLevel : cell ≠ .minLevel)
      (notModules : cell ≠ .modules) :
      OrderedMove standing (.store cell value) () standing
  | storeDefault (level : Level) (asked : List Variable)
      (applying : standing.progress = .applying asked) :
      OrderedMove standing (.store .minLevel level) () standing
  | storeLevel (level : Level) (ready : standing.progress = .ready)
      (played : .setsLevel level ∈ standing.roles) :
      OrderedMove standing (.store .minLevel level) ()
        { standing with wrote := true }
  | storeNames (table after : ModuleTable) (asked : List Variable)
      (applying : standing.progress = .applying asked)
      (read : standing.config = .read table) :
      OrderedMove standing (.store .modules after) ()
        (standing.withConfig .held)
  | storeTable (table : ModuleTable) (change : ModuleChange)
      (ready : standing.progress = .ready)
      (read : standing.config = .read table)
      (played : .changesModules change ∈ standing.roles) :
      OrderedMove standing (.store .modules (change.apply table)) ()
        (standing.withConfig .held)
  | acquire (free : standing.config = .free) :
      OrderedMove standing (.acquire .config) ()
        (standing.withConfig .held)
  | release (panicked : Bool) (busy : standing.config ≠ .free) :
      OrderedMove standing (.release .config panicked) ()
        (standing.withConfig .free)
  | acquireOutput :
      OrderedMove standing (.acquire .output) () standing
  | releaseOutput (panicked : Bool) :
      OrderedMove standing (.release .output panicked) () standing
  | start (unknown : standing.progress = .unknown) :
      OrderedMove standing .beginInitialisation true
        (standing.withProgress (.applying []))
  | pass (idle : standing.progress = .unknown ∨ standing.progress = .ready) :
      OrderedMove standing .beginInitialisation false
        (standing.withProgress .ready)
  | finish (asked : List Variable)
      (applying : standing.progress = .applying asked) :
      OrderedMove standing (.endInitialisation true) ()
        (standing.withProgress .ready)
  | lookup (about : Variable) (reading : Reading)
      (asked : List Variable)
      (applying : standing.progress = .applying asked)
      (first : about ∉ asked) :
      OrderedMove standing (.lookup about) reading
        (standing.withProgress (.applying (asked ++ [about])))
  | external (action : Action) (result : action.Result)
      (outside : action.isExternal = true) :
      OrderedMove standing action result standing

namespace Discipline

def ordered : Discipline Standing where
  expects
    | _, .lookup _, reading => Reading.fault? reading = none
    | standing, .beginInitialisation, started =>
        standing.progress = .ready → started = false
    | _, _, _ => True
  allows := OrderedMove

end Discipline

namespace Script

variable {α β : Type} {standing : Standing}

/-- An orderly script goes on to another idle place of the same call. -/
def Ordered (script : Script α) (standing : Standing) : Prop :=
  script.Follows Discipline.ordered (fun _ later => standing.Onward later)
    (fun _ later => standing.Onward later) standing

theorem Ordered.value (idle : standing.Idle) (value : α) :
    (pure value : Script α).Ordered standing :=
  Standing.Onward.refl idle

theorem Ordered.bind {script : Script α} {continuation : α → Script β}
    (first : script.Ordered standing)
    (second : ∀ value later, standing.Onward later →
      (continuation value).Ordered later) :
    (script >>= continuation).Ordered standing := by
  unfold Ordered
  rw [follows_bind]
  refine first.weaken ?_ (fun _ _ onward => onward)
  intro value later onward
  apply (second value later onward).weaken
  · intro _ last further
    exact onward.trans further
  · intro _ last further
    exact onward.trans further

theorem Ordered.map {script : Script α} (function : α → β)
    (ordered : script.Ordered standing) :
    (function <$> script).Ordered standing := by
  unfold Ordered
  rw [follows_map]
  exact ordered

theorem Ordered.attempt {script : Script α}
    (ordered : script.Ordered standing) :
    script.attempt.Ordered standing := by
  unfold Ordered
  rw [follows_attempt]
  exact ordered

def holding (standing : Standing) (held : HeldLocks) : Standing :=
  standing.withConfig (if held.config then .held else .free)

private theorem holding_free (idle : standing.Idle) (output : Bool) :
    holding standing { config := false, output := output } = standing := by
  rcases standing with ⟨command, progress, config, wrote⟩
  have free : config = .free := idle.config
  subst free
  rfl

private theorem ordered_of_peripheral {held later : HeldLocks} {action : Action}
    {result : action.Result} (move : PeripheralMove held action result later) :
    OrderedMove (holding standing held) action result
      (holding standing later) := by
  cases move with
  | load held cell value =>
      exact .load cell value
  | store held cell value peripheral =>
      refine .store cell value ?_ ?_
      · intro same
        subst same
        cases peripheral
      · intro same
        subst same
        cases peripheral
  | external held action result outside =>
      exact .external action result outside
  | acquireConfig output =>
      exact .acquire rfl
  | releaseConfig output panicked =>
      refine .release panicked ?_
      intro impossible
      cases impossible
  | acquireOutput =>
      exact .acquireOutput
  | releaseOutput panicked =>
      exact .releaseOutput panicked

theorem Peripheral.ordered {script : Script α}
    (peripheral : script.Peripheral false) (idle : standing.Idle) :
    script.Ordered standing := by
  have ends (held : HeldLocks) (place : Standing)
      (there : place = holding standing held)
      (free : held = { config := false, output := false }) :
      standing.Onward place := by
    rw [there, free, holding_free idle]
    exact .refl idle
  have start : standing =
      holding standing { config := false, output := false } :=
    (holding_free idle false).symm
  refine Follows.transfer (fun held place => place = holding standing held)
    peripheral (fun _ _ => trivial) ?_ (fun _ => ends) (fun _ => ends) start
  intro held place action result later there move
  rw [there]
  exact ⟨holding standing later, ordered_of_peripheral move, rfl⟩

end Script

/-! ### Applying the defaults -/

namespace Logger

open Script Standing

variable {standing : Standing}

private theorem changeModules_follows {change : ModuleTable → ModuleTable}
    {panics : String → Standing → Prop} (free : standing.config = .free)
    (allowed : ∀ table,
      OrderedMove (standing.withConfig (.read table))
        (.store .modules (change table)) ()
        (standing.withConfig .held)) :
    (changeModules change).Follows Discipline.ordered
      (fun _ later => later = standing) panics standing := by
  intro _ _
  refine ⟨_, .acquire free, ?_⟩
  intro table _
  refine ⟨_, .loadTable table rfl, ?_⟩
  intro _ _
  refine ⟨_, allowed table, ?_⟩
  intro _ _
  have mirror : (Cell.filterActive ≠ .minLevel) ∧
      (Cell.filterActive ≠ .modules) := by decide
  refine ⟨_, .store .filterActive _ mirror.1 mirror.2, ?_⟩
  intro _ _
  refine ⟨_, .release false ?_, ?_⟩
  · intro impossible
    cases impossible
  · rcases standing with ⟨command, progress, config, wrote⟩
    change config = .free at free
    subst free
    rfl

private theorem lookup_follows {asked : List Variable}
    {panics : String → Standing → Prop} {about : Variable}
    (applying : standing.progress = .applying asked)
    (first : about ∉ asked) :
    (lookup about).Follows Discipline.ordered
      (fun _ later =>
        later = standing.withProgress (.applying (asked ++ [about])))
      panics standing := by
  intro reading calm
  refine ⟨_, .lookup about reading asked applying first, ?_⟩
  cases reading with
  | unset | text =>
      rfl
  | panic message =>
      cases calm

private theorem applyLevelDefault_follows {panics : String → Standing → Prop}
    (applying : standing.progress = .applying []) :
    applyLevelDefault.Follows Discipline.ordered
      (fun _ later => ∃ asked, .modules ∉ asked ∧
        later = standing.withProgress (.applying asked))
      panics standing := by
  have none : .modules ∉ ([] : List Variable) := by decide
  have one : .modules ∉ [Variable.level] := by decide
  have unchanged : standing =
      (standing.withProgress (.applying [])) := by
    rw [← applying]
    rfl
  intro claimed _
  refine ⟨standing, .load .levelClaimed claimed, ?_⟩
  cases claimed with
  | true =>
      exact ⟨[], none, unchanged⟩
  | false =>
      change Script.Follows _ _ _ (lookup .level >>= _) _
      rw [follows_bind]
      refine (lookup_follows applying (by decide)).weaken ?_
        (fun _ _ right => right)
      intro reading later same
      subst same
      cases reading with
      | none =>
          exact ⟨_, one, rfl⟩
      | some setting =>
          intro _ _
          exact ⟨_, .storeDefault _ _ rfl, _, one, rfl⟩

private theorem applyModulesDefault_follows {asked : List Variable}
    {panics : String → Standing → Prop} (free : standing.config = .free)
    (applying : standing.progress = .applying asked)
    (first : .modules ∉ asked) :
    applyModulesDefault.Follows Discipline.ordered
      (fun _ later => ∃ asked,
        later = standing.withProgress (.applying asked))
      panics standing := by
  have unchanged : standing =
      (standing.withProgress (.applying asked)) := by
    rw [← applying]
    rfl
  intro claimed _
  refine ⟨standing, .load .modulesClaimed claimed, ?_⟩
  cases claimed with
  | true =>
      exact ⟨asked, unchanged⟩
  | false =>
      change Script.Follows _ _ _ (lookup .modules >>= _) _
      rw [follows_bind]
      refine (lookup_follows applying first).weaken ?_
        (fun _ _ right => right)
      intro reading later same
      subst same
      cases reading with
      | none =>
          exact ⟨_, rfl⟩
      | some setting =>
          have freeStill : (standing.withProgress
              (.applying (asked ++ [.modules]))).config = .free := free
          refine (changeModules_follows freeStill ?_).weaken ?_
            (fun _ _ right => right)
          · intro table
            exact .storeNames table _ _ rfl rfl
          · intro _ later same
            exact ⟨_, same⟩

private theorem applyDefaults_follows {panics : String → Standing → Prop}
    (free : standing.config = .free)
    (applying : standing.progress = .applying []) :
    applyDefaults.Follows Discipline.ordered
      (fun _ later => ∃ asked,
        later = standing.withProgress (.applying asked))
      panics standing := by
  rw [applyDefaults, follows_bind]
  refine (applyLevelDefault_follows applying).weaken ?_
    (fun _ _ right => right)
  intro _ later stands
  obtain ⟨asked, first, same⟩ := stands
  subst same
  exact applyModulesDefault_follows free rfl first

private theorem initOnce_follows {panics : String → Standing → Prop}
    (idle : standing.Idle) :
    initOnce.Follows Discipline.ordered
      (fun _ later => later = standing.withProgress .ready)
      panics standing := by
  intro started expected
  cases started with
  | false =>
      exact ⟨_, .pass idle.progress, rfl⟩
  | true =>
      have unknown : standing.progress = .unknown := by
        rcases idle.progress with unknown | ready
        · exact unknown
        · cases expected ready
      refine ⟨_, .start unknown, ?_⟩
      change Script.Follows _ _ _ (applyDefaults.attempt >>= _) _
      rw [follows_bind, follows_attempt]
      have freeStill :
          (standing.withProgress (.applying [])).config = .free :=
        idle.config
      have applies : applyDefaults.Follows Discipline.ordered
          (fun _ later => ∃ asked,
            later = standing.withProgress (.applying asked))
          (fun _ _ => False) (standing.withProgress (.applying [])) :=
        applyDefaults_follows freeStill rfl
      refine applies.weaken ?_ (fun _ _ impossible => impossible.elim)
      intro _ later stands
      obtain ⟨asked, same⟩ := stands
      subst same
      intro _ _
      exact ⟨_, .finish asked rfl, rfl⟩

end Logger

/-! ### Commands -/

namespace Standing

variable {standing : Standing}

private theorem Idle.withReady (idle : standing.Idle) :
    standing.Onward (standing.withProgress .ready) where
  command := rfl
  idle := ⟨idle.config, .inr rfl⟩
  ready _ := rfl
  wrote := id

end Standing

/-- Where playing a role leads: the defaults are known to be applied, and a
level to be stored has been stored. -/
structure Role.Leads (role : Role) (before after : Standing) : Prop where
  onward : before.Onward after
  ready : role.initialising = true → after.progress = .ready
  wrote : ∀ level, role = .setsLevel level → after.wrote = true

private theorem Role.script_follows {role : Role} {standing : Standing}
    {panics : String → Standing → Prop} (idle : standing.Idle)
    (played : role ∈ standing.roles) :
    role.script.Follows Discipline.ordered
      (fun _ later => role.Leads standing later) panics standing := by
  cases role with
  | peripheral =>
      refine ⟨.refl idle, ?_, ?_⟩
      · intro impossible
        cases impossible
      · intro _ impossible
        cases impossible
  | initialises =>
      refine (Logger.initOnce_follows idle).weaken ?_ (fun _ _ right => right)
      intro _ later same
      subst same
      refine ⟨idle.withReady, fun _ => rfl, ?_⟩
      intro _ impossible
      cases impossible
  | setsLevel level =>
      intro _ _
      refine ⟨_, .store .levelClaimed true (by decide) (by decide), ?_⟩
      change Script.Follows _ _ _ (Logger.initOnce >>= _) _
      rw [Script.follows_bind]
      refine (Logger.initOnce_follows idle).weaken ?_ (fun _ _ right => right)
      intro _ later same
      subst same
      intro _ _
      refine ⟨_, .storeLevel level rfl played, ?_⟩
      refine ⟨⟨rfl, ⟨idle.config, .inr rfl⟩, fun _ => rfl, fun _ => rfl⟩,
        fun _ => rfl, fun _ _ => rfl⟩
  | changesModules change =>
      change Script.Follows _ _ _ (Logger.claimModules >>= _) _
      rw [Script.follows_bind]
      intro _ _
      refine ⟨_, .store .modulesClaimed true (by decide) (by decide), ?_⟩
      refine (Logger.initOnce_follows idle).weaken ?_ (fun _ _ right => right)
      intro _ later same
      subst same
      have free : (standing.withProgress .ready).config = .free := idle.config
      refine (Logger.changeModules_follows free ?_).weaken ?_
        (fun _ _ right => right)
      · intro table
        exact .storeTable table change rfl rfl played
      · intro _ later same
        subst same
        refine ⟨idle.withReady, fun _ => rfl, ?_⟩
        intro _ impossible
        cases impossible

namespace Script

variable {standing : Standing}

private theorem Ordered.logPassing {render : Script (Option String)}
    (renders : ∀ {later}, standing.Onward later → render.Ordered later)
    (idle : standing.Idle) (entry : Entry) :
    (Logger.logPassing entry render).Ordered standing := by
  apply ((Logger.gates_peripheral _ _).ordered idle).bind
  intro passes later onward
  cases passes with
  | false =>
      exact .value onward.idle ()
  | true =>
      apply (renders onward).bind
      intro rendered last further
      exact (Logger.writeRendered_peripheral entry rendered).ordered
        further.idle

end Script

theorem Command.script_follows {command : Command} {standing : Standing}
    (idle : standing.Idle) (played : command.role ∈ standing.roles)
    (rest : ∀ {later}, standing.Onward later → command.rest.Ordered later) :
    command.script.Follows Discipline.ordered
      (fun _ later => command.role.Leads standing later)
      (fun _ later => standing.Onward later) standing := by
  rw [Command.script_eq, Script.follows_bind]
  refine (Role.script_follows idle played).weaken ?_
    (fun _ _ right => right)
  intro _ later leads
  apply (rest leads.onward).weaken
  · intro _ last onward
    exact ⟨leads.onward.trans onward,
      fun initialising => onward.ready (leads.ready initialising),
      fun level same => onward.wrote (leads.wrote level same)⟩
  · intro _ last onward
    exact leads.onward.trans onward

mutual

theorem Command.rest_ordered (command : Command) {standing : Standing}
    (idle : standing.Idle)
    (within : ∀ role ∈ command.roles, role ∈ standing.roles) :
    command.rest.Ordered standing := by
  cases command with
  | log entry message =>
      rw [Command.roles] at within
      refine .map _ (.logPassing ?_ idle entry)
      intro later onward
      apply Message.render_ordered message onward.idle
      intro role member
      rw [onward.roles]
      exact within role (List.mem_cons_of_mem _ member)
  | facadeLog record message =>
      rw [Command.roles] at within
      refine .map _ (.logPassing ?_ idle record.entry)
      intro later onward
      refine (Message.render_ordered message onward.idle ?_).bind ?_
      · intro role member
        rw [onward.roles]
        exact within role (List.mem_cons_of_mem _ member)
      · intro _ last further
        exact .value further.idle _
  | _ =>
      exact (Command.rest_peripheral rfl).ordered idle

theorem Message.render_ordered (message : Message) {standing : Standing}
    (idle : standing.Idle)
    (within : ∀ role ∈ message.roles, role ∈ standing.roles) :
    message.render.Ordered standing := by
  cases message with
  | literal text =>
      exact .value idle _
  | rendered parts =>
      rw [Message.roles] at within
      rw [Message.render]
      apply (Part.render_all_ordered parts idle within).attempt.bind
      intro result later onward
      cases result with
      | ok | error =>
          exact .value onward.idle _

theorem Part.render_ordered (part : Part) {standing : Standing}
    (idle : standing.Idle)
    (within : ∀ role ∈ part.roles, role ∈ standing.roles) :
    part.render.Ordered standing := by
  cases part with
  | text | fails =>
      exact .value idle _
  | panics text =>
      exact .refl idle
  | calls command =>
      rw [Part.roles] at within
      rw [Part.render]
      have runs : command.script.Ordered standing := by
        refine (Command.script_follows idle
          (within _ command.role_mem_roles) ?_).weaken
            (fun _ _ leads => leads.onward) (fun _ _ right => right)
        intro later onward
        apply Command.rest_ordered command onward.idle
        rw [onward.roles]
        exact within
      apply runs.bind
      intro _ later onward
      exact .value onward.idle _

theorem Part.render_all_ordered (parts : List Part) {standing : Standing}
    (idle : standing.Idle)
    (within : ∀ role ∈ Part.rolesAll parts, role ∈ standing.roles) :
    (Part.renderAll parts).Ordered standing := by
  cases parts with
  | nil =>
      exact .value idle _
  | cons part parts =>
      rw [Part.rolesAll] at within
      rw [Part.renderAll]
      refine (Part.render_ordered part idle ?_).bind ?_
      · intro role member
        exact within role (List.mem_append_left _ member)
      · intro rendered later onward
        cases rendered with
        | none =>
            exact .value onward.idle none
        | some first =>
            refine (Part.render_all_ordered parts onward.idle ?_).bind ?_
            · intro role member
              rw [onward.roles]
              exact within role (List.mem_append_right _ member)
            · intro _ last further
              exact .value further.idle _

end

theorem Command.script_ordered (command : Command) :
    command.script.Follows Discipline.ordered
      (fun _ later => command.role.Leads (.starting command) later)
      (fun _ later => (Standing.starting command).Onward later)
      (.starting command) := by
  have idle : (Standing.starting command).Idle := ⟨rfl, .inl rfl⟩
  apply Command.script_follows idle command.role_mem_roles
  intro later onward
  apply Command.rest_ordered command onward.idle
  rw [onward.roles]
  exact fun _ member => member

end LeveledLog
