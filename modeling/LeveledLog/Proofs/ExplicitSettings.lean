/-
Explicit settings and the defaults of the environment, under any schedule.

However the steps of any number of threads are interleaved, each variable is
asked for at most once.  From the moment a call that sets the minimum level
has returned, every level that is stored is one that a call sets; and from the
moment a call that claims the module table has returned, every table that is
stored comes from the table before it by a change that a call makes.
-/

import LeveledLog.Proofs.History
import LeveledLog.Proofs.OrderlySteps

namespace LeveledLog

namespace Pool

/-- A thread is about to store a level after the defaults have been applied. -/
def SetsLevel (pool : Pool) (thread : Nat) : Prop :=
  pool.world.initialisation = .complete ∧
    ∃ level, pool.AboutTo thread (.store .minLevel level)

end Pool

/-- Along the path of a pool a level has been stored after the defaults. -/
def LevelSet (start : Pool) (path : List Nat) : Prop :=
  ∃ before thread after, path = before ++ thread :: after ∧
    (start.play before).SetsLevel thread

private theorem levelSet_append {start : Pool} {path : List Nat}
    {thread : Nat} :
    LevelSet start (path ++ [thread]) ↔
      LevelSet start path ∨ (start.play path).SetsLevel thread := by
  constructor
  · rintro ⟨before, other, after, same, sets⟩
    rcases snoc_split same with ⟨_, ends, moves⟩ | ⟨shorter, _, ends⟩
    · rw [ends, moves]
      exact .inr sets
    · exact .inl ⟨before, other, shorter, ends, sets⟩
  · rintro (⟨before, other, after, same, sets⟩ | sets)
    · refine ⟨before, other, after ++ [thread], ?_, sets⟩
      rw [same]
      simp
    · exact ⟨path, thread, [], rfl, sets⟩

/-! ### The history of a pool -/

/-- What has been noted about the calls of threads is so, and what has been
settled stays so. -/
structure HistoryAccord (start : Pool) (path : List Nat) (pool : Pool)
    (standings : Nat → Standing) : Prop where
  played : pool = start.play path
  calling : ∀ thread command, (standings thread).command = some command →
    pool.calling thread = some command
  wrote : ∀ thread, (standings thread).wrote = true → LevelSet start path
  level : LevelSet start path → ∃ command ∈ pool.begun,
    .setsLevel (pool.world.get .minLevel) ∈ command.roles
  returned : ∀ command ∈ pool.returned,
    (command.role.initialising = true →
      pool.world.initialisation = .complete) ∧
      ∀ level, command = .setMinLevel level → LevelSet start path
  settled : ∀ before after, path = before ++ after →
    (start.play before).world.initialisation = .complete →
    pool.world.initialisation = .complete ∧
      pool.world.surroundings.lookups =
        (start.play before).world.surroundings.lookups

namespace HistoryAccord

variable {start pool : Pool} {path : List Nat}
variable {standings : Nat → Standing} {thread : Nat} {later : Standing}

private theorem complete_of_levelSet
    (accord : HistoryAccord start path pool standings)
    (set : LevelSet start path) : pool.world.initialisation = .complete := by
  obtain ⟨before, other, after, same, complete, _⟩ := set
  exact (accord.settled before (other :: after) same complete).1

private theorem settled_append
    (accord : HistoryAccord start path pool standings)
    {next : Pool} (goes : next = start.play (path ++ [thread]))
    (stays : pool.world.initialisation = .complete →
      next.world.initialisation = .complete ∧
        next.world.surroundings.lookups = pool.world.surroundings.lookups) :
    ∀ before after, path ++ [thread] = before ++ after →
      (start.play before).world.initialisation = .complete →
      next.world.initialisation = .complete ∧
        next.world.surroundings.lookups =
          (start.play before).world.surroundings.lookups := by
  intro before after same complete
  -- The earlier moment is the present one, or it comes before the last step.
  rcases List.eq_nil_or_concat after with none | ⟨shorter, last, longer⟩
  · subst none
    rw [List.append_nil] at same
    rw [← same, ← goes] at complete ⊢
    exact ⟨complete, rfl⟩
  · subst longer
    rw [List.concat_eq_append, ← List.append_assoc] at same
    have ends := List.append_inj' same rfl
    obtain ⟨done, lookups⟩ := accord.settled before shorter ends.1 complete
    obtain ⟨doneAfter, lookupsAfter⟩ := stays done
    exact ⟨doneAfter, lookupsAfter.trans lookups⟩

private theorem levelSet_of_still
    (accord : HistoryAccord start path pool standings)
    (still : ¬ pool.SetsLevel thread) :
    LevelSet start (path ++ [thread]) ↔ LevelSet start path := by
  rw [levelSet_append, ← accord.played]
  exact ⟨fun either => either.resolve_right still, .inl⟩

private theorem idle (accord : HistoryAccord start path pool standings)
    (goes : pool = start.play (path ++ [thread]))
    (still : ¬ pool.SetsLevel thread) :
    HistoryAccord start (path ++ [thread]) pool standings where
  played := goes
  calling := accord.calling
  wrote other stands :=
    (accord.levelSet_of_still still).mpr (accord.wrote other stands)
  level set := accord.level ((accord.levelSet_of_still still).mp set)
  returned command member := by
    obtain ⟨complete, set⟩ := accord.returned command member
    refine ⟨complete, ?_⟩
    intro level same
    exact (accord.levelSet_of_still still).mpr (set level same)
  settled := accord.settled_append goes fun complete => ⟨complete, rfl⟩

private theorem perform (accord : HistoryAccord start path pool standings)
    {after : World} {state : ThreadState} {action : Action}
    {accepted : List Delivery}
    (goes : pool.note thread after state (.performed action accepted) =
      start.play (path ++ [thread]))
    (command : later.command = (standings thread).command)
    (wrote : later.wrote = true →
      (standings thread).wrote = true ∨ pool.SetsLevel thread)
    (stays : pool.world.initialisation = .complete →
      after.initialisation = .complete ∧
        after.surroundings.lookups = pool.world.surroundings.lookups)
    (level : pool.world.initialisation = .complete →
      after.get .minLevel = pool.world.get .minLevel ∧
          ¬ pool.SetsLevel thread ∨
        ∃ command, (standings thread).command = some command ∧
          .setsLevel (after.get .minLevel) ∈ command.roles) :
    HistoryAccord start (path ++ [thread])
      (pool.note thread after state (.performed action accepted))
      (Function.update standings thread later) := by
  have sameCalling (other : Nat) : (pool.note thread after state
      (.performed action accepted)).calling other = pool.calling other := by
    rw [Pool.calling_note]
    split
    · rfl
    · rfl
  have sameBegun : (pool.note thread after state
      (.performed action accepted)).begun = pool.begun := by
    rw [Pool.begun_note]
    rfl
  have setBefore (set : LevelSet start (path ++ [thread])) :
      LevelSet start path ∨ pool.SetsLevel thread := by
    rw [levelSet_append, ← accord.played] at set
    exact set
  refine ⟨goes, ?_, ?_, ?_, ?_, accord.settled_append goes stays⟩
  · intro other known stands
    rw [sameCalling]
    by_cases this : other = thread
    · subst this
      rw [Function.update_self, command] at stands
      exact accord.calling other known stands
    · rw [Function.update_of_ne this] at stands
      exact accord.calling other known stands
  · intro other stands
    rw [levelSet_append, ← accord.played]
    by_cases this : other = thread
    · subst this
      rw [Function.update_self] at stands
      rcases wrote stands with before | now
      · exact .inl (accord.wrote other before)
      · exact .inr now
    · rw [Function.update_of_ne this] at stands
      exact .inl (accord.wrote other stands)
  · intro set
    rw [sameBegun]
    have complete : pool.world.initialisation = .complete := by
      rcases setBefore set with before | now
      · exact accord.complete_of_levelSet before
      · exact now.1
    rcases level complete with ⟨same, notNow⟩ | ⟨known, stands, sets⟩
    · rcases setBefore set with before | now
      · change ∃ command ∈ pool.begun,
          Role.setsLevel (after.get .minLevel) ∈ command.roles
        rw [same]
        exact accord.level before
      · exact absurd now notNow
    · exact ⟨known, History.mem_begun_of_lastCall
        (accord.calling thread known stands), sets⟩
  · intro known member
    obtain ⟨complete, set⟩ := accord.returned known member
    refine ⟨fun initialising => (stays (complete initialising)).1, ?_⟩
    intro level same
    exact levelSet_append.mpr (.inl (set level same))

private theorem turn (accord : HistoryAccord start path pool standings)
    {state : ThreadState} {deed : Deed}
    (goes : pool.note thread pool.world state deed =
      start.play (path ++ [thread]))
    (still : ¬ pool.SetsLevel thread)
    (calling : ∀ command, later.command = some command →
      (pool.note thread pool.world state deed).calling thread = some command)
    (wrote : later.wrote = false)
    (returned : ∀ command ∈ (pool.note thread pool.world state deed).returned,
      command ∈ pool.returned ∨
        (command.role.initialising = true →
          pool.world.initialisation = .complete) ∧
          ∀ level, command = .setMinLevel level → LevelSet start path) :
    HistoryAccord start (path ++ [thread])
      (pool.note thread pool.world state deed)
      (Function.update standings thread later) := by
  have sameSet := accord.levelSet_of_still still
  refine ⟨goes, ?_, ?_, ?_, ?_, accord.settled_append goes ?_⟩
  · intro other known stands
    by_cases this : other = thread
    · subst this
      rw [Function.update_self] at stands
      exact calling known stands
    · rw [Function.update_of_ne this] at stands
      rw [Pool.calling_note, if_neg (Ne.symm this)]
      exact accord.calling other known stands
  · intro other stands
    rw [sameSet]
    by_cases this : other = thread
    · subst this
      rw [Function.update_self, wrote] at stands
      cases stands
    · rw [Function.update_of_ne this] at stands
      exact accord.wrote other stands
  · intro set
    obtain ⟨known, member, sets⟩ := accord.level (sameSet.mp set)
    refine ⟨known, ?_, sets⟩
    rw [Pool.begun_note]
    exact List.mem_append_right _ member
  · intro known member
    rcases returned known member with before | now
    · obtain ⟨complete, set⟩ := accord.returned known before
      exact ⟨complete, fun level same => sameSet.mpr (set level same)⟩
    · exact ⟨now.1, fun level same => sameSet.mpr (now.2 level same)⟩
  · intro complete
    exact ⟨complete, rfl⟩

end HistoryAccord

/-! ### The accords along every schedule -/

structure Accord (start : Pool) (path : List Nat) (pool : Pool)
    (standings : Nat → Standing) : Prop where
  lock : LockAccord pool.world standings
  defaults :
    DefaultsAccord start.world.surroundings.lookups pool.world standings
  history : HistoryAccord start path pool standings

def Regime.ordered : Regime Standing where
  toDiscipline := Discipline.ordered
  rests standing := standing = .resting
  returns _ standing := ∃ command, standing.command = some command ∧
    command.role.Leads (.starting command) standing
  panics _ standing := standing.Idle

private theorem Command.followed_ordered (command : Command) :
    Regime.ordered.Followed command.script (.starting command) := by
  apply (command.script_ordered).weaken
  · intro _ later leads
    exact ⟨command, leads.onward.command, leads⟩
  · intro _ later onward
    exact onward.idle

namespace Pool

variable {pool : Pool} {thread : Nat} {pending : List Command}

private theorem not_setsLevel_of_resting
    (present : pool.threads[thread]? =
      some { current := none, pending := pending }) :
    ¬ pool.SetsLevel thread := by
  rintro ⟨_, level, next, later, about⟩
  rw [present] at about
  cases about

private theorem not_setsLevel_of_ended {script : Script Value}
    (present : pool.threads[thread]? =
      some { current := some script, pending := pending })
    (ended : ∀ action next, script ≠ .step action next) :
    ¬ pool.SetsLevel thread := by
  rintro ⟨_, level, next, later, about⟩
  rw [present] at about
  cases about
  exact ended _ _ rfl

private theorem not_setsLevel_of_other {action : Action}
    {next : action.Result → Script Value}
    (present : pool.threads[thread]? =
      some { current := some (.step action next), pending := pending })
    (other : ∀ level, action ≠ .store .minLevel level) :
    ¬ pool.SetsLevel thread := by
  rintro ⟨_, level, _, later, about⟩
  rw [present] at about
  cases about
  exact other level rfl

private theorem not_setsLevel_of_idle (idle : pool.step thread = pool) :
    ¬ pool.SetsLevel thread := by
  rintro ⟨_, level, next, later, about⟩
  have steps := congrArg (fun pool => pool.history.length) idle
  rw [step_of_perform about rfl] at steps
  simp [note] at steps

end Pool

namespace Accord

variable {start : Pool}

private theorem idles {path : List Nat} {pool : Pool}
    {standings : Nat → Standing}
    (accord : Accord start path pool standings) {thread : Nat}
    (idle : pool.step thread = pool) :
    Accord start (path ++ [thread]) pool standings where
  lock := accord.lock
  defaults := accord.defaults
  history := accord.history.idle
    (Pool.play_snoc accord.history.played idle)
    (Pool.not_setsLevel_of_idle idle)

private theorem turns {path : List Nat} {pool : Pool}
    {standings : Nat → Standing}
    (accord : Accord start path pool standings) {thread : Nat}
    {later : Standing} (free : (standings thread).config = .free)
    (fresh : later.config = .free ∧ later.progress = .unknown)
    {state : ThreadState} {deed : Deed}
    (history : HistoryAccord start (path ++ [thread])
      (pool.note thread pool.world state deed)
      (Function.update standings thread later)) :
    Accord start (path ++ [thread]) (pool.note thread pool.world state deed)
      (Function.update standings thread later) :=
  ⟨accord.lock.keep rfl rfl (fresh.1.trans free.symm),
    accord.defaults.forget fresh.2, history⟩

private theorem performs {path : List Nat} {pool : Pool}
    {standings : Nat → Standing}
    (accord : Accord start path pool standings) {thread : Nat}
    {action : Action} {pending : List Command}
    {next : action.Result → Script Value} {performed : Performed action.Result}
    (present : pool.threads[thread]? =
      some { current := some (.step action next), pending := pending })
    (performs : action.perform thread pool.world = some performed)
    {later : Standing}
    (move : OrderedMove (standings thread) action performed.result later) :
    Accord start (path ++ [thread])
      (pool.note thread performed.world
        { current := some (next performed.result), pending := pending }
        (.performed action performed.accepted))
      (Function.update standings thread later) := by
  have orderly := move.orderly accord.lock accord.defaults performs
  have goes := Pool.play_snoc accord.history.played
    (Pool.step_of_perform present performs)
  refine ⟨orderly.lock, orderly.defaults,
    accord.history.perform goes orderly.command ?_ orderly.stays ?_⟩
  · intro stands
    rcases orderly.wrote stands with before | ⟨complete, level, same⟩
    · exact .inl before
    · subst same
      exact .inr ⟨complete, level, next, pending, present⟩
  · intro complete
    rcases orderly.level complete with ⟨same, other⟩ | sets
    · exact .inl ⟨same, Pool.not_setsLevel_of_other present other⟩
    · exact .inr sets

private theorem expected {path : List Nat} {pool : Pool}
    {standings : Nat → Standing} (accord : Accord start path pool standings)
    {thread : Nat} {action : Action} {performed : Performed action.Result}
    (performs : action.perform thread pool.world = some performed) :
    Discipline.ordered.expects (standings thread) action performed.result := by
  cases action with
  | lookup asked =>
      cases performs
      exact accord.defaults.calm.now asked
  | beginInitialisation =>
      intro ready
      have complete := accord.defaults.ready thread ready
      rw [Action.perform_begin_of_complete complete] at performs
      cases performs
      rfl
  | load | store | acquire | release | endInitialisation | deliver | readClock
  | readHost | setClock | arm | collect | takeFacade =>
      trivial

private theorem begins {path : List Nat} {pool : Pool}
    {standings : Nat → Standing}
    (accord : Accord start path pool standings) {thread : Nat}
    {command : Command} {pending : List Command}
    (present : pool.threads[thread]? =
      some { current := none, pending := command :: pending })
    (resting : standings thread = .resting) :
    Accord start (path ++ [thread])
      (pool.note thread pool.world
        { current := some command.script, pending := pending }
        (.began command))
      (Function.update standings thread (.starting command)) := by
  have steps := Pool.play_snoc accord.history.played
    (Pool.step_of_begin present)
  apply accord.turns (by rw [resting]; rfl) ⟨rfl, rfl⟩
  refine accord.history.turn steps
    (Pool.not_setsLevel_of_resting present) ?_ rfl ?_
  · intro known same
    cases same
    rw [Pool.calling_note, if_pos rfl]
    rfl
  · intro _ member
    exact .inl member

private theorem ends {path : List Nat} {pool : Pool}
    {standings : Nat → Standing}
    (accord : Accord start path pool standings) {thread : Nat}
    {script : Script Value} {pending : List Command}
    (present : pool.threads[thread]? =
      some { current := some script, pending := pending })
    (ended : ∀ action next, script ≠ .step action next)
    (idle : (standings thread).Idle) {state : ThreadState} {deed : Deed}
    (steps : pool.step thread = pool.note thread pool.world state deed)
    (returned : ∀ command ∈ (pool.note thread pool.world state deed).returned,
      command ∈ pool.returned ∨
        (command.role.initialising = true →
          pool.world.initialisation = .complete) ∧
          ∀ level, command = .setMinLevel level → LevelSet start path) :
    Accord start (path ++ [thread]) (pool.note thread pool.world state deed)
      (Function.update standings thread .resting) := by
  apply accord.turns idle.config ⟨rfl, rfl⟩
  refine accord.history.turn (Pool.play_snoc accord.history.played steps)
    (Pool.not_setsLevel_of_ended present ended) ?_ rfl returned
  intro _ impossible
  cases impossible

private theorem returned_of_leads {path : List Nat} {pool : Pool}
    {standings : Nat → Standing} (accord : Accord start path pool standings)
    {thread : Nat} {command : Command}
    (stands : (standings thread).command = some command)
    (leads : command.role.Leads (.starting command) (standings thread))
    {known : Command} {state : ThreadState} {value : Value}
    (member : known ∈
      (pool.note thread pool.world state (.returned value)).returned) :
    known ∈ pool.returned ∨
      (known.role.initialising = true →
        pool.world.initialisation = .complete) ∧
        ∀ level, known = .setMinLevel level → LevelSet start path := by
  have calls := accord.history.calling thread command stands
  have members : known ∈ (some command).toList ++ pool.returned := by
    rw [← calls]
    exact member
  rcases List.mem_append.mp members with now | before
  · have same : known = command := by simpa using now
    subst same
    refine .inr ⟨?_, ?_⟩
    · intro initialising
      exact accord.defaults.ready thread (leads.ready initialising)
    · intro level same
      subst same
      exact accord.history.wrote thread (leads.wrote level rfl)
  · exact .inl before

theorem keeps (start : Pool) :
    Regime.ordered.Keeps (fun _ => True) (Accord start) where
  idles _ accord idle := accord.idles idle
  begins accord present _ rests :=
    ⟨_, Command.followed_ordered _, accord.begins present rests⟩
  performs accord present performs _ :=
    ⟨accord.expected performs,
      fun _ move => accord.performs present performs move⟩
  returns := by
    intro path pool standings thread value pending accord present returns
    obtain ⟨command, stands, leads⟩ := returns
    refine ⟨.resting, rfl, ?_⟩
    apply accord.ends present _ leads.onward.idle
      (Pool.step_of_return present)
    · intro _ member
      exact accord.returned_of_leads stands leads member
    · intro _ _ impossible
      cases impossible
  panics := by
    intro path pool standings thread text pending accord present idle
    refine ⟨.resting, rfl, ?_⟩
    apply accord.ends present _ idle (Pool.step_of_panic present)
    · intro _ member
      exact .inl member
    · intro _ _ impossible
      cases impossible

private theorem fresh {surroundings : Surroundings}
    (calm : surroundings.environment.NeverPanics)
    (work : List (List Command)) :
    Accord (Pool.start (World.fresh surroundings) work) []
      (Pool.start (World.fresh surroundings) work) fun _ => .resting where
  lock := by
    constructor
    · intro thread
      refine ⟨?_, fun impossible => absurd rfl impossible⟩
      intro impossible
      cases impossible
    · intro _ _ impossible
      cases impossible
  defaults := by
    refine ⟨?_, ?_, ?_, fun _ => rfl, ⟨[], List.nodup_nil, ?_⟩, calm⟩
    · intro _ _ impossible
      cases impossible
    · intro _ _ _ _ impossible
      cases impossible
    · intro _ impossible
      cases impossible
    · exact (List.append_nil _).symm
  history := by
    refine ⟨rfl, ?_, ?_, ?_, ?_, ?_⟩
    · intro _ _ impossible
      cases impossible
    · intro _ impossible
      cases impossible
    · rintro ⟨before, thread, after, impossible, _⟩
      simp at impossible
    · intro _ impossible
      cases impossible
    · intro before after same complete
      obtain ⟨none, _⟩ := List.append_eq_nil_iff.mp same.symm
      subst none
      exact ⟨complete, rfl⟩

private theorem about_move {pool : Pool} {standings : Nat → Standing}
    (follows : pool.Follows Regime.ordered (fun _ => True) standings)
    {thread : Nat} {cell : Cell} {value : cell.Value}
    (about : pool.AboutTo thread (.store cell value)) :
    ∃ later, OrderedMove (standings thread) (.store cell value) () later := by
  obtain ⟨next, pending, present⟩ := about
  have followed := (follows thread _ present).calling _ rfl
  obtain ⟨later, move, _⟩ := followed () trivial
  exact ⟨later, move⟩

end Accord

/-- What holds of every pool after one in which the defaults have been
applied: no variable is asked for any more, and levels and tables are stored
by calls only, each by a call that has that role. -/
structure Pool.SettledSince (pool before : Pool) : Prop where
  complete : pool.world.initialisation = .complete
  lookups :
    pool.world.surroundings.lookups = before.world.surroundings.lookups
  levels : ∀ thread level, pool.AboutTo thread (.store .minLevel level) →
    ∃ command, pool.calling thread = some command ∧
      .setsLevel level ∈ command.roles
  tables : ∀ thread table, pool.AboutTo thread (.store .modules table) →
    ∃ command change, pool.calling thread = some command ∧
      .changesModules change ∈ command.roles ∧
      table = change.apply (pool.world.get .modules)

namespace Accord

variable {start pool : Pool} {path : List Nat} {standings : Nat → Standing}

private theorem settledSince (accord : Accord start path pool standings)
    (follows : pool.Follows Regime.ordered (fun _ => True) standings)
    {before after : List Nat} (split : path = before ++ after)
    (complete : (start.play before).world.initialisation = .complete) :
    pool.SettledSince (start.play before) := by
  obtain ⟨done, lookups⟩ :=
    accord.history.settled before after split complete
  refine ⟨done, lookups, ?_, ?_⟩
  · intro thread level about
    obtain ⟨later, move⟩ := about_move follows about
    cases move with
    | store _ _ notLevel =>
        exact absurd rfl notLevel
    | storeDefault _ asked applying =>
        exact absurd done (accord.defaults.incomplete applying)
    | storeLevel _ _ played =>
        obtain ⟨command, stands, sets⟩ := Standing.command_of_roles played
        exact ⟨command, accord.history.calling thread command stands, sets⟩
    | external _ _ outside =>
        cases outside
  · intro thread table about
    obtain ⟨later, move⟩ := about_move follows about
    cases move with
    | store _ _ _ notModules =>
        exact absurd rfl notModules
    | storeNames _ _ asked applying =>
        exact absurd done (accord.defaults.incomplete applying)
    | storeTable seen change _ read played =>
        obtain ⟨command, stands, changes⟩ := Standing.command_of_roles played
        refine ⟨command, change,
          accord.history.calling thread command stands, changes, ?_⟩
        rw [accord.lock.table thread seen read]
    | external _ _ outside =>
        cases outside

end Accord

/-- Explicit settings win over the environment, which is asked at most once
about each variable, under every schedule of any threads on a fresh logger. -/
theorem explicit_settings_win (surroundings : Surroundings)
    (calm : surroundings.environment.NeverPanics)
    (work : List (List Command)) (earlier later : List Nat) :
    let start := Pool.start (World.fresh surroundings) work
    let before := start.play earlier
    let pool := start.play (earlier ++ later)
    (∃ asked, asked.Nodup ∧
      pool.world.surroundings.lookups = surroundings.lookups ++ asked) ∧
    ((∃ level, .setMinLevel level ∈ before.returned) ∨
        LevelSet start earlier →
      pool.SettledSince before ∧
        ∃ command ∈ pool.begun,
          .setsLevel (pool.world.get .minLevel) ∈ command.roles) ∧
    ((∃ command ∈ before.returned, command.role.claimsModules = true) ∨
        before.world.initialisation = .complete →
      pool.SettledSince before) := by
  intro start before pool
  have begins := Accord.fresh calm work
  have follows : start.Follows Regime.ordered (fun _ => True)
      fun _ => .resting :=
    Regime.follows_start (fun _ _ _ _ => trivial) (fun _ => rfl) _
  obtain ⟨standings, accord, _⟩ :=
    (Accord.keeps start).play begins follows earlier
  obtain ⟨standingsAfter, accordAfter, followsAfter⟩ :=
    (Accord.keeps start).play begins follows (earlier ++ later)
  rw [List.nil_append] at accord accordAfter
  have since (complete : before.world.initialisation = .complete) :
      pool.SettledSince before :=
    accordAfter.settledSince followsAfter rfl complete
  refine ⟨accordAfter.defaults.once, ?_, ?_⟩
  · intro trigger
    have set : LevelSet start earlier := by
      rcases trigger with ⟨level, returned⟩ | set
      · exact (accord.history.returned _ returned).2 level rfl
      · exact set
    refine ⟨since (accord.history.complete_of_levelSet set), ?_⟩
    apply accordAfter.history.level
    obtain ⟨first, thread, rest, same, sets⟩ := set
    refine ⟨first, thread, rest ++ later, ?_, sets⟩
    rw [same]
    simp
  · intro trigger
    rcases trigger with ⟨command, returned, claims⟩ | complete
    · have initialising : command.role.initialising = true := by
        revert claims
        cases command.role with
        | peripheral | initialises | setsLevel =>
            intro impossible
            cases impossible
        | changesModules =>
            exact fun _ => rfl
      exact since ((accord.history.returned _ returned).1 initialising)
    · exact since complete

/-- The level of a call stays, also if another thread has begun to apply the
defaults before that call claims the level. -/
theorem explicit_level_survives :
    let host : Host := { processId := 1, terminal := false }
    let environment : Environment := fun _ => Tape.constant (.text "warn")
    let start := Pool.start
      (World.fresh (Surroundings.start host environment))
      [[.setMinLevel .error], [.wouldLog .info none, .initOnce]]
    let before := start.play
      ([1, 1, 1] ++ [0, 0, 0] ++ List.replicate 10 1 ++ List.replicate 4 0)
    let pool := start.play
      ([1, 1, 1] ++ [0, 0, 0] ++ List.replicate 10 1 ++ List.replicate 4 0 ++
        [1, 1, 1, 1])
    pool.SettledSince before ∧
      ∃ command ∈ pool.begun,
        .setsLevel (pool.world.get .minLevel) ∈ command.roles := by
  intro host environment start before pool
  have calm : environment.NeverPanics :=
    Environment.neverPanics_constant fun _ => rfl
  have sets : (before.returned.any fun command =>
      command.role.claimsLevel) = true := by
    decide +kernel
  obtain ⟨command, returned, claims⟩ := List.any_eq_true.mp sets
  have level : ∃ level, command.role = .setsLevel level := by
    cases role : command.role with
    | setsLevel level =>
        exact ⟨level, rfl⟩
    | peripheral | initialises | changesModules =>
        rw [role] at claims
        cases claims
  obtain ⟨level, role⟩ := level
  rw [Command.role_eq_setsLevel role] at returned
  exact (explicit_settings_win (Surroundings.start host environment) calm
    [[.setMinLevel .error], [.wouldLog .info none, .initOnce]] _ _).2.1
      (.inl ⟨level, returned⟩)

end LeveledLog
