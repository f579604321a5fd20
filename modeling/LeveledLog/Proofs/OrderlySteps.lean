/-
What the steps of orderly calls keep.

The configuration lock is held by the thread that uses it, and what that thread
has read under it is the module table.  At most one thread applies the defaults
of the environment, and only while they count as being applied.  Every move of
an orderly call keeps this, stores a level after the defaults have been applied
only if the call sets it, and asks for no variable after that.
-/

import LeveledLog.Proofs.Answers
import LeveledLog.Proofs.Ordering
import LeveledLog.Proofs.Regime

namespace LeveledLog

/-! ### The configuration lock and the module table -/

/-- The lock is held by the thread that uses it, and what that thread has read
under it is the table. -/
structure LockAccord (world : World) (standings : Nat → Standing) : Prop where
  holder : HeldBy world.configLock.holder
    (fun standing => standing.config ≠ .free) standings
  table : ∀ thread table, (standings thread).config = .read table →
    world.get .modules = table

namespace LockAccord

variable {world after : World} {standings : Nat → Standing}
variable {thread : Nat} {later : Standing}

theorem keep (accord : LockAccord world standings)
    (holder : after.configLock.holder = world.configLock.holder)
    (modules : after.get .modules = world.get .modules)
    (same : later.config = (standings thread).config) :
    LockAccord after (Function.update standings thread later) where
  holder := by
    rw [holder]
    exact accord.holder.keep (by rw [same])
  table other table read := by
    rw [modules]
    apply accord.table other
    by_cases this : other = thread
    · subst this
      rw [Function.update_self, same] at read
      exact read
    · rw [Function.update_of_ne this] at read
      exact read

private theorem read_update {other : Nat} {table : ModuleTable}
    (idle : other ≠ thread → ¬ (standings other).config ≠ .free)
    (read : (Function.update standings thread later other).config =
      .read table) :
    later.config = .read table := by
  by_cases this : other = thread
  · subst this
    rw [Function.update_self] at read
    exact read
  · rw [Function.update_of_ne this] at read
    have busy : (standings other).config ≠ .free := by
      rw [read]
      intro impossible
      cases impossible
    exact absurd busy (idle this)

private theorem use (accord : LockAccord world standings)
    (busy : (standings thread).config ≠ .free)
    (holder : after.configLock.holder = world.configLock.holder)
    (busyAfter : later.config ≠ .free)
    (table : ∀ table, later.config = .read table →
      after.get .modules = table) :
    LockAccord after (Function.update standings thread later) where
  holder := by
    rw [holder]
    exact accord.holder.keep ⟨fun _ => busy, fun _ => busyAfter⟩
  table _ found read :=
    table found (read_update (fun different =>
      accord.holder.only busy different) read)

private theorem acquire (accord : LockAccord world standings)
    (free : world.configLock.holder = none)
    (holder : after.configLock.holder = some thread)
    (held : later.config = .held) :
    LockAccord after (Function.update standings thread later) := by
  have before := accord.holder
  rw [free] at before
  constructor
  · rw [holder]
    apply before.take
    rw [held]
    intro impossible
    cases impossible
  · intro other table read
    have reads := read_update (fun _ => before.nobody other) read
    rw [held] at reads
    cases reads

private theorem release (accord : LockAccord world standings)
    (busy : (standings thread).config ≠ .free)
    (holder : after.configLock.holder = none)
    (free : later.config = .free) :
    LockAccord after (Function.update standings thread later) := by
  constructor
  · rw [holder]
    exact accord.holder.giveUp busy (fun held => held free)
  · intro other table read
    have reads := read_update (fun different =>
      accord.holder.only busy different) read
    rw [free] at reads
    cases reads

end LockAccord

/-! ### Applying the defaults -/

/-- At most one thread applies the defaults, and what has been asked for is
what that thread has asked for. -/
structure DefaultsAccord (earlier : List Variable) (world : World)
    (standings : Nat → Standing) : Prop where
  applying : ∀ thread asked, (standings thread).progress = .applying asked →
    world.initialisation = .running ∧
      world.surroundings.lookups = earlier ++ asked
  only : ∀ thread other asked askedToo,
    (standings thread).progress = .applying asked →
    (standings other).progress = .applying askedToo → thread = other
  ready : ∀ thread, (standings thread).progress = .ready →
    world.initialisation = .complete
  pending : world.initialisation = .pending →
    world.surroundings.lookups = earlier
  once : ∃ asked, asked.Nodup ∧
    world.surroundings.lookups = earlier ++ asked
  calm : world.surroundings.environment.NeverPanics

structure World.SameDefaults (before after : World) : Prop where
  initialisation : after.initialisation = before.initialisation
  lookups : after.surroundings.lookups = before.surroundings.lookups
  environment :
    after.surroundings.environment = before.surroundings.environment

namespace DefaultsAccord

variable {earlier : List Variable} {world after : World}
variable {standings : Nat → Standing} {thread : Nat} {later : Standing}

private theorem progress_update
    (same : later.progress = (standings thread).progress) (other : Nat) :
    (Function.update standings thread later other).progress =
      (standings other).progress := by
  by_cases this : other = thread
  · subst this
    rw [Function.update_self]
    exact same
  · rw [Function.update_of_ne this]

private theorem keep (accord : DefaultsAccord earlier world standings)
    (same : world.SameDefaults after)
    (progress : later.progress = (standings thread).progress) :
    DefaultsAccord earlier after (Function.update standings thread later) where
  applying other asked stands := by
    rw [progress_update progress] at stands
    rw [same.initialisation, same.lookups]
    exact accord.applying other asked stands
  only other another asked askedToo stands standsToo := by
    rw [progress_update progress] at stands standsToo
    exact accord.only other another asked askedToo stands standsToo
  ready other stands := by
    rw [progress_update progress] at stands
    rw [same.initialisation]
    exact accord.ready other stands
  pending state := by
    rw [same.initialisation] at state
    rw [same.lookups]
    exact accord.pending state
  once := by
    rw [same.lookups]
    exact accord.once
  calm := by
    rw [same.environment]
    exact accord.calm

private theorem inform (accord : DefaultsAccord earlier world standings)
    (complete : after.initialisation = .complete)
    (lookups : after.surroundings.lookups = world.surroundings.lookups)
    (environment : after.surroundings.environment =
      world.surroundings.environment)
    (others : ∀ other asked, other ≠ thread →
      (standings other).progress ≠ .applying asked)
    (progress : later.progress = .ready) :
    DefaultsAccord earlier after (Function.update standings thread later) := by
  have nobody : ∀ other asked,
      (Function.update standings thread later other).progress ≠
        .applying asked := by
    intro other asked
    by_cases this : other = thread
    · subst this
      rw [Function.update_self, progress]
      intro impossible
      cases impossible
    · rw [Function.update_of_ne this]
      exact others other asked this
  constructor
  · intro other asked stands
    exact absurd stands (nobody other asked)
  · intro other another asked _ stands
    exact absurd stands (nobody other asked)
  · intro _ _
    exact complete
  · intro state
    rw [complete] at state
    cases state
  · rw [lookups]
    exact accord.once
  · rw [environment]
    exact accord.calm

private theorem apply (accord : DefaultsAccord earlier world standings)
    {asked : List Variable} (running : after.initialisation = .running)
    (lookups : after.surroundings.lookups = earlier ++ asked)
    (different : asked.Nodup)
    (calm : after.surroundings.environment.NeverPanics)
    (others : ∀ other asked, other ≠ thread →
      (standings other).progress ≠ .applying asked)
    (incomplete : world.initialisation ≠ .complete)
    (progress : later.progress = .applying asked) :
    DefaultsAccord earlier after (Function.update standings thread later) := by
  have self : ∀ other askedToo,
      (Function.update standings thread later other).progress =
        .applying askedToo → other = thread ∧ askedToo = asked := by
    intro other askedToo stands
    by_cases this : other = thread
    · subst this
      rw [Function.update_self, progress] at stands
      cases stands
      exact ⟨rfl, rfl⟩
    · rw [Function.update_of_ne this] at stands
      exact absurd stands (others other askedToo this)
  refine ⟨?_, ?_, ?_, ?_, ⟨asked, different, lookups⟩, calm⟩
  · intro other askedToo stands
    rw [(self other askedToo stands).2]
    exact ⟨running, lookups⟩
  · intro other another _ _ stands standsToo
    rw [(self other _ stands).1, (self another _ standsToo).1]
  · intro other stands
    by_cases this : other = thread
    · subst this
      rw [Function.update_self, progress] at stands
      cases stands
    · rw [Function.update_of_ne this] at stands
      exact absurd (accord.ready other stands) incomplete
  · intro state
    rw [running] at state
    cases state

theorem forget (accord : DefaultsAccord earlier world standings)
    (unknown : later.progress = .unknown) :
    DefaultsAccord earlier world (Function.update standings thread later) := by
  have before : ∀ other, later.progress ≠
      (Function.update standings thread later other).progress →
      (Function.update standings thread later other).progress =
        (standings other).progress := by
    intro other different
    by_cases this : other = thread
    · subst this
      rw [Function.update_self] at different
      exact absurd rfl different
    · rw [Function.update_of_ne this]
  have known (other : Nat) {progress : Progress}
      (stands : (Function.update standings thread later other).progress =
        progress) (notUnknown : progress ≠ .unknown) :
      (standings other).progress = progress := by
    rw [← before other (by rw [unknown, stands]; exact Ne.symm notUnknown)]
    exact stands
  refine ⟨?_, ?_, ?_, accord.pending, accord.once, accord.calm⟩
  · intro other asked stands
    exact accord.applying other asked
      (known other stands fun impossible => by cases impossible)
  · intro other another asked askedToo stands standsToo
    exact accord.only other another asked askedToo
      (known other stands fun impossible => by cases impossible)
      (known another standsToo fun impossible => by cases impossible)
  · intro other stands
    exact accord.ready other
      (known other stands fun impossible => by cases impossible)

private theorem nobody (accord : DefaultsAccord earlier world standings)
    (still : world.initialisation ≠ .running) (other : Nat)
    (asked : List Variable) : (standings other).progress ≠ .applying asked :=
  fun stands => still (accord.applying other asked stands).1

private theorem others (accord : DefaultsAccord earlier world standings)
    {asked : List Variable}
    (stands : (standings thread).progress = .applying asked) (other : Nat)
    (askedToo : List Variable) (different : other ≠ thread) :
    (standings other).progress ≠ .applying askedToo :=
  fun standsToo =>
    different (accord.only thread other asked askedToo stands standsToo).symm

theorem incomplete (accord : DefaultsAccord earlier world standings)
    {asked : List Variable}
    (stands : (standings thread).progress = .applying asked) :
    world.initialisation ≠ .complete := by
  rw [(accord.applying thread asked stands).1]
  intro impossible
  cases impossible

private theorem nodup (accord : DefaultsAccord earlier world standings)
    {asked : List Variable}
    (stands : (standings thread).progress = .applying asked) :
    asked.Nodup := by
  obtain ⟨all, different, same⟩ := accord.once
  rw [(accord.applying thread asked stands).2,
    List.append_cancel_left_eq] at same
  rw [same]
  exact different

theorem ask (accord : DefaultsAccord earlier world standings)
    {asked : List Variable}
    (stands : (standings thread).progress = .applying asked)
    {about : Variable} (first : about ∉ asked)
    (progress : later.progress = .applying (asked ++ [about])) :
    DefaultsAccord earlier
      { world with surroundings := (world.surroundings.lookup about).2 }
      (Function.update standings thread later) := by
  obtain ⟨running, lookups⟩ := accord.applying thread asked stands
  refine accord.apply running ?_ ?_ (accord.calm.lookup about)
    (accord.others stands) (accord.incomplete stands) progress
  · change world.surroundings.lookups ++ [about] = _
    rw [lookups, List.append_assoc]
  · rw [List.nodup_append]
    refine ⟨accord.nodup stands, List.nodup_singleton about, ?_⟩
    intro other member last equal
    rw [List.mem_singleton.mp equal]
    intro again
    rw [again] at member
    exact first member

end DefaultsAccord

/-! ### What a step of an orderly call does -/

structure Orderly (earlier : List Variable) (world : World)
    (standings : Nat → Standing) (thread : Nat) (action : Action)
    (after : World) (later : Standing) : Prop where
  lock : LockAccord after (Function.update standings thread later)
  defaults : DefaultsAccord earlier after
    (Function.update standings thread later)
  command : later.command = (standings thread).command
  wrote : later.wrote = true → (standings thread).wrote = true ∨
    world.initialisation = .complete ∧
      ∃ level, action = .store .minLevel level
  stays : world.initialisation = .complete →
    after.initialisation = .complete ∧
      after.surroundings.lookups = world.surroundings.lookups
  level : world.initialisation = .complete →
    after.get .minLevel = world.get .minLevel ∧
        (∀ level, action ≠ .store .minLevel level) ∨
      ∃ command, (standings thread).command = some command ∧
        .setsLevel (after.get .minLevel) ∈ command.roles

structure World.Untouched (before after : World) : Prop where
  defaults : before.SameDefaults after
  holder : after.configLock.holder = before.configLock.holder
  modules : after.get .modules = before.get .modules
  minLevel : after.get .minLevel = before.get .minLevel

namespace Orderly

variable {earlier : List Variable} {world after : World}
variable {standings : Nat → Standing} {thread : Nat} {action : Action}

private theorem untouched (lock : LockAccord world standings)
    (defaults : DefaultsAccord earlier world standings)
    (same : world.Untouched after)
    (other : ∀ level, action ≠ .store .minLevel level) :
    Orderly earlier world standings thread action after
      (standings thread) where
  lock := lock.keep same.holder same.modules rfl
  defaults := defaults.keep same.defaults rfl
  command := rfl
  wrote := .inl
  stays complete :=
    ⟨same.defaults.initialisation.trans complete, same.defaults.lookups⟩
  level _ := .inl ⟨same.minLevel, other⟩

private theorem locked {config : ConfigUse}
    (lock : LockAccord after
      (Function.update standings thread
        ((standings thread).withConfig config)))
    (defaults : DefaultsAccord earlier world standings)
    (same : world.SameDefaults after)
    (minLevel : after.get .minLevel = world.get .minLevel)
    (other : ∀ level, action ≠ .store .minLevel level) :
    Orderly earlier world standings thread action after
      ((standings thread).withConfig config) where
  lock := lock
  defaults := defaults.keep same rfl
  command := rfl
  wrote := .inl
  stays complete :=
    ⟨same.initialisation.trans complete, same.lookups⟩
  level _ := .inl ⟨minLevel, other⟩

private theorem progressed {progress : Progress}
    (lock : LockAccord world standings)
    (defaults : DefaultsAccord earlier after
      (Function.update standings thread
        ((standings thread).withProgress progress)))
    (settings : after.settings = world.settings)
    (holder : after.configLock.holder = world.configLock.holder)
    (stays : world.initialisation = .complete →
      after.initialisation = .complete ∧
        after.surroundings.lookups = world.surroundings.lookups)
    (other : ∀ level, action ≠ .store .minLevel level) :
    Orderly earlier world standings thread action after
      ((standings thread).withProgress progress) where
  lock := by
    refine lock.keep holder ?_ rfl
    unfold World.get
    rw [settings]
  defaults := defaults
  command := rfl
  wrote := .inl
  stays := stays
  level _ := by
    refine .inl ⟨?_, other⟩
    unfold World.get
    rw [settings]

private theorem storesTable (lock : LockAccord world standings)
    (defaults : DefaultsAccord earlier world standings)
    {seen : ModuleTable} (read : (standings thread).config = .read seen)
    (table : ModuleTable) :
    Orderly earlier world standings thread (.store .modules table)
      (world.set .modules table) ((standings thread).withConfig .held) := by
  refine .locked ?_ defaults ⟨rfl, rfl, rfl⟩ rfl ?_
  · refine lock.use ?_ rfl ?_ ?_
    · rw [read]
      intro impossible
      cases impossible
    · intro impossible
      cases impossible
    · intro _ impossible
      cases impossible
  · intro level impossible
    cases impossible

private theorem starts (lock : LockAccord world standings)
    (defaults : DefaultsAccord earlier world standings)
    (pending : world.initialisation = .pending) :
    Orderly earlier world standings thread .beginInitialisation
      { world with initialisation := .running }
      ((standings thread).withProgress (.applying [])) := by
  have still : world.initialisation ≠ .running := by
    rw [pending]
    intro impossible
    cases impossible
  have incomplete : world.initialisation ≠ .complete := by
    rw [pending]
    intro impossible
    cases impossible
  refine .progressed lock ?_ rfl rfl
    (fun complete => absurd complete incomplete) ?_
  · refine defaults.apply rfl ?_ List.nodup_nil defaults.calm
      (fun other asked _ => defaults.nobody still other asked) incomplete rfl
    rw [List.append_nil]
    exact defaults.pending pending
  · intro level impossible
    cases impossible

private theorem passes (lock : LockAccord world standings)
    (defaults : DefaultsAccord earlier world standings)
    (complete : world.initialisation = .complete) :
    Orderly earlier world standings thread .beginInitialisation world
      ((standings thread).withProgress .ready) := by
  have still : world.initialisation ≠ .running := by
    rw [complete]
    intro impossible
    cases impossible
  refine .progressed lock ?_ rfl rfl (fun same => ⟨same, rfl⟩) ?_
  · exact defaults.inform complete rfl rfl
      (fun other asked _ => defaults.nobody still other asked) rfl
  · intro level impossible
    cases impossible

end Orderly

private theorem World.untouched_refl (world : World) : world.Untouched world :=
  ⟨⟨rfl, rfl, rfl⟩, rfl, rfl, rfl⟩

private theorem World.untouched_set (world : World) {cell : Cell}
    (value : cell.Value) (notLevel : cell ≠ .minLevel)
    (notModules : cell ≠ .modules) :
    world.Untouched (world.set cell value) :=
  ⟨⟨rfl, rfl, rfl⟩, rfl, get_set_of_ne _ _ (Ne.symm notModules),
    get_set_of_ne _ _ (Ne.symm notLevel)⟩

private theorem Action.external_untouched {action : Action}
    (outside : action.isExternal = true) {thread : Nat} {world : World}
    {performed : Performed action.Result}
    (performs : action.perform thread world = some performed) :
    world.Untouched performed.world := by
  obtain ⟨same, performsToo, settings, configLock, _, initialisation,
    environment, lookups⟩ := perform_external outside thread world
  rw [performs] at performsToo
  cases performsToo
  refine ⟨⟨initialisation, lookups, environment⟩, ?_, ?_, ?_⟩
  · rw [configLock]
  · simp only [World.get, settings]
  · simp only [World.get, settings]

theorem Standing.command_of_roles {standing : Standing} {role : Role}
    (played : role ∈ standing.roles) :
    ∃ command, standing.command = some command ∧ role ∈ command.roles := by
  unfold Standing.roles at played
  cases stands : standing.command with
  | none =>
      rw [stands] at played
      cases played
  | some command =>
      rw [stands] at played
      exact ⟨command, rfl, played⟩

theorem OrderedMove.orderly {earlier : List Variable} {world after : World}
    {standings : Nat → Standing} {thread : Nat} {action : Action}
    {result : action.Result} {accepted : List Delivery} {later : Standing}
    (move : OrderedMove (standings thread) action result later)
    (lock : LockAccord world standings)
    (defaults : DefaultsAccord earlier world standings)
    (performs : action.perform thread world =
      some { result := result, world := after, accepted := accepted }) :
    Orderly earlier world standings thread action after later := by
  -- Only two moves store a level: `storeDefault`, while the defaults are
  -- applied, and `storeLevel`, by the call that sets it.
  cases move with
  | load cell =>
      cases performs
      refine .untouched lock defaults world.untouched_refl ?_
      intro level impossible
      cases impossible
  | loadTable table held =>
      cases performs
      refine .locked ?_ defaults ⟨rfl, rfl, rfl⟩ rfl ?_
      · refine lock.use ?_ rfl ?_ ?_
        · rw [held]
          intro impossible
          cases impossible
        · intro impossible
          cases impossible
        · intro table same
          cases same
          rfl
      · intro level impossible
        cases impossible
  | store cell value notLevel notModules =>
      cases performs
      refine .untouched lock defaults
        (world.untouched_set value notLevel notModules) ?_
      intro level same
      cases same
      exact notLevel rfl
  | storeDefault level asked applying =>
      cases performs
      have incomplete := defaults.incomplete applying
      exact
        { lock := lock.keep rfl rfl rfl
          defaults := defaults.keep ⟨rfl, rfl, rfl⟩ rfl
          command := rfl
          wrote := .inl
          stays := fun complete => absurd complete incomplete
          level := fun complete => absurd complete incomplete }
  | storeLevel level ready played =>
      cases performs
      have complete := defaults.ready thread ready
      exact
        { lock := lock.keep rfl rfl rfl
          defaults := defaults.keep ⟨rfl, rfl, rfl⟩ rfl
          command := rfl
          wrote := fun _ => .inr ⟨complete, level, rfl⟩
          stays := fun _ => ⟨complete, rfl⟩
          level := fun _ => .inr (Standing.command_of_roles played) }
  | storeNames _ _ _ _ read | storeTable _ _ _ read =>
      cases performs
      exact .storesTable lock defaults read _
  | acquire free =>
      obtain ⟨unheld, same⟩ := Action.perform_acquire_eq performs
      cases same
      refine .locked ?_ defaults ⟨rfl, rfl, rfl⟩ rfl ?_
      · exact lock.acquire unheld rfl rfl
      · intro level impossible
        cases impossible
  | release panicked busy =>
      cases performs
      refine .locked ?_ defaults ⟨rfl, rfl, rfl⟩ rfl ?_
      · exact lock.release busy rfl rfl
      · intro level impossible
        cases impossible
  | acquireOutput =>
      obtain ⟨_, same⟩ := Action.perform_acquire_eq performs
      cases same
      refine .untouched lock defaults ⟨⟨rfl, rfl, rfl⟩, rfl, rfl, rfl⟩ ?_
      intro level impossible
      cases impossible
  | releaseOutput panicked =>
      cases performs
      refine .untouched lock defaults ⟨⟨rfl, rfl, rfl⟩, rfl, rfl, rfl⟩ ?_
      intro level impossible
      cases impossible
  | start unknown =>
      rcases Action.perform_begin_eq performs with
        ⟨pending, same⟩ | ⟨_, impossible⟩
      · cases same
        exact .starts lock defaults pending
      · cases impossible
  | pass idle =>
      rcases Action.perform_begin_eq performs with
        ⟨_, impossible⟩ | ⟨complete, same⟩
      · cases impossible
      · cases same
        exact .passes lock defaults complete
  | finish asked applying =>
      cases performs
      refine .progressed lock ?_ rfl rfl (fun _ => ⟨rfl, rfl⟩) ?_
      · exact defaults.inform rfl rfl rfl (defaults.others applying) rfl
      · intro level impossible
        cases impossible
  | lookup about reading asked applying first =>
      cases performs
      have incomplete := defaults.incomplete applying
      refine .progressed lock (defaults.ask applying first rfl) rfl rfl
        (fun complete => absurd complete incomplete) ?_
      intro level impossible
      cases impossible
  | external action result outside =>
      refine .untouched lock defaults
        (Action.external_untouched outside performs) ?_
      intro level same
      subst same
      cases outside

end LeveledLog
