/-
The steps of threads that change the module table and look names up in it.

Threads start on an initialised logger, make no other calls, and take their
steps in any order.  Whatever step is taken next, it keeps what is said about
the table, its mirror and every thread; no call panics; and as long as some
thread has anything left to do, some thread can take a step.
-/

import LeveledLog.Proofs.Reachable
import LeveledLog.Proofs.TableLedger

namespace LeveledLog

/-- An initialised logger while no call changes its module table. -/
structure World.Initialised (world : World) : Prop where
  complete : world.initialisation = .complete
  free : world.configLock.holder = none
  mirror : world.get .filterActive = (world.get .modules).isActive

theorem World.Reachable.initialised {world : World}
    (reachable : world.Reachable)
    (complete : world.initialisation = .complete) : world.Initialised :=
  ⟨complete, reachable.atRest.configFree, reachable.mirror⟩

/-! ### Every step -/

/-- What holds of the table, its mirror and all threads along a schedule. -/
structure TableAccord (start : Pool) (path : List Nat) (pool : Pool)
    (turns : Nat → TableTurn) : Prop where
  played : pool = start.play path
  calm : pool.panicked = false
  mirror : MirrorAccord (start.world.get .modules) pool turns
  threads : ∀ thread, TurnAccord start path pool thread (turns thread)

namespace TableAccord

variable {start : Pool} {path : List Nat} {pool : Pool}
variable {turns : Nat → TableTurn} {thread : Nat} {world : World}
variable {state : ThreadState} {deed : Deed} {later : TableTurn}
variable {pending : List Command}

private theorem idles (accord : TableAccord start path pool turns)
    (idle : pool.step thread = pool) :
    TableAccord start (path ++ [thread]) pool turns :=
  { accord with
    played := Pool.play_snoc accord.played idle
    threads := fun other => (accord.threads other).extend [thread] }

private theorem note (accord : TableAccord start path pool turns)
    (steps : pool.step thread = pool.note thread world state deed)
    (calm : deed.panics = false)
    (mirror : MirrorAccord (start.world.get .modules)
      (pool.note thread world state deed)
      (Function.update turns thread later))
    (own : TurnAccord start (path ++ [thread])
      (pool.note thread world state deed) thread later) :
    TableAccord start (path ++ [thread]) (pool.note thread world state deed)
      (Function.update turns thread later) where
  played := Pool.play_snoc accord.played steps
  calm := by
    rw [Pool.panicked_note, calm]
    exact accord.calm
  mirror := mirror
  threads := by
    intro other
    by_cases same : other = thread
    · subst same
      rw [Function.update_self]
      exact own
    · rw [Function.update_of_ne same]
      exact (accord.threads other).meanwhile same deed

private theorem begins (accord : TableAccord start path pool turns)
    {command : Command}
    (present : pool.threads[thread]? =
      some { current := none, pending := command :: pending })
    (rests : (turns thread).Resting) :
    TableAccord start (path ++ [thread])
      (pool.note thread pool.world
        { current := some command.script, pending := pending }
        (.began command))
      (Function.update turns thread
        (.starting (turns thread).ended command)) := by
  have free : (turns thread).stage.holds = false := by
    rw [rests.stage]
    rfl
  refine accord.note (Pool.step_of_begin present) rfl ?_
    ((accord.threads thread).begins rests command)
  refine accord.mirror.quiet rfl rfl rfl rfl accord.mirror.complete
    (accord.mirror.holder.keep ?_) ?_ ?_ rfl
  · rw [free]
    exact Iff.rfl
  · intro _ impossible
    cases impossible
  · rw [rests.stage]
    rfl

private theorem returns (accord : TableAccord start path pool turns)
    {value : Value} (present : pool.threads[thread]? =
      some { current := some (.done value), pending := pending })
    (ends : (turns thread).Ends value) :
    ∃ later : TableTurn, later.Resting ∧
      TableAccord start (path ++ [thread])
        (pool.note thread pool.world { current := none, pending := pending }
          (.returned value))
        (Function.update turns thread later) := by
  obtain ⟨command, _, own⟩ := (accord.threads thread).returns ends
  refine ⟨_, ⟨rfl, rfl⟩,
    accord.note (Pool.step_of_return present) rfl ?_ own⟩
  refine accord.mirror.quiet rfl rfl rfl rfl accord.mirror.complete
    (accord.mirror.holder.keep ?_) ?_ ?_ rfl
  · rw [ends.free]
    exact Iff.rfl
  · intro _ impossible
    cases impossible
  · cases behind : (turns thread).stage.behind with
    | false =>
        rfl
    | true =>
        have holds := TableStage.holds_of_behind behind
        rw [ends.free] at holds
        cases holds

private theorem sees (accord : TableAccord start path pool turns)
    {name : String} {answer : Bool} (looks : (turns thread).LooksUp name)
    (allows : ((start.world.get .modules).after
      pool.mirroredChanges).allows name = answer) :
    start.Sees (path ++ [thread])
      { thread := thread, number := (turns thread).ended.length } name
      answer := by
  have own := accord.threads thread
  refine ⟨path, List.prefix_append path [thread], ?_, ?_, ?_⟩
  · rw [← accord.played, Pool.Begun, own.begun, looks, List.length_append]
    exact Nat.lt_succ_self _
  · rw [← accord.played, Pool.Returned, own.answers]
    exact Nat.lt_irrefl _
  · rw [← accord.played]
    exact allows

section Performs

variable {action : Action} {next : action.Result → Script Value}
variable {performed : Performed action.Result}
variable (accord : TableAccord start path pool turns)
variable (present : pool.threads[thread]? =
  some { current := some (.step action next), pending := pending })
variable (performs : action.perform thread pool.world = some performed)
variable (noTable : Event.stores
  { thread := thread
    deed := .performed action performed.accepted } .modules = false)
variable (noMirror : Event.stores
  { thread := thread
    deed := .performed action performed.accepted } .filterActive = false)
variable (same : performed.world.get .modules = pool.world.get .modules ∧
  performed.world.get .filterActive = pool.world.get .filterActive ∧
  performed.world.initialisation = pool.world.initialisation)
include accord present performs noTable noMirror same

private theorem quiet {stage : TableStage}
    (holder : HeldBy performed.world.configLock.holder
      (fun turn : TableTurn => turn.stage.holds = true)
      (Function.update turns thread ((turns thread).withStage stage)))
    (wrote : stage.wrote = (turns thread).stage.wrote)
    (level : stage.behind = false ∧ (turns thread).stage.behind = false)
    (knows : ∀ table, stage.table? = some table →
      pool.world.get .modules = table)
    (seen : ∀ name answer, (turns thread).LooksUp name →
      stage.answer? = some answer →
      start.Sees (path ++ [thread])
        { thread := thread, number := (turns thread).ended.length } name
        answer) :
    TableAccord start (path ++ [thread])
      (pool.note thread performed.world
        { current := some (next performed.result), pending := pending }
        (.performed action performed.accepted))
      (Function.update turns thread ((turns thread).withStage stage)) :=
  accord.note (Pool.step_of_perform present performs) rfl
    (accord.mirror.quiet noTable noMirror same.1 same.2.1
      (same.2.2.trans accord.mirror.complete) holder knows level.2 level.1)
    ((accord.threads thread).moves present noTable wrote seen)

private theorem starting
    (lock : performed.world.configLock = pool.world.configLock)
    (starting : (turns thread).stage = .starting) :
    TableAccord start (path ++ [thread])
      (pool.note thread performed.world
        { current := some (next performed.result), pending := pending }
        (.performed action performed.accepted))
      (Function.update turns thread (turns thread)) := by
  have unchanged : (turns thread).withStage .starting = turns thread := by
    rw [← starting]
    rfl
  rw [← unchanged]
  refine accord.quiet present performs noTable noMirror same ?_ ?_ ?_ ?_ ?_
  · rw [lock, unchanged]
    exact accord.mirror.holder.keep Iff.rfl
  · rw [starting]
  · rw [starting]
    exact ⟨rfl, rfl⟩
  · intro _ impossible
    cases impossible
  · intro _ _ _ impossible
    cases impossible

end Performs

private theorem loads (accord : TableAccord start path pool turns) {cell : Cell}
    {next : cell.Value → Script Value} {performed : Performed cell.Value}
    (present : pool.threads[thread]? =
      some { current := some (.step (.load cell) next), pending := pending })
    (performs : (Action.load cell).perform thread pool.world =
      some performed)
    {before stage : TableStage} (stood : (turns thread).stage = before)
    (holds : stage.holds = before.holds)
    (wrote : stage.wrote = before.wrote)
    (level : stage.behind = false ∧ before.behind = false)
    (knows : ∀ table, stage.table? = some table →
      pool.world.get .modules = table)
    (seen : ∀ name answer, (turns thread).LooksUp name →
      stage.answer? = some answer →
      ((start.world.get .modules).after
        pool.mirroredChanges).allows name = answer) :
    TableAccord start (path ++ [thread])
      (pool.note thread performed.world
        { current := some (next performed.result), pending := pending }
        (.performed (.load cell) performed.accepted))
      (Function.update turns thread ((turns thread).withStage stage)) := by
  subst stood
  have same := Option.some.inj performs
  subst same
  refine accord.quiet present rfl rfl rfl ⟨rfl, rfl, rfl⟩
    (accord.mirror.holder.keep ?_) wrote level knows ?_
  · change stage.holds = true ↔ _
    rw [holds]
  · intro name answer looks found
    exact accord.sees looks (seen name answer looks found)

section Locks

variable {next : Unit → Script Value}

private theorem acquires (accord : TableAccord start path pool turns)
    {performed : Performed Unit}
    (present : pool.threads[thread]? =
      some { current := some (.step (.acquire .config) next)
             pending := pending })
    (performs : Action.perform thread pool.world (.acquire .config) =
      some performed)
    {before stage : TableStage} (stood : (turns thread).stage = before)
    (takes : stage.holds = true) (wrote : stage.wrote = before.wrote)
    (level : stage.behind = false ∧ before.behind = false)
    (knows : stage.table? = none) (unanswered : stage.answer? = none) :
    TableAccord start (path ++ [thread])
      (pool.note thread performed.world
        { current := some (next performed.result), pending := pending }
        (.performed (.acquire .config) performed.accepted))
      (Function.update turns thread ((turns thread).withStage stage)) := by
  subst stood
  obtain ⟨unheld, same⟩ := Action.perform_acquire_eq performs
  have holder := accord.mirror.holder
  rw [show pool.world.configLock.holder = none from unheld] at holder
  subst same
  refine accord.quiet present performs rfl rfl ⟨rfl, rfl, rfl⟩
    (holder.take takes) wrote level ?_ ?_
  · intro table impossible
    rw [knows] at impossible
    cases impossible
  · intro name answer _ impossible
    rw [unanswered] at impossible
    cases impossible

private theorem releases (accord : TableAccord start path pool turns)
    {performed : Performed Unit}
    (present : pool.threads[thread]? =
      some { current := some (.step (.release .config false) next)
             pending := pending })
    (performs : Action.perform thread pool.world (.release .config false) =
      some performed)
    {before stage : TableStage} (stood : (turns thread).stage = before)
    (held : before.holds = true) (gives : stage.holds = false)
    (wrote : stage.wrote = before.wrote)
    (level : stage.behind = false ∧ before.behind = false)
    (knows : stage.table? = none) (same : stage.answer? = before.answer?) :
    TableAccord start (path ++ [thread])
      (pool.note thread performed.world
        { current := some (next performed.result), pending := pending }
        (.performed (.release .config false) performed.accepted))
      (Function.update turns thread ((turns thread).withStage stage)) := by
  subst stood
  cases performs
  refine accord.quiet present rfl rfl rfl ⟨rfl, rfl, rfl⟩
    (accord.mirror.holder.giveUp held ?_) wrote level ?_ ?_
  · change stage.holds ≠ true
    rw [gives]
    exact Bool.false_ne_true
  · intro table impossible
    rw [knows] at impossible
    cases impossible
  · intro name answer looks found
    rw [same] at found
    exact ((accord.threads thread).seen name answer looks found).extend
      [thread]

end Locks

theorem performs (accord : TableAccord start path pool turns)
    {action : Action} {next : action.Result → Script Value}
    {performed : Performed action.Result}
    (present : pool.threads[thread]? =
      some { current := some (.step action next), pending := pending })
    (performs : action.perform thread pool.world = some performed)
    (move : TableMove (turns thread) action performed.result later) :
    TableAccord start (path ++ [thread])
      (pool.note thread performed.world
        { current := some (next performed.result), pending := pending }
        (.performed action performed.accepted))
      (Function.update turns thread later) := by
  obtain ⟨result, after, accepted⟩ := performed
  have own := accord.threads thread
  cases move with
  | claim starting =>
      cases performs
      exact accord.starting present rfl rfl rfl ⟨rfl, rfl, rfl⟩ rfl starting
  | pass starting =>
      have passes :=
        Action.perform_begin_of_complete accord.mirror.complete thread
      rw [passes] at performs
      cases performs
      exact accord.starting present passes rfl rfl ⟨rfl, rfl, rfl⟩ rfl
        starting
  | lock change changes starting =>
      exact accord.acquires present performs starting rfl rfl ⟨rfl, rfl⟩ rfl
        rfl
  | read _ locked =>
      have read := congrArg Performed.result (Option.some.inj performs)
      refine accord.loads present performs locked rfl rfl ⟨rfl, rfl⟩ ?_ ?_
      · intro known same
        exact read.trans (Option.some.inj same)
      · intro _ _ _ impossible
        cases impossible
  | store table change changes read =>
      cases performs
      exact accord.note (Pool.step_of_perform present rfl) rfl
        (accord.mirror.stores changes read own.begun _)
        (own.stores present changes (by rw [read]; rfl) _ _)
  | mirror table stored =>
      cases performs
      exact accord.note (Pool.step_of_perform present rfl) rfl
        (accord.mirror.shows stored _)
        (own.moves present rfl (by rw [stored]; rfl)
          fun _ _ _ impossible => by cases impossible)
  | unlock shown =>
      exact accord.releases present performs shown rfl rfl rfl ⟨rfl, rfl⟩ rfl
        rfl
  | seeNone name looks starting =>
      have inactive := congrArg Performed.result (Option.some.inj performs)
      refine accord.loads present performs starting rfl rfl ⟨rfl, rfl⟩ ?_ ?_
      · intro _ impossible
        cases impossible
      · intro name _ _ same
        rw [← Option.some.inj same]
        exact accord.mirror.allows_of_inactive inactive name
  | seeSome name looks starting =>
      refine accord.loads present performs starting rfl rfl ⟨rfl, rfl⟩ ?_ ?_
      · intro _ impossible
        cases impossible
      · intro _ _ _ impossible
        cases impossible
  | enter active =>
      exact accord.acquires present performs active rfl rfl ⟨rfl, rfl⟩ rfl rfl
  | find name _ looks entered =>
      have read := congrArg Performed.result (Option.some.inj performs)
      refine accord.loads present performs entered rfl rfl ⟨rfl, rfl⟩ ?_ ?_
      · intro _ impossible
        cases impossible
      · intro other answer looksToo same
        have table := accord.mirror.mirrored_table (by rw [entered]; rfl)
          (by rw [entered]; rfl)
        have sameName := looks.symm.trans looksToo
        cases sameName
        rw [table, show pool.world.get .modules = result from read]
        exact Option.some.inj same
  | leave answer found =>
      exact accord.releases present performs found rfl rfl rfl ⟨rfl, rfl⟩ rfl
        rfl

private theorem expected (accord : TableAccord start path pool turns)
    {action : Action} {performed : Performed action.Result}
    (performs : action.perform thread pool.world = some performed) :
    Discipline.table.expects (turns thread) action performed.result := by
  cases action with
  | beginInitialisation =>
      rw [Action.perform_begin_of_complete accord.mirror.complete] at performs
      cases performs
      rfl
  | load | store | acquire | release | endInitialisation | lookup | deliver
  | readClock | readHost | setClock | arm | collect | takeFacade =>
      trivial

theorem keeps (start : Pool) :
    Regime.table.Keeps (fun command => command.usesTable = true)
      (TableAccord start) where
  idles _ accord idle := accord.idles idle
  begins accord present uses rests :=
    ⟨_, Command.followed_table uses _, accord.begins present rests⟩
  performs accord present performs _ :=
    ⟨accord.expected performs,
      fun _ move => accord.performs present performs move⟩
  returns accord present ends := accord.returns present ends
  panics _ _ impossible := impossible.elim

theorem atStart {world : World} (initialised : world.Initialised)
    (work : List (List Command)) :
    TableAccord (Pool.start world work) [] (Pool.start world work)
      fun _ => { ended := [], call := none, stage := .starting } where
  played := rfl
  calm := rfl
  mirror := by
    refine ⟨initialised.complete, ?_, ?_, rfl, initialised.mirror,
      fun _ => rfl, ?_⟩
    · intro thread
      change world.configLock.holder = some thread ↔ false = true
      rw [initialised.free]
      simp
    · intro _ _ impossible
      cases impossible
    · intro _ impossible
      cases impossible
  threads := by
    intro thread
    refine ⟨rfl, rfl, rfl, ?_, ?_, fun _ => rfl⟩
    · intro number _ impossible
      rw [List.getElem?_nil] at impossible
      cases impossible
    · intro _ _ impossible
      cases impossible

theorem holder_of_about (accord : TableAccord start path pool turns)
    {permitted : Command → Prop}
    (follows : pool.Follows Regime.table permitted turns) {cell : Cell}
    {value : cell.Value} (guarded : cell = .modules ∨ cell = .filterActive)
    (about : pool.AboutTo thread (.store cell value)) :
    pool.world.configLock.holder = some thread := by
  obtain ⟨next, pending, present⟩ := about
  have followed := (follows thread _ present).calling _ rfl
  obtain ⟨later, move, _⟩ := followed () trivial
  refine (accord.mirror.holder thread).mpr ?_
  change (turns thread).stage.holds = true
  cases move with
  | claim =>
      rcases guarded with impossible | impossible
      · cases impossible
      · cases impossible
  | store _ _ _ stage | mirror _ stage =>
      rw [stage]
      rfl

/-! ### Going on -/

/-- A thread that has to wait does not hold the configuration lock, and another
one does. -/
theorem waits (accord : TableAccord start path pool turns)
    {action : Action} {next : action.Result → Script Value}
    (followed : Regime.table.Followed (.step action next) (turns thread))
    (waits : action.perform thread pool.world = none) :
    (turns thread).stage.holds = false ∧
      ∃ holder, pool.world.configLock.holder = some holder := by
  cases action with
  | acquire name =>
      obtain ⟨later, move, _⟩ := followed () trivial
      have held : pool.world.configLock.holder ≠ none → ∃ holder,
          pool.world.configLock.holder = some holder :=
        Option.ne_none_iff_exists'.mp
      have busy : (pool.world.lock name).holder ≠ none := by
        intro free
        rw [Action.perform_acquire free] at waits
        cases waits
      cases move with
      | lock _ _ stage | enter stage =>
          refine ⟨?_, held busy⟩
          rw [stage]
          rfl
  | beginInitialisation =>
      rw [Action.perform_begin_of_complete accord.mirror.complete] at waits
      cases waits
  | load | store | release | endInitialisation | lookup | deliver | readClock
  | readHost | setClock | arm | collect | takeFacade =>
      cases waits

private theorem steps (accord : TableAccord start path pool turns)
    {permitted : Command → Prop}
    (follows : pool.Follows Regime.table permitted turns)
    (present : pool.threads[thread]? = some state)
    (busy : state.finished = false) :
    pool.step thread ≠ pool ∨
      (turns thread).stage.holds = false ∧
        ∃ holder, pool.world.configLock.holder = some holder := by
  have changed {world : World} {after : ThreadState} {deed : Deed}
      (same : pool.step thread = pool.note thread world after deed) :
      pool.step thread ≠ pool := by
    intro unchanged
    have longer := congrArg (fun pool => pool.history.length)
      (same.symm.trans unchanged)
    exact Nat.succ_ne_self _ longer
  have calling := (follows thread state present).calling
  rcases state with ⟨current, pending⟩
  cases current with
  | none =>
      cases pending with
      | nil =>
          cases busy
      | cons command commands =>
          exact .inl (changed (Pool.step_of_begin present))
  | some script =>
      cases script with
      | done value =>
          exact .inl (changed (Pool.step_of_return present))
      | panic text =>
          exact .inl (changed (Pool.step_of_panic present))
      | step action next =>
          cases performs : action.perform thread pool.world with
          | none =>
              exact .inr (accord.waits (calling _ rfl) performs)
          | some performed =>
              exact .inl (changed (Pool.step_of_perform present performs))

private theorem stage_of_finished (accord : TableAccord start path pool turns)
    {permitted : Command → Prop}
    (follows : pool.Follows Regime.table permitted turns) (other : Nat)
    (done : ∀ state, pool.threads[other]? = some state →
      state.finished = true) :
    (turns other).stage = .starting := by
  cases present : pool.threads[other]? with
  | none =>
      exact (accord.threads other).absent present
  | some state =>
      have none := (Bool.and_eq_true_iff.mp (done state present)).1
      exact ((follows other state present).resting
        (Option.isNone_iff_eq_none.mp none)).stage

private theorem holder_steps (accord : TableAccord start path pool turns)
    {permitted : Command → Prop}
    (follows : pool.Follows Regime.table permitted turns) {holder : Nat}
    (held : pool.world.configLock.holder = some holder) :
    pool.step holder ≠ pool := by
  have holds : (turns holder).stage.holds = true :=
    (accord.mirror.holder holder).mp held
  intro stays
  have stage := accord.stage_of_finished follows holder (by
    intro state present
    cases done : state.finished with
    | true =>
        rfl
    | false =>
        rcases accord.steps follows present done with moves | ⟨free, _⟩
        · exact absurd stays moves
        · rw [holds] at free
          cases free)
  rw [stage] at holds
  cases holds

/-- As long as some thread has anything left to do, some thread can take a
step. -/
theorem goesOn (accord : TableAccord start path pool turns)
    {permitted : Command → Prop}
    (follows : pool.Follows Regime.table permitted turns)
    (unfinished : pool.finished = false) :
    ∃ thread, pool.step thread ≠ pool := by
  obtain ⟨state, member, busy⟩ := List.all_eq_false.mp unfinished
  obtain ⟨thread, present⟩ := List.mem_iff_getElem?.mp member
  rcases accord.steps follows present (Bool.eq_false_iff.mpr busy) with
    moves | ⟨_, holder, held⟩
  · exact ⟨thread, moves⟩
  · exact ⟨holder, accord.holder_steps follows held⟩

/-- When nobody has anything left to do, the logger is as it was asked to be at
the start. -/
theorem initialised_of_finished (accord : TableAccord start path pool turns)
    {permitted : Command → Prop}
    (follows : pool.Follows Regime.table permitted turns)
    (finished : pool.finished = true) : pool.world.Initialised := by
  have stages (thread : Nat) : (turns thread).stage = .starting :=
    accord.stage_of_finished follows thread fun state present =>
      List.all_eq_true.mp finished state (List.mem_of_getElem? present)
  have level := accord.mirror.level fun thread => by
    rw [stages thread]
    rfl
  refine ⟨accord.mirror.complete, ?_, ?_⟩
  · cases held : pool.world.configLock.holder with
    | none =>
        rfl
    | some holder =>
        have holds : (turns holder).stage.holds = true :=
          (accord.mirror.holder holder).mp held
        rw [stages holder] at holds
        cases holds
  · rw [accord.mirror.mirror, MirrorAccord.mirroredChanges_of_level level,
      accord.mirror.table]

end TableAccord

end LeveledLog
