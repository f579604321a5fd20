/-
Regimes: disciplines for threads that make one call after the other.

A regime adds to a discipline the stages in which a thread may rest between
two calls, and those in which a call may return or panic.  An assertion about
a pool and the stages of its threads that every single step keeps, taken by a
thread that follows the regime, holds after every schedule.  Such an assertion
may also speak about the path, the schedule up to the present moment.
-/

import LeveledLog.Concurrent
import LeveledLog.Proofs.Discipline
import Mathlib.Logic.Function.Basic

namespace LeveledLog

/-! ### Single steps of a pool -/

namespace Pool

variable {pool : Pool} {thread : Nat} {pending : List Command}

theorem step_of_absent (absent : pool.threads[thread]? = none) :
    pool.step thread = pool := by
  simp only [step, absent]

theorem step_of_finished
    (present : pool.threads[thread]? =
      some { current := none, pending := [] }) :
    pool.step thread = pool := by
  simp only [step, present, advance]

theorem step_of_begin {command : Command}
    (present : pool.threads[thread]? =
      some { current := none, pending := command :: pending }) :
    pool.step thread =
      pool.note thread pool.world
        { current := some command.script, pending := pending }
        (.began command) := by
  simp only [step, present, advance]

theorem step_of_return {value : Value}
    (present : pool.threads[thread]? =
      some { current := some (.done value), pending := pending }) :
    pool.step thread =
      pool.note thread pool.world { current := none, pending := pending }
        (.returned value) := by
  simp only [step, present, advance]

theorem step_of_panic {text : String}
    (present : pool.threads[thread]? =
      some { current := some (.panic text), pending := pending }) :
    pool.step thread =
      pool.note thread pool.world { current := none, pending := [] }
        (.panicked text) := by
  simp only [step, present, advance]

theorem step_of_wait {action : Action} {next : action.Result → Script Value}
    (present : pool.threads[thread]? =
      some { current := some (.step action next), pending := pending })
    (waits : action.perform thread pool.world = none) :
    pool.step thread = pool := by
  simp only [step, present, advance, waits]

theorem step_of_perform {action : Action}
    {next : action.Result → Script Value}
    {performed : Performed action.Result}
    (present : pool.threads[thread]? =
      some { current := some (.step action next), pending := pending })
    (performs : action.perform thread pool.world = some performed) :
    pool.step thread =
      pool.note thread performed.world
        { current := some (next performed.result), pending := pending }
        (.performed action performed.accepted) := by
  simp only [step, present, advance, performs]

theorem play_append (pool : Pool) (earlier later : List Nat) :
    pool.play (earlier ++ later) = (pool.play earlier).play later := by
  simp only [play, List.foldl_append]

@[simp] theorem play_singleton (pool : Pool) (thread : Nat) :
    pool.play [thread] = pool.step thread := rfl

theorem play_cons (pool : Pool) (thread : Nat) (schedule : List Nat) :
    pool.play (thread :: schedule) = (pool.step thread).play schedule := rfl

theorem play_snoc {start next : Pool} {path : List Nat}
    (played : pool = start.play path) (steps : pool.step thread = next) :
    next = start.play (path ++ [thread]) := by
  rw [play_append, ← played, play_singleton, steps]

theorem note_threads_of_ne (pool : Pool) {thread other : Nat} (world : World)
    (state : ThreadState) (deed : Deed) (different : other ≠ thread) :
    (pool.note thread world state deed).threads[other]? =
      pool.threads[other]? := by
  simp only [note]
  exact List.getElem?_set_ne (Ne.symm different)

theorem note_threads_same {state : ThreadState}
    (present : pool.threads[thread]? = some state) (world : World)
    (changed : ThreadState) (deed : Deed) :
    (pool.note thread world changed deed).threads[thread]? =
      some changed := by
  simp only [note]
  rw [List.getElem?_set_self]
  exact (List.getElem?_eq_some_iff.mp present).1

end Pool

/-! ### Threads that follow a regime -/

/-- A discipline, with the stages between calls and at their ends. -/
structure Regime (Stage : Type) extends Discipline Stage where
  rests : Stage → Prop
  returns : Value → Stage → Prop
  panics : String → Stage → Prop

variable {Stage : Type}

def Regime.Followed (regime : Regime Stage) (script : Script Value)
    (stage : Stage) : Prop :=
  script.Follows regime.toDiscipline regime.returns regime.panics stage

/-- A thread follows a regime if its call does, or if it rests, and if it has
only permitted calls to make. -/
structure ThreadState.Follows (regime : Regime Stage)
    (permitted : Command → Prop) (state : ThreadState) (stage : Stage) :
    Prop where
  permits : ∀ command ∈ state.pending, permitted command
  resting : state.current = none → regime.rests stage
  calling : ∀ script, state.current = some script →
    regime.Followed script stage

def Pool.Follows (regime : Regime Stage) (permitted : Command → Prop)
    (pool : Pool) (stages : Nat → Stage) : Prop :=
  ∀ thread (state : ThreadState), pool.threads[thread]? = some state →
    state.Follows regime permitted (stages thread)

/-- An assertion that every step of a thread keeps, if the thread follows the
regime. -/
structure Regime.Keeps (regime : Regime Stage) (permitted : Command → Prop)
    (assertion : List Nat → Pool → (Nat → Stage) → Prop) : Prop where
  idles : ∀ {path pool stages} thread, assertion path pool stages →
    pool.step thread = pool → assertion (path ++ [thread]) pool stages
  begins : ∀ {path pool stages thread command pending},
    assertion path pool stages →
    pool.threads[thread]? =
      some { current := none, pending := command :: pending } →
    permitted command → regime.rests (stages thread) →
    ∃ later, regime.Followed command.script later ∧
      assertion (path ++ [thread])
        (pool.note thread pool.world
          { current := some command.script, pending := pending }
          (.began command))
        (Function.update stages thread later)
  performs : ∀ {path pool stages thread action pending}
    {next : action.Result → Script Value} {performed},
    assertion path pool stages →
    pool.threads[thread]? =
      some { current := some (.step action next), pending := pending } →
    action.perform thread pool.world = some performed →
    (∀ result, regime.expects (stages thread) action result →
      ∃ later, regime.allows (stages thread) action result later) →
    regime.expects (stages thread) action performed.result ∧
      ∀ later, regime.allows (stages thread) action performed.result later →
        assertion (path ++ [thread])
          (pool.note thread performed.world
            { current := some (next performed.result), pending := pending }
            (.performed action performed.accepted))
          (Function.update stages thread later)
  returns : ∀ {path pool stages thread value pending},
    assertion path pool stages →
    pool.threads[thread]? =
      some { current := some (.done value), pending := pending } →
    regime.returns value (stages thread) →
    ∃ later, regime.rests later ∧
      assertion (path ++ [thread])
        (pool.note thread pool.world { current := none, pending := pending }
          (.returned value))
        (Function.update stages thread later)
  panics : ∀ {path pool stages thread text pending},
    assertion path pool stages →
    pool.threads[thread]? =
      some { current := some (.panic text), pending := pending } →
    regime.panics text (stages thread) →
    ∃ later, regime.rests later ∧
      assertion (path ++ [thread])
        (pool.note thread pool.world { current := none, pending := [] }
          (.panicked text))
        (Function.update stages thread later)

namespace Regime

variable {regime : Regime Stage} {permitted : Command → Prop}
variable {assertion : List Nat → Pool → (Nat → Stage) → Prop}

private theorem follows_note {pool : Pool} {stages : Nat → Stage}
    (follows : pool.Follows regime permitted stages) {thread : Nat}
    {state changed : ThreadState} {later : Stage}
    (present : pool.threads[thread]? = some state)
    (changedFollows : changed.Follows regime permitted later)
    (world : World) (deed : Deed) :
    (pool.note thread world changed deed).Follows regime permitted
      (Function.update stages thread later) := by
  intro other otherState otherPresent
  by_cases same : other = thread
  · subst other
    rw [Pool.note_threads_same present] at otherPresent
    rw [Function.update_self, ← Option.some.inj otherPresent]
    exact changedFollows
  · rw [Pool.note_threads_of_ne pool world changed deed same]
      at otherPresent
    rw [Function.update_of_ne same]
    exact follows other otherState otherPresent

private theorem follows_between {pending : List Command}
    (permits : ∀ command ∈ pending, permitted command) {stage : Stage}
    (rests : regime.rests stage) :
    ThreadState.Follows regime permitted
      { current := none, pending := pending } stage where
  permits := permits
  resting _ := rests
  calling := by
    intro script impossible
    cases impossible

private theorem follows_during {pending : List Command}
    (permits : ∀ command ∈ pending, permitted command)
    {script : Script Value} {stage : Stage}
    (followed : regime.Followed script stage) :
    ThreadState.Follows regime permitted
      { current := some script, pending := pending } stage where
  permits := permits
  resting := by
    intro impossible
    cases impossible
  calling := by
    intro other same
    cases same
    exact followed

theorem Keeps.step (keeps : regime.Keeps permitted assertion)
    {path : List Nat} {pool : Pool} {stages : Nat → Stage}
    (before : assertion path pool stages)
    (follows : pool.Follows regime permitted stages) (thread : Nat) :
    ∃ stages', assertion (path ++ [thread]) (pool.step thread) stages' ∧
      (pool.step thread).Follows regime permitted stages' := by
  have unchanged (same : pool.step thread = pool) :
      ∃ stages', assertion (path ++ [thread]) (pool.step thread) stages' ∧
        (pool.step thread).Follows regime permitted stages' := by
    refine ⟨stages, ?_, ?_⟩
    · rw [same]
      exact keeps.idles thread before same
    · rw [same]
      exact follows
  have changed {state after : ThreadState} {later : Stage} {world : World}
      {deed : Deed} (present : pool.threads[thread]? = some state)
      (steps : pool.step thread = pool.note thread world after deed)
      (kept : assertion (path ++ [thread])
        (pool.note thread world after deed)
        (Function.update stages thread later))
      (afterFollows : after.Follows regime permitted later) :
      ∃ stages', assertion (path ++ [thread]) (pool.step thread) stages' ∧
        (pool.step thread).Follows regime permitted stages' := by
    refine ⟨Function.update stages thread later, ?_, ?_⟩
    · rw [steps]
      exact kept
    · rw [steps]
      exact follows_note follows present afterFollows world deed
  cases present : pool.threads[thread]? with
  | none =>
      exact unchanged (Pool.step_of_absent present)
  | some state =>
      obtain ⟨permits, resting, calling⟩ := follows thread state present
      rcases state with ⟨current, pending⟩
      cases current with
      | none =>
          cases pending with
          | nil =>
              exact unchanged (Pool.step_of_finished present)
          | cons command commands =>
              obtain ⟨later, followed, kept⟩ :=
                keeps.begins before present
                  (permits command List.mem_cons_self) (resting rfl)
              have others : ∀ other ∈ commands, permitted other := by
                intro other member
                exact permits other (List.mem_cons_of_mem command member)
              exact changed present (Pool.step_of_begin present) kept
                (follows_during others followed)
      | some script =>
          have followed := calling script rfl
          cases script with
          | done value =>
              obtain ⟨later, rests, kept⟩ :=
                keeps.returns before present followed
              exact changed present (Pool.step_of_return present) kept
                (follows_between permits rests)
          | panic text =>
              obtain ⟨later, rests, kept⟩ :=
                keeps.panics before present followed
              have none : ∀ command ∈ ([] : List Command),
                  permitted command := by
                intro command impossible
                cases impossible
              exact changed present (Pool.step_of_panic present) kept
                (follows_between none rests)
          | step action next =>
              cases performs : action.perform thread pool.world with
              | none =>
                  exact unchanged (Pool.step_of_wait present performs)
              | some performed =>
                  have possible : ∀ result,
                      regime.expects (stages thread) action result →
                        ∃ later,
                          regime.allows (stages thread) action result
                            later := by
                    intro result expected
                    obtain ⟨later, allowed, _⟩ := followed result expected
                    exact ⟨later, allowed⟩
                  obtain ⟨expected, kept⟩ :=
                    keeps.performs before present performs possible
                  obtain ⟨later, allowed, rest⟩ :=
                    followed performed.result expected
                  exact changed present
                    (Pool.step_of_perform present performs)
                    (kept later allowed) (follows_during permits rest)

theorem Keeps.play (keeps : regime.Keeps permitted assertion)
    {path : List Nat} {pool : Pool} {stages : Nat → Stage}
    (before : assertion path pool stages)
    (follows : pool.Follows regime permitted stages)
    (schedule : List Nat) :
    ∃ stages', assertion (path ++ schedule) (pool.play schedule) stages' ∧
      (pool.play schedule).Follows regime permitted stages' := by
  induction schedule generalizing path pool stages with
  | nil =>
      exact ⟨stages, by simpa [Pool.play] using before, follows⟩
  | cons thread schedule inductionHypothesis =>
      obtain ⟨between, after, followsAfter⟩ :=
        keeps.step before follows thread
      obtain ⟨last, atEnd, followsAtEnd⟩ :=
        inductionHypothesis after followsAfter
      refine ⟨last, ?_, followsAtEnd⟩
      simpa [Pool.play_cons] using atEnd

theorem follows_start {work : List (List Command)}
    (permits : ∀ commands ∈ work, ∀ command ∈ commands, permitted command)
    {stages : Nat → Stage} (rests : ∀ thread, regime.rests (stages thread))
    (world : World) :
    (Pool.start world work).Follows regime permitted stages := by
  intro thread state present
  simp only [Pool.start, List.getElem?_map, Option.map_eq_some_iff]
    at present
  obtain ⟨commands, member, same⟩ := present
  subst same
  have mine : ∀ command ∈ commands, permitted command :=
    permits commands (List.mem_of_getElem? member)
  exact follows_between mine (rests thread)

end Regime

/-! ### Locks and the stages of their holders -/

def HeldBy (holder : Option Nat) (holds : Stage → Prop)
    (stages : Nat → Stage) : Prop :=
  ∀ thread, holder = some thread ↔ holds (stages thread)

namespace HeldBy

variable {holder : Option Nat} {holds : Stage → Prop} {stages : Nat → Stage}
variable {thread : Nat} {later : Stage}

theorem nobody (free : HeldBy none holds stages) (thread : Nat) :
    ¬ holds (stages thread) := by
  intro busy
  have impossible := (free thread).mpr busy
  cases impossible

theorem only (held : HeldBy holder holds stages)
    (busy : holds (stages thread)) {other : Nat} (different : other ≠ thread) :
    ¬ holds (stages other) := by
  intro busyToo
  have holder := (held thread).mpr busy
  rw [(held other).mpr busyToo] at holder
  exact different (Option.some.inj holder)

theorem keep (held : HeldBy holder holds stages)
    (same : holds later ↔ holds (stages thread)) :
    HeldBy holder holds (Function.update stages thread later) := by
  intro other
  by_cases this : other = thread
  · subst this
    rw [Function.update_self, same]
    exact held other
  · rw [Function.update_of_ne this]
    exact held other

theorem take (free : HeldBy none holds stages) (takes : holds later) :
    HeldBy (some thread) holds (Function.update stages thread later) := by
  intro other
  by_cases this : other = thread
  · subst this
    rw [Function.update_self]
    exact ⟨fun _ => takes, fun _ => rfl⟩
  · rw [Function.update_of_ne this]
    constructor
    · intro same
      exact absurd (Option.some.inj same).symm this
    · intro busy
      exact absurd busy (free.nobody other)

theorem giveUp (held : HeldBy holder holds stages)
    (busy : holds (stages thread)) (free : ¬ holds later) :
    HeldBy none holds (Function.update stages thread later) := by
  intro other
  by_cases this : other = thread
  · subst this
    rw [Function.update_self]
    simp [free]
  · rw [Function.update_of_ne this]
    simp [held.only busy this]

end HeldBy

end LeveledLog
