/-
Threads that use a spin lock.

Any number of threads take steps at one lock, one step at a time and in any
order.  A thread that waits for the lock compares the flag, which may fail for
no reason, and after a failure watches the flag until it reads `false`; a
thread may also try the lock once; and a thread gives the lock up only if it
has taken it before.  At every moment at most one thread is between taking the
lock and giving it up, and the flag is set exactly while there is one.
-/

import LeveledLog.SpinLock

namespace LeveledLog

/-- A thread that uses a lock: whether it watches the flag after a comparison
that failed, and whether it has taken the lock and not given it up. -/
structure LockUser where
  watching : Bool
  holds : Bool
deriving DecidableEq

inductive LockStep where
  /-- Compares the flag while it waits for the lock; with `spurious` the
  comparison fails for no reason. -/
  | compare (spurious : Bool)
  | watch
  | tryOnce
  | giveUp
deriving DecidableEq

namespace LockUser

def idle : LockUser where
  watching := false
  holds := false

/-- One step of a thread: the lock and the thread after it.  A thread that
watches the flag does nothing else, and one that does not hold the lock cannot
give it up. -/
def act (lock : SpinLock) (user : LockUser) : LockStep → SpinLock × LockUser
  | .compare spurious =>
      if user.watching then
        (lock, user)
      else if spurious then
        (lock, { user with watching := true })
      else
        match lock.tryLock with
        | (true, taken) => (taken, { user with holds := true })
        | (false, same) => (same, { user with watching := true })
  | .watch => (lock, { user with watching := user.watching && lock.locked })
  | .tryOnce =>
      if user.watching then
        (lock, user)
      else
        match lock.tryLock with
        | (true, taken) => (taken, { user with holds := true })
        | (false, same) => (same, user)
  | .giveUp =>
      if user.watching || !user.holds then
        (lock, user)
      else
        (lock.unlock, { user with holds := false })

inductive Acts (lock : SpinLock) (user : LockUser) :
    SpinLock × LockUser → Prop
  | stays {after : LockUser} (same : after.holds = user.holds) :
      Acts lock user (lock, after)
  | takes {after : LockUser} (free : lock.locked = false)
      (holds : after.holds = true) : Acts lock user ({ locked := true }, after)
  | givesUp {after : LockUser} (held : user.holds = true)
      (holds : after.holds = false) : Acts lock user (SpinLock.free, after)

end LockUser

theorem SpinLock.tryLock_of_free {lock : SpinLock}
    (free : lock.locked = false) :
    lock.tryLock = (true, { locked := true }) := by
  unfold tryLock
  rw [free]
  rfl

theorem SpinLock.tryLock_of_locked {lock : SpinLock}
    (taken : lock.locked = true) : lock.tryLock = (false, lock) :=
  if_pos taken

private theorem LockUser.acts_of_tryLock (lock : SpinLock)
    {user refused : LockUser} (same : refused.holds = user.holds) :
    user.Acts lock
      (match lock.tryLock with
        | (true, taken) => (taken, { user with holds := true })
        | (false, same) => (same, refused)) := by
  cases locked : lock.locked with
  | false =>
      rw [SpinLock.tryLock_of_free locked]
      exact .takes locked rfl
  | true =>
      rw [SpinLock.tryLock_of_locked locked]
      exact .stays same

private theorem LockUser.acts (lock : SpinLock) (user : LockUser)
    (step : LockStep) : user.Acts lock (user.act lock step) := by
  cases step with
  | compare spurious =>
      rw [act]
      split
      · exact .stays rfl
      split
      · exact .stays rfl
      · exact acts_of_tryLock lock rfl
  | watch =>
      exact .stays rfl
  | tryOnce =>
      rw [act]
      split
      · exact .stays rfl
      · exact acts_of_tryLock lock rfl
  | giveUp =>
      rw [act]
      split
      · exact .stays rfl
      · rename_i able
        simp only [Bool.or_eq_true, Bool.not_eq_true', not_or,
          Bool.not_eq_false] at able
        exact .givesUp able.2 rfl

structure LockUse where
  lock : SpinLock
  users : List LockUser
deriving DecidableEq

namespace LockUse

def start (threads : Nat) : LockUse where
  lock := SpinLock.free
  users := List.replicate threads LockUser.idle

/-- One step of one thread; a step of no thread changes nothing. -/
def step (use : LockUse) (thread : Nat) (move : LockStep) : LockUse :=
  match use.users[thread]? with
  | none => use
  | some user =>
      { lock := (user.act use.lock move).1
        users := use.users.set thread (user.act use.lock move).2 }

def play (use : LockUse) (moves : List (Nat × LockStep)) : LockUse :=
  moves.foldl (fun use move => use.step move.1 move.2) use

def Inside (use : LockUse) (thread : Nat) : Prop :=
  ∃ user, use.users[thread]? = some user ∧ user.holds = true

/-! ### The thread that holds the lock -/

variable {use : LockUse} {thread : Nat} {user : LockUser}

private theorem inside_iff (there : use.users[thread]? = some user) :
    use.Inside thread ↔ user.holds = true := by
  simp [Inside, there]

/-- A step of one thread lets the others stay where they are. -/
private theorem inside_set (there : use.users[thread]? = some user)
    (lock : SpinLock) (after : LockUser) (other : Nat) :
    Inside { lock := lock, users := use.users.set thread after } other ↔
      if other = thread then after.holds = true else use.Inside other := by
  have present : thread < use.users.length :=
    (List.getElem?_eq_some_iff.mp there).1
  by_cases same : other = thread
  · simp [Inside, same, present]
  · simp [Inside, same, Ne.symm same]

/-- The thread that is inside, if there is one: no other thread is, and the
flag tells whether there is one. -/
structure HeldBy (use : LockUse) (holder : Option Nat) : Prop where
  locked : use.lock.locked = holder.isSome
  inside : ∀ thread, use.Inside thread ↔ holder = some thread

variable {holder : Option Nat}

theorem start_heldBy (threads : Nat) : (start threads).HeldBy none where
  locked := rfl
  inside thread := by
    refine iff_of_false ?_ (Option.some_ne_none thread).symm
    rintro ⟨user, there, holds⟩
    have idle := List.eq_of_mem_replicate (List.mem_of_getElem? there)
    rw [idle] at holds
    cases holds

private theorem HeldBy.acts (held : use.HeldBy holder)
    (there : use.users[thread]? = some user)
    {outcome : SpinLock × LockUser} (acts : user.Acts use.lock outcome) :
    ∃ after, HeldBy
      { lock := outcome.1, users := use.users.set thread outcome.2 }
      after := by
  have own : user.holds = true ↔ holder = some thread := by
    rw [← inside_iff there, held.inside]
  cases acts with
  | stays same =>
      refine ⟨holder, held.locked, fun other => ?_⟩
      rw [inside_set there]
      split
      · rename_i itself
        rw [same, own, itself]
      · exact held.inside other
  | takes free holds =>
      have nobody : holder = none := by
        rw [held.locked] at free
        exact Option.isNone_iff_eq_none.mp (Option.isSome_eq_false_iff.mp free)
      refine ⟨some thread, rfl, fun other => ?_⟩
      rw [inside_set there]
      split
      · rename_i itself
        rw [itself]
        exact iff_of_true holds rfl
      · rename_i apart
        rw [held.inside, nobody]
        simp [Ne.symm apart]
  | givesUp mine holds =>
      refine ⟨none, rfl, fun other => ?_⟩
      rw [inside_set there]
      split
      · simp [holds]
      · rename_i apart
        rw [held.inside, own.mp mine]
        simp [Ne.symm apart]

theorem HeldBy.step (held : use.HeldBy holder) (thread : Nat)
    (move : LockStep) : ∃ after, (use.step thread move).HeldBy after := by
  unfold LockUse.step
  cases there : use.users[thread]? with
  | none =>
      exact ⟨holder, held⟩
  | some user =>
      exact held.acts there (user.acts use.lock move)

theorem HeldBy.play (held : use.HeldBy holder)
    (moves : List (Nat × LockStep)) :
    ∃ after, (use.play moves).HeldBy after := by
  induction moves generalizing use holder with
  | nil =>
      exact ⟨holder, held⟩
  | cons move moves inductionHypothesis =>
      obtain ⟨after, later⟩ := held.step move.1 move.2
      exact inductionHypothesis later

theorem HeldBy.only (held : use.HeldBy holder) {first second : Nat}
    (one : use.Inside first) (other : use.Inside second) : first = second := by
  rw [held.inside] at one other
  rw [one] at other
  exact Option.some.inj other

theorem HeldBy.locked_iff (held : use.HeldBy holder) :
    use.lock.locked = true ↔ ∃ thread, use.Inside thread := by
  rw [held.locked, Option.isSome_iff_exists]
  exact exists_congr fun thread => (held.inside thread).symm

/-- A thread that tries the lock once takes it if the flag is not set, and
otherwise changes nothing. -/
theorem step_tryOnce (there : use.users[thread]? = some user)
    (unoccupied : user.watching = false) :
    use.step thread .tryOnce =
      if use.lock.locked then use
      else
        { lock := { locked := true }
          users := use.users.set thread { user with holds := true } } := by
  unfold LockUse.step
  rw [there]
  simp only [LockUser.act, unoccupied, Bool.false_eq_true, if_false]
  cases locked : use.lock.locked with
  | false =>
      rw [SpinLock.tryLock_of_free locked]
      rfl
  | true =>
      rw [SpinLock.tryLock_of_locked locked, if_pos rfl]
      obtain ⟨present, same⟩ := List.getElem?_eq_some_iff.mp there
      rw [← same, List.set_getElem_self]

end LockUse

end LeveledLog
