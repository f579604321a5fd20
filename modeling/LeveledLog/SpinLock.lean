/-
A spin lock, and a word that threads add to under it.

The lock is one flag.  Taking it compares the flag with `false` and sets it in
one step; a thread that waits for the lock may find that step fail for no
reason, and then watches the flag until it reads `false` before it tries
again.  `Contest` lets any number of threads do this one step at a time, in
any order: each thread goes through a list of additions to a shared word, and
reads and writes the word in separate steps while it holds the lock.
-/

namespace LeveledLog

structure SpinLock where
  locked : Bool
deriving DecidableEq

namespace SpinLock

def free : SpinLock where
  locked := false

def tryLock (lock : SpinLock) : Bool × SpinLock :=
  if lock.locked then (false, lock) else (true, { locked := true })

def unlock (_ : SpinLock) : SpinLock :=
  free

end SpinLock

/-- One critical section: an amount to add, and whether the thread waits for
the lock or gives up when the lock is taken. -/
structure Addition where
  amount : UInt64
  waits : Bool
deriving DecidableEq

inductive Phase where
  | ready
  | watching
  | entered
  | read (seen : UInt64)
  | written
deriving DecidableEq

namespace Phase

def holds : Phase → Bool
  | .ready | .watching => false
  | .entered | .read _ | .written => true

end Phase

/-- A thread: its phase in the first addition it still has to do, and how its
earlier additions ended, the latest first. -/
structure Adder where
  phase : Phase
  pending : List Addition
  ended : List (Addition × Bool)
deriving DecidableEq

namespace Adder

def start (additions : List Addition) : Adder where
  phase := .ready
  pending := additions
  ended := []

end Adder

structure Contest where
  lock : SpinLock
  word : UInt64
  adders : List Adder
deriving DecidableEq

/-- Which thread takes a step, and whether a comparison that may fail for no
reason does so. -/
structure Turn where
  adder : Nat
  spurious : Bool
deriving DecidableEq

namespace Contest

def start (word : UInt64) (work : List (List Addition)) : Contest where
  lock := SpinLock.free
  word := word
  adders := work.map Adder.start

def advance (lock : SpinLock) (word : UInt64) (adder : Adder)
    (spurious : Bool) : SpinLock × UInt64 × Adder :=
  match adder.pending with
  | [] => (lock, word, adder)
  | addition :: later =>
      match adder.phase with
      | .ready =>
          if addition.waits && spurious then
            (lock, word, { adder with phase := .watching })
          else
            match lock.tryLock with
            | (true, taken) =>
                (taken, word, { adder with phase := .entered })
            | (false, same) =>
                if addition.waits then
                  (same, word, { adder with phase := .watching })
                else
                  (same, word,
                    { phase := .ready
                      pending := later
                      ended := (addition, false) :: adder.ended })
      | .watching =>
          if lock.locked then
            (lock, word, adder)
          else
            (lock, word, { adder with phase := .ready })
      | .entered => (lock, word, { adder with phase := .read word })
      | .read seen =>
          (lock, seen + addition.amount, { adder with phase := .written })
      | .written =>
          (lock.unlock, word,
            { phase := .ready
              pending := later
              ended := (addition, true) :: adder.ended })

def step (contest : Contest) (turn : Turn) : Contest :=
  match contest.adders[turn.adder]? with
  | none => contest
  | some adder =>
      let (lock, word, adder) :=
        advance contest.lock contest.word adder turn.spurious
      { lock := lock
        word := word
        adders := contest.adders.set turn.adder adder }

def play (contest : Contest) (turns : List Turn) : Contest :=
  turns.foldl step contest

def finished (contest : Contest) : Bool :=
  contest.adders.all fun adder => adder.pending.isEmpty

def round (contest : Contest) : List Turn :=
  (List.range contest.adders.length).map fun adder =>
    { adder := adder, spurious := false }

def playRounds : (limit : Nat) → Contest → Contest
  | 0, contest => contest
  | limit + 1, contest =>
      if contest.finished then contest
      else playRounds limit (contest.play contest.round)

/-- Whether a thread has nothing left to do, or can only watch a lock that
somebody else holds. -/
def idle (contest : Contest) (adder : Nat) : Bool :=
  match contest.adders[adder]? with
  | none => true
  | some state =>
      state.pending.isEmpty ||
        (state.phase == .watching && contest.lock.locked)

def goOn (adder : Nat) : (limit : Nat) → Contest → Contest
  | 0, contest => contest
  | limit + 1, contest =>
      if contest.idle adder then contest
      else
        goOn adder limit
          (contest.step { adder := adder, spurious := false })

/-- Lets each thread in turn go on alone.  An addition takes four steps, and a
thread that watches a lock takes one more to find it free. -/
def pass (contest : Contest) : Contest :=
  (List.range contest.adders.length).foldl
    (fun current adder =>
      match current.adders[adder]? with
      | none => current
      | some state => goOn adder (4 * state.pending.length + 1) current)
    contest

def openingRounds : Nat := 1000

/-- Plays a contest to its end.  First the threads take turns; then each goes
on alone.  The thread that holds the lock is not idle, so after one pass the
lock is free, and after another nobody has anything left to do. -/
def playOut (contest : Contest) : Contest :=
  ((contest.playRounds openingRounds).pass).pass

end Contest

structure GuardedWord where
  lock : SpinLock
  word : UInt64
deriving DecidableEq

namespace GuardedWord

def start : GuardedWord where
  lock := SpinLock.free
  word := 0

def addTogether (guarded : GuardedWord) (work : List (List Addition)) :
    GuardedWord × List Adder :=
  let contest : Contest :=
    { lock := guarded.lock
      word := guarded.word
      adders := work.map Adder.start }
  let played := contest.playOut
  ({ lock := played.lock, word := played.word }, played.adders)

def add (guarded : GuardedWord) (amount : UInt64) : GuardedWord :=
  (guarded.addTogether [[{ amount := amount, waits := true }]]).1

/-- Adds an amount if the lock is free, and tells whether it was; with
`held`, somebody else holds the lock meanwhile. -/
def tryAdd (guarded : GuardedWord) (amount : UInt64) (held : Bool) :
    Bool × GuardedWord :=
  let before := { guarded with lock := { locked := held } }
  let (after, adders) :=
    before.addTogether [[{ amount := amount, waits := false }]]
  let added := adders.any fun adder => adder.ended.any fun entry => entry.2
  (added, { after with lock := guarded.lock })

def count (guarded : GuardedWord) (threads rounds : Nat) : GuardedWord :=
  if threads = 0 then
    guarded
  else
    (guarded.addTogether
      (List.replicate threads
        (List.replicate rounds { amount := 1, waits := true }))).1

end GuardedWord

end LeveledLog
