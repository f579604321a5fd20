/-
Additions to a word under a spin lock.

Each thread of a contest uses the lock as any thread may: what it does to the
lock, step by step, is what `LockUser.act` allows.  So one thread at most is
at the word at any moment, the word stays what a thread has read until that
thread writes, and in the end the word holds the sum of what it held first and
of all amounts that were added under the lock.
-/

import LeveledLog.Proofs.LockUsers
import Mathlib.Algebra.GroupWithZero.Nat
import Mathlib.Data.List.Basic

namespace LeveledLog

/-! ### Threads of a contest as users of the lock -/

def Adder.user (adder : Adder) : LockUser where
  watching := adder.phase == .watching
  holds := adder.phase.holds

namespace Contest

def use (contest : Contest) : LockUse where
  lock := contest.lock
  users := contest.adders.map Adder.user

def Inside (contest : Contest) (thread : Nat) : Prop :=
  ∃ adder, contest.adders[thread]? = some adder ∧ adder.phase.holds = true

private theorem use_inside {contest : Contest} {thread : Nat} :
    contest.use.Inside thread ↔ contest.Inside thread := by
  simp [LockUse.Inside, use, Inside, Adder.user]

end Contest

inductive Adder.Advances (lock : SpinLock) (word : UInt64) (adder : Adder)
    (spurious : Bool) : SpinLock × UInt64 × Adder → Prop
  | rests (idle : adder.pending = [] ∨
        adder.phase = .watching ∧ lock.locked = true) :
      Advances lock word adder spurious (lock, word, adder)
  | waits (ready : adder.phase = .ready)
      (pending : adder.pending ≠ [])
      (refused : spurious = true ∨ lock.locked = true) :
      Advances lock word adder spurious
        (lock, word, { adder with phase := .watching })
  | retries (watches : adder.phase = .watching)
      (pending : adder.pending ≠ []) (free : lock.locked = false) :
      Advances lock word adder spurious
        (lock, word, { adder with phase := .ready })
  | enters (ready : adder.phase = .ready)
      (pending : adder.pending ≠ []) (free : lock.locked = false) :
      Advances lock word adder spurious
        ({ locked := true }, word, { adder with phase := .entered })
  | misses {addition : Addition} {later : List Addition}
      (ready : adder.phase = .ready)
      (pending : adder.pending = addition :: later)
      (once : addition.waits = false) (taken : lock.locked = true) :
      Advances lock word adder spurious
        (lock, word,
          { phase := .ready
            pending := later
            ended := (addition, false) :: adder.ended })
  | reads (inside : adder.phase = .entered)
      (pending : adder.pending ≠ []) :
      Advances lock word adder spurious
        (lock, word, { adder with phase := .read word })
  | writes {addition : Addition} {later : List Addition} {seen : UInt64}
      (hasRead : adder.phase = .read seen)
      (pending : adder.pending = addition :: later) :
      Advances lock word adder spurious
        (lock, seen + addition.amount, { adder with phase := .written })
  | leaves {addition : Addition} {later : List Addition}
      (done : adder.phase = .written)
      (pending : adder.pending = addition :: later) :
      Advances lock word adder spurious
        (SpinLock.free, word,
          { phase := .ready
            pending := later
            ended := (addition, true) :: adder.ended })

private theorem Contest.advance_advances (lock : SpinLock) (word : UInt64)
    (adder : Adder) (spurious : Bool) :
    adder.Advances lock word spurious
      (Contest.advance lock word adder spurious) := by
  rcases adder with ⟨phase, pending, ended⟩
  unfold Contest.advance
  cases pending with
  | nil =>
      exact .rests (.inl rfl)
  | cons addition later =>
      have more : addition :: later ≠ [] := List.cons_ne_nil _ _
      cases phase with
      | ready =>
          simp only
          split
          · rename_i failed
            exact .waits rfl more (.inl (Bool.and_eq_true_iff.mp failed).2)
          cases locked : lock.locked with
          | false =>
              rw [SpinLock.tryLock_of_free locked]
              exact .enters rfl more locked
          | true =>
              rw [SpinLock.tryLock_of_locked locked]
              simp only
              split
              · exact .waits rfl more (.inr locked)
              · rename_i once
                exact .misses rfl rfl (Bool.eq_false_iff.mpr once) locked
      | watching =>
          simp only
          split
          · rename_i locked
            exact .rests (.inr ⟨rfl, locked⟩)
          · rename_i free
            exact .retries rfl more (Bool.eq_false_iff.mpr free)
      | entered =>
          exact .reads rfl more
      | read seen =>
          exact .writes rfl rfl
      | written =>
          exact .leaves rfl rfl

private theorem Adder.Advances.acts {lock : SpinLock} {word : UInt64}
    {adder : Adder} {spurious : Bool} {outcome : SpinLock × UInt64 × Adder}
    (advances : adder.Advances lock word spurious outcome) :
    ∃ move, adder.user.act lock move = (outcome.1, outcome.2.2.user) := by
  rcases adder with ⟨phase, pending, ended⟩
  cases advances with
  | rests =>
      by_cases watches : phase = .watching
      · subst watches
        exact ⟨.compare true, rfl⟩
      · have unoccupied : (phase == .watching) = false :=
          beq_eq_false_iff_ne.mpr watches
        refine ⟨.watch, ?_⟩
        simp [LockUser.act, user, unoccupied]
  | waits ready =>
      cases ready
      exact ⟨.compare true, rfl⟩
  | retries watches _ free =>
      cases watches
      refine ⟨.watch, ?_⟩
      rw [LockUser.act, free]
      rfl
  | enters ready _ free =>
      cases ready
      refine ⟨.compare false, ?_⟩
      rw [LockUser.act, SpinLock.tryLock_of_free free]
      rfl
  | misses ready _ _ taken =>
      cases ready
      refine ⟨.tryOnce, ?_⟩
      rw [LockUser.act, SpinLock.tryLock_of_locked taken]
      rfl
  | reads inside =>
      cases inside
      exact ⟨.watch, rfl⟩
  | writes hasRead =>
      cases hasRead
      exact ⟨.watch, rfl⟩
  | leaves done =>
      cases done
      exact ⟨.giveUp, rfl⟩

/-! ### What threads have added -/

namespace Adder

def additions (adder : Adder) : List Addition :=
  adder.ended.reverse.map Prod.fst ++ adder.pending

def acquired (adder : Adder) : List UInt64 :=
  (adder.ended.filter Prod.snd).map fun entry => entry.1.amount

/-- The amount that a thread has written while it still holds the lock. -/
def unended (adder : Adder) : Nat :=
  match adder.phase, adder.pending with
  | .written, addition :: _ => addition.amount.toNat
  | _, _ => 0

/-- What a thread has added to the word so far. -/
def added (adder : Adder) : Nat :=
  adder.unended + (adder.acquired.map UInt64.toNat).sum

private theorem added_of_pending_nil {adder : Adder}
    (done : adder.pending = []) :
    adder.added = (adder.acquired.map UInt64.toNat).sum := by
  have nothing : adder.unended = 0 := by
    unfold unended
    rw [done]
    cases adder.phase <;> rfl
  rw [added, nothing, Nat.zero_add]

theorem sum_acquired (adders : List Adder) :
    ((adders.flatMap acquired).map UInt64.toNat).sum =
      (adders.map fun adder => (adder.acquired.map UInt64.toNat).sum).sum := by
  rw [List.map_flatMap, List.flatMap_def, List.sum_flatten, List.map_map]
  rfl

/-- Whether a thread holds the lock only during an addition, and every
addition that waits for the lock has ended with it. -/
structure Orderly (adder : Adder) : Prop where
  inside : adder.phase.holds = true → adder.pending ≠ []
  waited : ∀ entry ∈ adder.ended, entry.1.waits = true → entry.2 = true

end Adder

namespace Adder.Advances

variable {lock : SpinLock} {word : UInt64} {adder : Adder}
variable {spurious : Bool} {outcome : SpinLock × UInt64 × Adder}

private theorem additions
    (advances : adder.Advances lock word spurious outcome) :
    outcome.2.2.additions = adder.additions := by
  cases advances with
  | rests | waits | retries | enters | reads | writes =>
      rfl
  | misses _ pending | leaves _ pending =>
      simp [Adder.additions, pending]

private theorem added (advances : adder.Advances lock word spurious outcome) :
    outcome.2.1 = word ∧ outcome.2.2.added = adder.added ∨
      ∃ seen amount, adder.phase = .read seen ∧
        outcome.2.1 = seen + amount ∧
        outcome.2.2.added = adder.added + amount.toNat := by
  cases advances with
  | rests =>
      exact .inl ⟨rfl, rfl⟩
  | waits phase | enters phase | retries phase | reads phase =>
      refine .inl ⟨rfl, ?_⟩
      simp [Adder.added, Adder.unended, Adder.acquired, phase]
  | misses phase pending =>
      refine .inl ⟨rfl, ?_⟩
      simp [Adder.added, Adder.unended, Adder.acquired, phase]
  | @writes addition later seen phase pending =>
      refine .inr ⟨seen, addition.amount, phase, rfl, ?_⟩
      simp [Adder.added, Adder.unended, Adder.acquired, phase, pending]
      omega
  | leaves phase pending =>
      refine .inl ⟨rfl, ?_⟩
      simp [Adder.added, Adder.unended, Adder.acquired, phase, pending]

private theorem seen (advances : adder.Advances lock word spurious outcome)
    {known : UInt64} (before : adder.phase = .read known → known = word)
    (reads : outcome.2.2.phase = .read known) : known = outcome.2.1 := by
  cases advances with
  | rests =>
      exact before reads
  | reads =>
      cases reads
      rfl
  | waits | retries | enters | misses | writes | leaves =>
      cases reads

private theorem word_kept
    (advances : adder.Advances lock word spurious outcome) :
    outcome.2.1 = word ∨ adder.phase.holds = true := by
  rcases advances.added with ⟨same, _⟩ | ⟨_, _, hasRead, _⟩
  · exact .inl same
  · rw [hasRead]
    exact .inr rfl

private theorem orderly (advances : adder.Advances lock word spurious outcome)
    (before : adder.Orderly) : outcome.2.2.Orderly := by
  cases advances with
  | rests =>
      exact before
  | waits _ pending | retries _ pending | enters _ pending
  | reads _ pending =>
      exact ⟨fun _ => pending, before.waited⟩
  | writes _ pending =>
      refine ⟨fun _ => ?_, before.waited⟩
      rw [pending]
      exact List.cons_ne_nil _ _
  | misses _ _ once =>
      constructor
      · intro impossible
        cases impossible
      intro entry member waits
      rcases List.mem_cons.mp member with same | earlier
      · rw [same, once] at waits
        cases waits
      · exact before.waited entry earlier waits
  | leaves =>
      constructor
      · intro impossible
        cases impossible
      intro entry member waits
      rcases List.mem_cons.mp member with same | earlier
      · rw [same]
      · exact before.waited entry earlier waits

end Adder.Advances

/-! ### Contests -/

private theorem getElem?_set_cases {α : Type} {items : List α}
    {place other : Nat} {item found : α}
    (among : (items.set place item)[other]? = some found) :
    other = place ∧ found = item ∨
      other ≠ place ∧ items[other]? = some found := by
  rw [List.getElem?_set] at among
  split at among
  · rename_i same
    split at among
    · exact .inl ⟨same.symm, (Option.some.inj among).symm⟩
    · cases among
  · rename_i apart
    exact .inr ⟨Ne.symm apart, among⟩

private theorem sum_map_set {α : Type} (measure : α → Nat) {items : List α}
    {place : Nat} {old : α} (there : items[place]? = some old) (new : α) :
    ((items.set place new).map measure).sum + measure old =
      (items.map measure).sum + measure new := by
  induction items generalizing place with
  | nil =>
      cases there
  | cons item items inductionHypothesis =>
      cases place with
      | zero =>
          cases there
          simp only [List.set_cons_zero, List.map_cons, List.sum_cons]
          omega
      | succ place =>
          have rest := inductionHypothesis there
          simp only [List.set_cons_succ, List.map_cons, List.sum_cons]
          omega

namespace Contest

def acquired (contest : Contest) : List UInt64 :=
  contest.adders.flatMap Adder.acquired

def added (contest : Contest) : Nat :=
  (contest.adders.map Adder.added).sum

theorem step_of_present {contest : Contest} {turn : Turn} {adder : Adder}
    (there : contest.adders[turn.adder]? = some adder) :
    ∃ outcome,
      adder.Advances contest.lock contest.word turn.spurious outcome ∧
        contest.step turn =
          { lock := outcome.1
            word := outcome.2.1
            adders := contest.adders.set turn.adder outcome.2.2 } := by
  unfold step
  rw [there]
  exact ⟨_, advance_advances _ _ _ turn.spurious, rfl⟩

/-- A turn of no thread changes nothing, and any other one makes a thread
advance. -/
theorem step_eq (contest : Contest) (turn : Turn) :
    contest.step turn = contest ∨
      ∃ adder outcome, contest.adders[turn.adder]? = some adder ∧
        adder.Advances contest.lock contest.word turn.spurious outcome ∧
        contest.step turn =
          { lock := outcome.1
            word := outcome.2.1
            adders := contest.adders.set turn.adder outcome.2.2 } := by
  cases there : contest.adders[turn.adder]? with
  | none =>
      left
      unfold step
      rw [there]
  | some adder =>
      obtain ⟨outcome, advances, becomes⟩ := step_of_present there
      exact .inr ⟨adder, outcome, rfl, advances, becomes⟩

theorem step_once {contest : Contest} {turn : Turn} {adder : Adder}
    {addition : Addition} {later : List Addition}
    (there : contest.adders[turn.adder]? = some adder)
    (ready : adder.phase = .ready)
    (pending : adder.pending = addition :: later)
    (once : addition.waits = false) :
    contest.step turn =
      if contest.lock.locked then
        { contest with
          adders := contest.adders.set turn.adder
            { phase := .ready
              pending := later
              ended := (addition, false) :: adder.ended } }
      else
        { contest with
          lock := { locked := true }
          adders := contest.adders.set turn.adder
            { adder with phase := .entered } } := by
  unfold step
  rw [there]
  simp only [advance, pending, ready, once, Bool.false_and,
    Bool.false_eq_true, if_false]
  cases locked : contest.lock.locked with
  | false =>
      rw [SpinLock.tryLock_of_free locked]
      rfl
  | true =>
      rw [SpinLock.tryLock_of_locked locked]
      rfl

private theorem step_use (contest : Contest) (turn : Turn) :
    (contest.step turn).use = contest.use ∨
      ∃ move, (contest.step turn).use = contest.use.step turn.adder move := by
  rcases contest.step_eq turn with
    same | ⟨adder, outcome, there, advances, steps⟩
  · exact .inl (congrArg use same)
  · obtain ⟨move, acts⟩ := advances.acts
    refine .inr ⟨move, ?_⟩
    have user : contest.use.users[turn.adder]? = some adder.user := by
      change (contest.adders.map Adder.user)[turn.adder]? = _
      rw [List.getElem?_map, there, Option.map_some]
    rw [steps, LockUse.step, user]
    simp only [use, List.map_set, acts]

private theorem start_use (word : UInt64) (work : List (List Addition)) :
    (start word work).use = LockUse.start work.length := by
  have idle : Adder.user ∘ Adder.start = fun _ => LockUser.idle := rfl
  simp [start, use, LockUse.start, idle, List.map_const']

/-! ### What holds along a contest -/

/-- How turns leave a contest about a word with the given work: the lock has
at most one holder, no addition is lost, what a thread has read is still the
word, and the word is the sum of what has been added. -/
structure Sound (word : UInt64) (work : List (List Addition))
    (contest : Contest) : Prop where
  held : ∃ holder, contest.use.HeldBy holder
  additions : contest.adders.map Adder.additions = work
  orderly : ∀ adder ∈ contest.adders, adder.Orderly
  seen : ∀ (thread : Nat) (adder : Adder) (seen : UInt64),
    contest.adders[thread]? = some adder →
    adder.phase = .read seen → seen = contest.word
  total : contest.word.toNat = (word.toNat + contest.added) % 2 ^ 64

theorem start_sound (word : UInt64) (work : List (List Addition)) :
    (start word work).Sound word work where
  held := by
    rw [start_use]
    exact ⟨none, LockUse.start_heldBy _⟩
  additions := by
    have same : Adder.additions ∘ Adder.start = id := rfl
    simp [start, same]
  orderly := by
    intro adder member
    obtain ⟨additions, _, same⟩ := List.mem_map.mp member
    rw [← same]
    constructor
    · intro impossible
      cases impossible
    · intro entry impossible
      cases impossible
  seen := by
    intro thread adder seen there reads
    obtain ⟨additions, _, same⟩ :=
      List.mem_map.mp (List.mem_of_getElem? there)
    rw [← same] at reads
    cases reads
  total := by
    have nothing : Adder.added ∘ Adder.start = fun _ => 0 := rfl
    have bound := word.toNat_lt
    simp only [added, start, List.map_map, nothing, List.map_const',
      List.sum_replicate_nat]
    omega

namespace Sound

variable {word : UInt64} {work : List (List Addition)} {contest : Contest}

theorem only (sound : contest.Sound word work) {first second : Nat}
    (one : contest.Inside first) (other : contest.Inside second) :
    first = second := by
  obtain ⟨holder, held⟩ := sound.held
  exact held.only (use_inside.mpr one) (use_inside.mpr other)

private theorem locked_iff (sound : contest.Sound word work) :
    contest.lock.locked = true ↔ ∃ thread, contest.Inside thread := by
  obtain ⟨holder, held⟩ := sound.held
  exact held.locked_iff.trans (exists_congr fun thread => use_inside)

theorem unlocked (sound : contest.Sound word work)
    (nobody : ∀ thread, ¬contest.Inside thread) :
    contest.lock.locked = false := by
  apply Bool.eq_false_iff.mpr
  intro locked
  obtain ⟨thread, inside⟩ := sound.locked_iff.mp locked
  exact nobody thread inside

/-- One thread advances, and all that holds of the contest goes on to hold:
only a thread that holds the lock writes the word, so what another one has
read cannot be lost. -/
theorem advance (sound : contest.Sound word work) {thread : Nat}
    {adder : Adder} {spurious : Bool} {outcome : SpinLock × UInt64 × Adder}
    (there : contest.adders[thread]? = some adder)
    (advances :
      adder.Advances contest.lock contest.word spurious outcome)
    {after : Contest}
    (becomes : after =
      { lock := outcome.1
        word := outcome.2.1
        adders := contest.adders.set thread outcome.2.2 })
    (held : ∃ holder, after.use.HeldBy holder) : after.Sound word work := by
  subst becomes
  constructor
  case held =>
    exact held
  case additions =>
    obtain ⟨present, same⟩ := List.getElem?_eq_some_iff.mp there
    rw [List.map_set, advances.additions, ← sound.additions, ← same,
      ← List.map_set, List.set_getElem_self]
  case orderly =>
    intro other member
    rcases List.mem_or_eq_of_mem_set member with before | same
    · exact sound.orderly other before
    · rw [same]
      exact advances.orderly
        (sound.orderly adder (List.mem_of_getElem? there))
  case seen =>
    intro other found seen among reads
    rcases getElem?_set_cases among with ⟨_, rfl⟩ | ⟨apart, before⟩
    · exact advances.seen (sound.seen thread adder seen there) reads
    · rcases advances.word_kept with unchanged | writer
      · rw [unchanged]
        exact sound.seen other found seen before reads
      · -- Both would be inside: the one that has read and the one that writes.
        have reader : found.phase.holds = true := by
          rw [reads]
          rfl
        exact absurd
          (sound.only ⟨found, before, reader⟩ ⟨adder, there, writer⟩) apart
  case total =>
    have sums := sum_map_set Adder.added there outcome.2.2
    have total := sound.total
    unfold Contest.added at total ⊢
    rcases advances.added with ⟨same, counted⟩ |
      ⟨seen, amount, hasRead, written, counted⟩
    · simp only [same]
      omega
    · have current := sound.seen thread adder seen there hasRead
      simp only [written, current, UInt64.toNat_add]
      omega

theorem step (sound : contest.Sound word work) (turn : Turn) :
    (contest.step turn).Sound word work := by
  rcases contest.step_eq turn with
    same | ⟨adder, outcome, there, advances, becomes⟩
  · rw [same]
    exact sound
  · apply sound.advance there advances becomes
    obtain ⟨holder, held⟩ := sound.held
    rcases contest.step_use turn with same | ⟨move, moved⟩
    · rw [same]
      exact ⟨holder, held⟩
    · rw [moved]
      exact held.step turn.adder move

theorem play (sound : contest.Sound word work) (turns : List Turn) :
    (contest.play turns).Sound word work := by
  induction turns generalizing contest with
  | nil =>
      exact sound
  | cons turn turns inductionHypothesis =>
      exact inductionHypothesis (sound.step turn)

/-! ### The end of a contest -/

private theorem pending_nil (finished : contest.finished = true) {adder : Adder}
    (member : adder ∈ contest.adders) : adder.pending = [] :=
  List.isEmpty_iff.mp (List.all_eq_true.mp finished adder member)

theorem lock_free (sound : contest.Sound word work)
    (finished : contest.finished = true) : contest.lock = SpinLock.free := by
  have nobody : ∀ thread, ¬contest.Inside thread := by
    rintro thread ⟨adder, there, holds⟩
    have member := List.mem_of_getElem? there
    exact (sound.orderly adder member).inside holds
      (pending_nil finished member)
  exact congrArg SpinLock.mk (sound.unlocked nobody)

/-- Once every thread has finished, every addition of the work has ended. -/
theorem all_ended (sound : contest.Sound word work)
    (finished : contest.finished = true) :
    contest.adders.map (fun adder => adder.ended.reverse.map Prod.fst) =
      work := by
  rw [← sound.additions]
  apply List.map_congr_left
  intro adder member
  rw [Adder.additions, pending_nil finished member, List.append_nil]

theorem added_of_finished (finished : contest.finished = true) :
    contest.added = (contest.acquired.map UInt64.toNat).sum := by
  rw [Contest.added, acquired, Adder.sum_acquired]
  congr 1
  apply List.map_congr_left
  intro adder member
  exact Adder.added_of_pending_nil (pending_nil finished member)

end Sound

end Contest

/-- Whatever threads do with the lock, one step at a time and in any order, as
long as each gives it up only after it has taken it: at most one of them is
inside at any moment, the flag is set exactly while one is, and trying the
lock once succeeds exactly if the flag is not set.  If what threads do inside
is to add to a word, in separate steps for reading and writing, then when all
have finished every addition has ended, the lock is free, and the word holds
what it held first and the amounts of all additions that took the lock. -/
theorem spin_lock_excludes_and_loses_no_addition :
    (∀ (threads : Nat) (moves : List (Nat × LockStep)),
      let use := (LockUse.start threads).play moves
      (∀ first second, use.Inside first → use.Inside second →
        first = second) ∧
      (use.lock.locked = true ↔ ∃ thread, use.Inside thread) ∧
      ∀ thread user, use.users[thread]? = some user →
        user.watching = false →
        use.step thread .tryOnce =
          if use.lock.locked then use
          else
            { lock := { locked := true }
              users := use.users.set thread { user with holds := true } }) ∧
    ∀ (word : UInt64) (work : List (List Addition)) (turns : List Turn),
      let contest := (Contest.start word work).play turns
      (∀ first second, contest.Inside first → contest.Inside second →
        first = second) ∧
      (contest.lock.locked = true ↔ ∃ thread, contest.Inside thread) ∧
      (∀ turn adder addition later,
        contest.adders[turn.adder]? = some adder →
        adder.phase = .ready → adder.pending = addition :: later →
        addition.waits = false →
        contest.step turn =
          if contest.lock.locked then
            { contest with
              adders := contest.adders.set turn.adder
                { phase := .ready
                  pending := later
                  ended := (addition, false) :: adder.ended } }
          else
            { contest with
              lock := { locked := true }
              adders := contest.adders.set turn.adder
                { adder with phase := .entered } }) ∧
      (contest.finished = true →
        contest.lock = SpinLock.free ∧
        contest.adders.map (fun adder => adder.ended.reverse.map Prod.fst) =
          work ∧
        (∀ adder ∈ contest.adders, ∀ entry ∈ adder.ended,
          entry.1.waits = true → entry.2 = true) ∧
        contest.word.toNat =
          (word.toNat + (contest.acquired.map UInt64.toNat).sum) %
            2 ^ 64) := by
  constructor
  · intro threads moves
    obtain ⟨holder, held⟩ := (LockUse.start_heldBy threads).play moves
    exact ⟨fun _ _ => held.only, held.locked_iff,
      fun _ _ => LockUse.step_tryOnce⟩
  · intro word work turns
    have sound := (Contest.start_sound word work).play turns
    refine ⟨fun _ _ => sound.only, sound.locked_iff,
      fun _ _ _ _ => Contest.step_once, ?_⟩
    intro finished
    refine ⟨sound.lock_free finished, sound.all_ended finished,
      fun adder member => (sound.orderly adder member).waited, ?_⟩
    rw [← Contest.Sound.added_of_finished finished]
    exact sound.total

/-- The first of three threads fails once for no reason and then adds three;
meanwhile the second tries the lock in vain and the third, which is to add
seven, waits.  The word wraps around. -/
theorem additions_past_greatest_word :
    let use := (LockUse.start 2).play
      [(0, .compare true), (0, .watch), (0, .compare false)]
    let contest :=
      (Contest.start 18446744073709551615
        [[{ amount := 3, waits := true }], [{ amount := 5, waits := false }],
          [{ amount := 7, waits := true }]]).play
        ({ adder := 0, spurious := true } ::
          [0, 0, 1, 2, 0, 0, 0, 2, 2, 2, 2, 2].map (Turn.mk · false))
    use.lock.locked = true ∧ use.step 1 .tryOnce = use ∧
      contest.finished = true ∧ contest.acquired = [3, 7] ∧
      contest.word.toNat = 9 := by
  intro use contest
  have finished : contest.finished = true := by
    decide +kernel
  have ends := (spin_lock_excludes_and_loses_no_addition.2 _ _ _).2.2.2 finished
  have taken : use.lock.locked = true := by
    decide +kernel
  have tries := (spin_lock_excludes_and_loses_no_addition.1 2 _).2.2 1
    LockUser.idle (by decide +kernel : use.users[1]? = some LockUser.idle) rfl
  refine ⟨taken, ?_, finished, by decide +kernel, ?_⟩
  · exact tries.trans (if_pos taken)
  · rw [ends.2.2.2]
    decide +kernel

end LeveledLog
