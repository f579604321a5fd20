/-
Contests played to their end.

A thread that goes on alone, while no other one is inside, takes at most
`Adder.left` steps, and then it has nothing left to do.  So once each thread
in turn has gone on alone the lock is free, and once each has done so again
every thread has finished.  A guarded word that threads add to together
therefore always comes to the sum of what it held and what they added.
-/

import LeveledLog.Proofs.LockedAdditions

namespace LeveledLog

/-! ### Steps that a thread has left -/

/-- How many steps a thread can still take on its own before it has nothing
left to do or watches a lock that is taken. -/
def Adder.left (adder : Adder) (lock : SpinLock) : Nat :=
  match adder.phase with
  | .ready => 4 * adder.pending.length
  | .watching => if lock.locked then 0 else 4 * adder.pending.length + 1
  | .entered => 4 * adder.pending.length - 1
  | .read _ => 4 * adder.pending.length - 2
  | .written => 4 * adder.pending.length - 3

private theorem Adder.left_le (adder : Adder) (lock : SpinLock) :
    adder.left lock ≤ 4 * adder.pending.length + 1 := by
  unfold left
  split
  · omega
  · split <;> omega
  · omega
  · omega
  · omega

private theorem Adder.Advances.left_lt {lock : SpinLock} {word : UInt64}
    {adder : Adder} {outcome : SpinLock × UInt64 × Adder}
    (advances : adder.Advances lock word false outcome)
    (more : adder.pending ≠ [])
    (able : ¬(adder.phase = .watching ∧ lock.locked = true)) :
    outcome.2.2.left outcome.1 < adder.left lock := by
  have some := List.length_pos_iff.mpr more
  cases advances with
  | rests idle =>
      exact absurd idle (not_or.mpr ⟨more, able⟩)
  | waits ready _ refused =>
      have locked := refused.resolve_left Bool.false_ne_true
      simp only [left, ready, locked, if_pos]
      omega
  | retries watches _ free =>
      simp [left, watches, free]
  | enters ready =>
      simp only [left, ready]
      omega
  | misses ready pending =>
      simp [left, ready, pending]
  | reads inside =>
      simp only [left, inside]
      omega
  | writes hasRead =>
      simp only [left, hasRead]
      omega
  | leaves done pending =>
      simp only [left, done, pending, List.length_cons]
      omega

namespace Contest

def left (contest : Contest) (thread : Nat) : Nat :=
  match contest.adders[thread]? with
  | none => 0
  | some adder => adder.left contest.lock

variable {contest : Contest} {thread other : Nat}
variable {word : UInt64} {work : List (List Addition)}

private theorem left_of {adder : Adder}
    (there : contest.adders[thread]? = some adder) :
    contest.left thread = adder.left contest.lock := by
  rw [left, there]

private theorem not_idle {adder : Adder}
    (there : contest.adders[thread]? = some adder)
    (busy : contest.idle thread = false) :
    adder.pending ≠ [] ∧
      ¬(adder.phase = .watching ∧ contest.lock.locked = true) := by
  simpa [idle, there] using busy

private theorem step_left_lt (busy : contest.idle thread = false) :
    (contest.step { adder := thread, spurious := false }).left thread <
      contest.left thread := by
  cases there : contest.adders[thread]? with
  | none =>
      simp [idle, there] at busy
  | some adder =>
      obtain ⟨more, able⟩ := not_idle there busy
      obtain ⟨outcome, advances, becomes⟩ :=
        @step_of_present contest { adder := thread, spurious := false } _ there
      have present := (List.getElem?_eq_some_iff.mp there).1
      rw [becomes, left_of there, left_of (List.getElem?_set_self present)]
      exact advances.left_lt more able

private theorem step_others {turn : Turn} (apart : other ≠ turn.adder) :
    (contest.step turn).adders[other]? = contest.adders[other]? := by
  rcases contest.step_eq turn with same | ⟨_, _, _, _, becomes⟩
  · rw [same]
  · rw [becomes]
    exact List.getElem?_set_ne (Ne.symm apart)

/-! ### A thread that goes on alone -/

private theorem goOn_idle {limit : Nat} (enough : contest.left thread ≤ limit) :
    (goOn thread limit contest).idle thread = true := by
  induction limit generalizing contest with
  | zero =>
      rw [goOn]
      by_contra busy
      have less := step_left_lt (Bool.eq_false_iff.mpr busy)
      omega
  | succ limit inductionHypothesis =>
      rw [goOn]
      split
      · assumption
      · rename_i busy
        have less := step_left_lt (Bool.eq_false_iff.mpr busy)
        apply inductionHypothesis
        omega

private theorem goOn_others (apart : other ≠ thread) (limit : Nat) :
    (goOn thread limit contest).adders[other]? = contest.adders[other]? := by
  induction limit generalizing contest with
  | zero =>
      rfl
  | succ limit inductionHypothesis =>
      rw [goOn]
      split
      · rfl
      · rw [inductionHypothesis, step_others apart]

private theorem Sound.goOn (sound : contest.Sound word work) (limit : Nat) :
    (goOn thread limit contest).Sound word work := by
  induction limit generalizing contest with
  | zero =>
      exact sound
  | succ limit inductionHypothesis =>
      rw [Contest.goOn]
      split
      · exact sound
      · exact inductionHypothesis (sound.step _)

def Done (contest : Contest) (thread : Nat) : Prop :=
  ∀ adder, contest.adders[thread]? = some adder → adder.pending = []

private theorem finished_iff :
    contest.finished = true ↔ ∀ thread, contest.Done thread := by
  unfold finished Done
  rw [List.all_eq_true, forall_comm]
  simp [List.mem_iff_getElem?]

def letAlone (contest : Contest) (thread : Nat) : Contest :=
  match contest.adders[thread]? with
  | none => contest
  | some adder => goOn thread (4 * adder.pending.length + 1) contest

private theorem pass_eq (contest : Contest) :
    contest.pass =
      (List.range contest.adders.length).foldl letAlone contest :=
  rfl

private theorem letAlone_others (apart : other ≠ thread) :
    (contest.letAlone thread).adders[other]? = contest.adders[other]? := by
  unfold letAlone
  split
  · rfl
  · exact goOn_others apart _

private theorem Sound.letAlone (sound : contest.Sound word work)
    (thread : Nat) : (contest.letAlone thread).Sound word work := by
  unfold Contest.letAlone
  split
  · exact sound
  · exact sound.goOn _

private theorem letAlone_idle (contest : Contest) (thread : Nat) :
    (contest.letAlone thread).idle thread = true := by
  unfold letAlone
  split
  · rename_i absent
    rw [idle, absent]
  · rename_i adder there
    apply goOn_idle
    rw [left_of there]
    exact adder.left_le contest.lock

theorem Sound.alone (sound : contest.Sound word work)
    (alone : ∀ other, contest.Inside other → other = thread) :
    (∀ other, ¬(contest.letAlone thread).Inside other) ∧
      (contest.letAlone thread).Done thread := by
  have idle := letAlone_idle contest thread
  have after := sound.letAlone thread
  generalize becomes : contest.letAlone thread = reached at *
  have nobody : ∀ other, ¬reached.Inside other := by
    rintro other ⟨adder, there, holds⟩
    by_cases apart : other = thread
    · subst apart
      have pending := (after.orderly adder (List.mem_of_getElem? there)).inside
        holds
      have watches : adder.phase ≠ .watching := by
        intro watching
        rw [watching] at holds
        cases holds
      simp [Contest.idle, there, pending, watches] at idle
    · rw [← becomes, letAlone_others apart] at there
      exact apart (alone other ⟨adder, there, holds⟩)
  refine ⟨nobody, ?_⟩
  intro adder there
  have free := after.unlocked nobody
  simpa [Contest.idle, there, free] using idle

/-! ### All threads, one after the other -/

private theorem Sound.leaves (sound : contest.Sound word work)
    {threads : List Nat}
    (among : ∀ other, contest.Inside other → other ∈ threads) :
    (threads.foldl Contest.letAlone contest).Sound word work ∧
      ∀ other, ¬(threads.foldl Contest.letAlone contest).Inside other := by
  induction threads generalizing contest with
  | nil =>
      exact ⟨sound, fun other inside => List.not_mem_nil (among other inside)⟩
  | cons thread threads inductionHypothesis =>
      have after := sound.letAlone thread
      apply inductionHypothesis after
      intro other inside
      by_cases alone : ∀ holder, contest.Inside holder → holder = thread
      · exact absurd inside ((sound.alone alone).1 other)
      · -- The holder is another thread, which has its turn later.
        obtain ⟨holder, was, apart⟩ := by simpa using alone
        obtain ⟨adder, there, holds⟩ := was
        have still : (contest.letAlone thread).Inside holder :=
          ⟨adder, (letAlone_others apart).trans there, holds⟩
        rw [after.only inside still]
        exact List.mem_of_ne_of_mem apart
          (among holder ⟨adder, there, holds⟩)

/-- From a free lock on, every thread that has had its turn is done. -/
theorem Sound.ends (sound : contest.Sound word work)
    (nobody : ∀ other, ¬contest.Inside other) (threads : List Nat) :
    (threads.foldl Contest.letAlone contest).Sound word work ∧
      ∀ thread, thread ∈ threads ∨ contest.Done thread →
        (threads.foldl Contest.letAlone contest).Done thread := by
  induction threads generalizing contest with
  | nil =>
      exact ⟨sound, fun thread done => done.resolve_left List.not_mem_nil⟩
  | cons first threads inductionHypothesis =>
      have alone : ∀ other, contest.Inside other → other = first :=
        fun other inside => absurd inside (nobody other)
      obtain ⟨left, done⟩ := sound.alone alone
      obtain ⟨after, ends⟩ := inductionHypothesis (sound.letAlone first) left
      refine ⟨after, fun thread before => ends thread ?_⟩
      by_cases same : thread = first
      · rw [same]
        exact .inr done
      · rcases before with member | earlier
        · exact .inl (List.mem_of_ne_of_mem same member)
        · right
          intro adder there
          rw [letAlone_others same] at there
          exact earlier adder there

/-! ### The whole contest -/

private theorem Sound.length (sound : contest.Sound word work) :
    contest.adders.length = work.length := by
  rw [← sound.additions, List.length_map]

private theorem Sound.pass_leaves (sound : contest.Sound word work) :
    contest.pass.Sound word work ∧ ∀ other, ¬contest.pass.Inside other := by
  rw [pass_eq]
  apply sound.leaves
  rintro other ⟨adder, there, _⟩
  exact List.mem_range.mpr (List.getElem?_eq_some_iff.mp there).1

private theorem Sound.pass_ends (sound : contest.Sound word work)
    (nobody : ∀ other, ¬contest.Inside other) :
    contest.pass.Sound word work ∧ contest.pass.finished = true := by
  rw [pass_eq]
  obtain ⟨after, ends⟩ :=
    sound.ends nobody (List.range contest.adders.length)
  refine ⟨after, finished_iff.mpr ?_⟩
  intro thread adder there
  have present := (List.getElem?_eq_some_iff.mp there).1
  rw [after.length, ← sound.length] at present
  exact ends thread (.inl (List.mem_range.mpr present)) adder there

private theorem Sound.playRounds (sound : contest.Sound word work)
    (limit : Nat) : (playRounds limit contest).Sound word work := by
  induction limit generalizing contest with
  | zero =>
      exact sound
  | succ limit inductionHypothesis =>
      rw [Contest.playRounds]
      split
      · exact sound
      · exact inductionHypothesis (sound.play contest.round)

theorem Sound.playOut (sound : contest.Sound word work) :
    contest.playOut.Sound word work ∧ contest.playOut.finished = true := by
  obtain ⟨first, nobody⟩ := (sound.playRounds openingRounds).pass_leaves
  exact first.pass_ends nobody

end Contest

/-! ### Guarded words -/

private theorem Adder.acquired_sum {adder : Adder} (orderly : adder.Orderly)
    (waits : ∀ addition ∈ adder.ended.reverse.map Prod.fst,
      addition.waits = true) :
    (adder.acquired.map UInt64.toNat).sum =
      ((adder.ended.reverse.map Prod.fst).map fun addition =>
        addition.amount.toNat).sum := by
  have all : adder.ended.filter Prod.snd = adder.ended := by
    rw [List.filter_eq_self]
    intro entry member
    apply orderly.waited entry member
    apply waits
    exact List.mem_map_of_mem (List.mem_reverse.mpr member)
  rw [acquired, all, List.map_reverse, List.map_reverse, List.sum_reverse,
    List.map_map, List.map_map]
  rfl

namespace GuardedWord

variable {guarded : GuardedWord}

/-- Additions of any threads to a word whose lock is free all end, and the word
then holds what it held first and the amounts of those that took the lock. -/
theorem addTogether_spec (free : guarded.lock = SpinLock.free)
    (work : List (List Addition)) :
    (guarded.addTogether work).1.lock = SpinLock.free ∧
      (guarded.addTogether work).2.map
          (fun adder => adder.ended.reverse.map Prod.fst) = work ∧
      (∀ adder ∈ (guarded.addTogether work).2, adder.Orderly) ∧
      (guarded.addTogether work).1.word.toNat =
        (guarded.word.toNat +
          (((guarded.addTogether work).2.flatMap Adder.acquired).map
            UInt64.toNat).sum) % 2 ^ 64 := by
  have begins : Contest.start guarded.word work =
      { lock := guarded.lock
        word := guarded.word
        adders := work.map Adder.start } := by
    rw [free]
    rfl
  obtain ⟨sound, finished⟩ := (Contest.start_sound guarded.word work).playOut
  have total := sound.total
  rw [Contest.Sound.added_of_finished finished] at total
  rw [begins] at sound finished total
  exact ⟨sound.lock_free finished, sound.all_ended finished, sound.orderly,
    total⟩

private theorem addTogether_of_waiting (free : guarded.lock = SpinLock.free)
    {work : List (List Addition)}
    (waits : ∀ additions ∈ work, ∀ addition ∈ additions,
      addition.waits = true) :
    (guarded.addTogether work).1.lock = SpinLock.free ∧
      (guarded.addTogether work).1.word.toNat =
        (guarded.word.toNat +
          (work.map fun additions =>
            (additions.map fun addition => addition.amount.toNat).sum).sum) %
          2 ^ 64 := by
  obtain ⟨unlocked, made, orderly, total⟩ := addTogether_spec free work
  refine ⟨unlocked, ?_⟩
  generalize guarded.addTogether work = outcome at *
  have each : outcome.2.map (fun adder =>
        (adder.acquired.map UInt64.toNat).sum) =
      work.map fun additions =>
        (additions.map fun addition => addition.amount.toNat).sum := by
    rw [← made, List.map_map]
    apply List.map_congr_left
    intro adder member
    apply Adder.acquired_sum (orderly adder member)
    apply waits
    rw [← made]
    exact List.mem_map_of_mem member
  rw [total, Adder.sum_acquired, each]

/-- However threads take turns, no count is lost. -/
theorem count_word (free : guarded.lock = SpinLock.free)
    (threads rounds : Nat) :
    (guarded.count threads rounds).lock = SpinLock.free ∧
      (guarded.count threads rounds).word.toNat =
        (guarded.word.toNat + threads * rounds) % 2 ^ 64 := by
  unfold count
  split
  · rename_i none
    have bound := guarded.word.toNat_lt
    rw [none, Nat.zero_mul, Nat.add_zero]
    exact ⟨free, (Nat.mod_eq_of_lt bound).symm⟩
  · have waits : ∀ additions ∈ List.replicate threads
          (List.replicate rounds { amount := 1, waits := true }),
        ∀ addition ∈ additions, Addition.waits addition = true := by
      intro additions member addition among
      rw [List.eq_of_mem_replicate member] at among
      rw [List.eq_of_mem_replicate among]
    have counted := addTogether_of_waiting free waits
    simpa using counted

example : (GuardedWord.start.count 3 4).word = 12 := by
  decide +kernel

end GuardedWord

end LeveledLog
