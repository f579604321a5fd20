/-
What the history of a pool tells about the calls of its threads.

A history lists events, the latest first.  From it can be read which calls a
thread has begun, in which call it is, which calls have returned, and what
destinations accepted in the calls that someone asks about.  The calls that a
thread has begun are the first ones of those that it was given to make, and all
of them in the end, unless one panics.
-/

import LeveledLog.Proofs.Regime
import Mathlib.Data.List.Infix

namespace LeveledLog

/-- A list that was made longer by one item is split at that item or before
it. -/
theorem snoc_split {α : Type} {list first rest : List α} {last found : α}
    (split : list ++ [last] = first ++ found :: rest) :
    (rest = [] ∧ list = first ∧ last = found) ∨
      ∃ shorter, rest = shorter ++ [last] ∧
        list = first ++ found :: shorter := by
  rcases List.eq_nil_or_concat rest with none | ⟨shorter, final, longer⟩
  · subst none
    obtain ⟨same, single⟩ := List.append_inj' split rfl
    exact .inl ⟨rfl, same, (List.cons.inj single).1⟩
  · rw [List.concat_eq_append] at longer
    subst longer
    have ends : list ++ [last] = (first ++ found :: shorter) ++ [final] := by
      rw [split]
      simp
    obtain ⟨same, single⟩ := List.append_inj' ends rfl
    rw [(List.cons.inj single).1]
    exact .inr ⟨shorter, rfl, same⟩

def Event.begun? (event : Event) : Option Command :=
  match event.deed with
  | .began command => some command
  | .performed _ _ | .returned _ | .panicked _ => none

namespace History

/-- The latest call that a thread has begun; the latest event stands first. -/
def lastCall (thread : Nat) (history : List Event) : Option Command :=
  history.findSome? fun event =>
    if event.thread = thread then event.begun? else none

def begunBy (thread : Nat) : List Event → List Command
  | [] => []
  | event :: earlier =>
      begunBy thread earlier ++
        (if event.thread = thread then event.begun?.toList else [])

def returned : List Event → List Command
  | [] => []
  | event :: earlier =>
      match event.deed with
      | .returned _ =>
          (lastCall event.thread earlier).toList ++ returned earlier
      | .began _ | .performed _ _ | .panicked _ => returned earlier

def acceptedIn (asked : Nat → Command → Bool) : List Event → List Delivery
  | [] => []
  | event :: earlier =>
      acceptedIn asked earlier ++
        (if (lastCall event.thread earlier).all (asked event.thread) then
          event.deed.accepted
        else
          [])

theorem mem_begun_of_lastCall {thread : Nat} {history : List Event}
    {command : Command} (last : lastCall thread history = some command) :
    command ∈ history.filterMap Event.begun? := by
  obtain ⟨event, member, begins⟩ := List.exists_of_findSome?_eq_some last
  rw [List.mem_filterMap]
  refine ⟨event, member, ?_⟩
  split at begins
  · exact begins
  · cases begins

end History

namespace Pool

def calling (pool : Pool) (thread : Nat) : Option Command :=
  History.lastCall thread pool.history

def begun (pool : Pool) : List Command :=
  pool.history.filterMap Event.begun?

def begunBy (pool : Pool) (thread : Nat) : List Command :=
  History.begunBy thread pool.history

def returned (pool : Pool) : List Command :=
  History.returned pool.history

def acceptedIn (pool : Pool) (asked : Nat → Command → Bool) :
    List Delivery :=
  History.acceptedIn asked pool.history

def AboutTo (pool : Pool) (thread : Nat) (action : Action) : Prop :=
  ∃ next pending, pool.threads[thread]? =
    some { current := some (.step action next), pending := pending }

def calls (pool : Pool) (thread : Nat) : List Command :=
  pool.begunBy thread ++
    match pool.threads[thread]? with
    | some state => state.pending
    | none => []

/-! ### One more event -/

variable {pool : Pool} {thread : Nat} {world : World} {state : ThreadState}

theorem calling_note (deed : Deed) (other : Nat) :
    (pool.note thread world state deed).calling other =
      if thread = other then
        (Event.begun? { thread := thread, deed := deed }).or
          (pool.calling other)
      else pool.calling other := by
  unfold calling History.lastCall note
  rw [List.findSome?_cons]
  by_cases same : thread = other
  · rw [if_pos same, if_pos same]
    cases Event.begun? { thread := thread, deed := deed } with
    | none | some =>
        rfl
  · rw [if_neg same, if_neg same]

theorem begun_note (deed : Deed) :
    (pool.note thread world state deed).begun =
      (Event.begun? { thread := thread, deed := deed }).toList ++
        pool.begun := by
  unfold begun note
  rw [List.filterMap_cons]
  cases Event.begun? { thread := thread, deed := deed } with
  | none | some =>
      rfl

theorem begunBy_note (deed : Deed) (other : Nat) :
    (pool.note thread world state deed).begunBy other =
      pool.begunBy other ++
        (if thread = other then
          (Event.begun? { thread := thread, deed := deed }).toList
        else
          []) := rfl

theorem acceptedIn_note (deed : Deed) (asked : Nat → Command → Bool) :
    (pool.note thread world state deed).acceptedIn asked =
      pool.acceptedIn asked ++
        (if (pool.calling thread).all (asked thread) then
          deed.accepted
        else
          []) := rfl

theorem acceptedIn_note_silent {deed : Deed} (silent : deed.accepted = [])
    (asked : Nat → Command → Bool) :
    (pool.note thread world state deed).acceptedIn asked =
      pool.acceptedIn asked := by
  rw [acceptedIn_note, silent, ite_self, List.append_nil]

theorem begunBy_note_silent {deed : Deed}
    (silent : Event.begun? { thread := thread, deed := deed } = none) :
    (pool.note thread world state deed).begunBy = pool.begunBy := by
  funext other
  rw [begunBy_note, silent, Option.toList_none, ite_self, List.append_nil]

theorem panicked_note (deed : Deed) :
    (pool.note thread world state deed).panicked =
      (deed.panics || pool.panicked) := rfl

/-! ### The calls that a thread was given to make -/

private theorem calls_start (world : World) (work : List (List Command))
    (thread : Nat) :
    (start world work).calls thread = work.getD thread [] := by
  unfold calls
  change [] ++ (match (work.map ThreadState.start)[thread]? with
    | some state => state.pending
    | none => []) = _
  rw [List.nil_append, List.getElem?_map, List.getD_eq_getElem?_getD]
  cases work[thread]? with
  | none | some =>
      rfl

private theorem calls_note {deed : Deed} {changed : ThreadState}
    (present : pool.threads[thread]? = some state)
    (moves : (Event.begun? { thread := thread, deed := deed }).toList ++
      changed.pending = state.pending) (other : Nat) :
    (pool.note thread world changed deed).calls other =
      pool.calls other := by
  unfold calls
  rw [begunBy_note]
  by_cases same : other = thread
  · subst same
    rw [if_pos rfl, note_threads_same present, present, List.append_assoc]
    exact congrArg _ moves
  · rw [if_neg (Ne.symm same), List.append_nil,
      note_threads_of_ne pool world changed deed same]

private theorem calls_note_panic {text : String}
    (present : pool.threads[thread]? = some state) (other : Nat) :
    (pool.note thread world { current := none, pending := [] }
        (.panicked text)).calls other <+: pool.calls other := by
  unfold calls
  rw [begunBy_note]
  by_cases same : other = thread
  · subst same
    rw [if_pos rfl, note_threads_same present, present]
    simp [Event.begun?]
  · rw [if_neg (Ne.symm same), List.append_nil,
      note_threads_of_ne pool world _ _ same]

structure KeepsCalls (before after : Pool) (thread : Nat) : Prop where
  fewer : after.calls thread <+: before.calls thread
  calm : after.panicked = false →
    before.panicked = false ∧ after.calls thread = before.calls thread

theorem KeepsCalls.refl (pool : Pool) (thread : Nat) :
    pool.KeepsCalls pool thread :=
  ⟨List.prefix_rfl, fun calm => ⟨calm, rfl⟩⟩

theorem KeepsCalls.trans {first second third : Pool} {thread : Nat}
    (earlier : first.KeepsCalls second thread)
    (later : second.KeepsCalls third thread) :
    first.KeepsCalls third thread where
  fewer := later.fewer.trans earlier.fewer
  calm calm := by
    obtain ⟨calmBefore, same⟩ := later.calm calm
    obtain ⟨calmFirst, sameFirst⟩ := earlier.calm calmBefore
    exact ⟨calmFirst, same.trans sameFirst⟩

private theorem keepsCalls_note {deed : Deed} {changed : ThreadState}
    (present : pool.threads[thread]? = some state)
    (moves : (Event.begun? { thread := thread, deed := deed }).toList ++
      changed.pending = state.pending) (other : Nat) :
    pool.KeepsCalls (pool.note thread world changed deed) other where
  fewer := by
    rw [calls_note present moves]
  calm calm := by
    rw [panicked_note] at calm
    exact ⟨(Bool.or_eq_false_iff.mp calm).2, calls_note present moves other⟩

private theorem keepsCalls_step (pool : Pool) (thread other : Nat) :
    pool.KeepsCalls (pool.step thread) other := by
  cases present : pool.threads[thread]? with
  | none =>
      rw [step_of_absent present]
      exact .refl pool other
  | some state =>
      rcases state with ⟨current, pending⟩
      cases current with
      | none =>
          cases pending with
          | nil =>
              rw [step_of_finished present]
              exact .refl pool other
          | cons command commands =>
              rw [step_of_begin present]
              exact keepsCalls_note present rfl other
      | some script =>
          cases script with
          | done value =>
              rw [step_of_return present]
              exact keepsCalls_note present rfl other
          | panic text =>
              rw [step_of_panic present]
              refine ⟨calls_note_panic present other, ?_⟩
              rw [panicked_note]
              intro impossible
              cases impossible
          | step action next =>
              cases performs : action.perform thread pool.world with
              | none =>
                  rw [step_of_wait present performs]
                  exact .refl pool other
              | some performed =>
                  rw [step_of_perform present performs]
                  exact keepsCalls_note present rfl other

private theorem keepsCalls_play (pool : Pool) (schedule : List Nat)
    (thread : Nat) : pool.KeepsCalls (pool.play schedule) thread := by
  induction schedule generalizing pool with
  | nil =>
      exact .refl pool thread
  | cons first schedule inductionHypothesis =>
      rw [play_cons]
      exact (pool.keepsCalls_step first thread).trans
        (inductionHypothesis (pool.step first))

private theorem calls_of_finished (finished : pool.finished = true)
    (thread : Nat) : pool.calls thread = pool.begunBy thread := by
  unfold calls
  cases present : pool.threads[thread]? with
  | none =>
      exact List.append_nil _
  | some state =>
      have ended := List.all_eq_true.mp finished state
        (List.mem_of_getElem? present)
      have empty : state.pending = [] :=
        List.isEmpty_iff.mp (Bool.and_eq_true_iff.mp ended).2
      change _ ++ state.pending = _
      rw [empty, List.append_nil]

/-- When nobody has anything left to do, a thread has begun the first calls
that it was given to make, and all of them if no call panicked. -/
theorem begunBy_of_finished (world : World) (work : List (List Command))
    (schedule : List Nat)
    (finished : ((start world work).play schedule).finished = true)
    (thread : Nat) :
    ((start world work).play schedule).begunBy thread <+:
        work.getD thread [] ∧
      (((start world work).play schedule).panicked = false →
        ((start world work).play schedule).begunBy thread =
          work.getD thread []) := by
  obtain ⟨fewer, same⟩ := (start world work).keepsCalls_play schedule thread
  rw [calls_start, calls_of_finished finished] at fewer same
  exact ⟨fewer, fun calm => (same calm).2⟩

end Pool

end LeveledLog
