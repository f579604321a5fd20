/-
What the history of a pool tells about changes of the module table.

A thread makes its calls one after the other, so that a call is known by its
thread and by its number among the calls of that thread.  The history tells
which calls have been begun and which have returned, and with which answer; in
which order calls have stored the module table; and how many of these changes
the mirror of the table has been brought up to.  Whatever it tells at one
moment of a schedule it tells at all later moments.
-/

import LeveledLog.Proofs.BoundedSet
import LeveledLog.Proofs.History
import Mathlib.Data.List.Induction

namespace LeveledLog

/-! ### Calls and changes -/

/-- A call: the thread that makes it, and how many calls the thread has begun
before it. -/
structure Invocation where
  thread : Nat
  number : Nat
deriving DecidableEq

structure TableChange where
  call : Invocation
  change : ModuleChange
deriving DecidableEq

def Role.moduleChange? : Role → Option ModuleChange
  | .changesModules change => some change
  | .peripheral | .initialises | .setsLevel _ => none

/-- What a call does to the module table, if it changes it. -/
def Command.moduleChange? (command : Command) : Option ModuleChange :=
  command.role.moduleChange?

def ModuleTable.after (table : ModuleTable) (changes : List TableChange) :
    ModuleTable :=
  table.changeAll (changes.map TableChange.change)

theorem ModuleTable.after_append (table : ModuleTable)
    (earlier later : List TableChange) :
    table.after (earlier ++ later) = (table.after earlier).after later := by
  unfold after changeAll
  rw [List.map_append, List.foldl_append]

def latestChange? (thread : Nat) (begun : List Command) :
    Option TableChange :=
  (begun.getLast?.bind Command.moduleChange?).map fun change =>
    { call := { thread := thread, number := begun.length - 1 }
      change := change }

def changesOf (thread : Nat) (begun : List Command) : List TableChange :=
  begun.zipIdx.filterMap fun counted =>
    counted.1.moduleChange?.map fun change =>
      { call := { thread := thread, number := counted.2 }
        change := change }

section ChangesOf

variable {thread : Nat} {begun : List Command} {command : Command}

theorem latestChange?_concat :
    latestChange? thread (begun ++ [command]) =
      command.moduleChange?.map fun change =>
        { call := { thread := thread, number := begun.length }
          change := change } := by
  unfold latestChange?
  rw [List.getLast?_concat, List.length_append]
  rfl

theorem changesOf_concat :
    changesOf thread (begun ++ [command]) =
      changesOf thread begun ++
        (latestChange? thread (begun ++ [command])).toList := by
  unfold changesOf
  rw [latestChange?_concat, List.zipIdx_append, List.filterMap_append,
    Nat.zero_add, List.zipIdx_singleton, List.filterMap_cons]
  cases command.moduleChange? with
  | none | some =>
      rfl

theorem changesOf_concat_of_none (unchanged : command.moduleChange? = none) :
    changesOf thread (begun ++ [command]) = changesOf thread begun := by
  rw [changesOf_concat, latestChange?_concat, unchanged]
  exact List.append_nil _

theorem mem_changesOf {entry : TableChange} :
    entry ∈ changesOf thread begun ↔
      entry.call.thread = thread ∧
        begun[entry.call.number]?.bind Command.moduleChange? =
          some entry.change := by
  unfold changesOf
  rw [List.mem_filterMap]
  constructor
  · rintro ⟨⟨command, number⟩, listed, changes⟩
    obtain ⟨change, made, same⟩ := Option.map_eq_some_iff.mp changes
    subst same
    refine ⟨rfl, ?_⟩
    rw [List.mk_mem_zipIdx_iff_getElem?.mp listed]
    exact made
  · rintro ⟨own, changes⟩
    obtain ⟨command, found, made⟩ := Option.bind_eq_some_iff.mp changes
    refine ⟨(command, entry.call.number),
      List.mk_mem_zipIdx_iff_getElem?.mpr found, ?_⟩
    rw [made, ← own]
    rfl

theorem nodup_changesOf (thread : Nat) (begun : List Command) :
    ((changesOf thread begun).map TableChange.call).Nodup := by
  induction begun using List.reverseRecOn with
  | nil =>
      exact List.nodup_nil
  | append_singleton begun command inductionHypothesis =>
      rw [changesOf_concat, latestChange?_concat]
      cases command.moduleChange? with
      | none =>
          rw [Option.map_none, Option.toList_none, List.append_nil]
          exact inductionHypothesis
      | some change =>
          rw [Option.map_some, Option.toList_some, List.map_append]
          refine List.nodup_append.mpr
            ⟨inductionHypothesis, List.nodup_singleton _, ?_⟩
          intro earlier member last single same
          -- An earlier call has a smaller number than the last one.
          rw [List.map_singleton, List.mem_singleton] at single
          subst single same
          obtain ⟨entry, listed, called⟩ := List.mem_map.mp member
          obtain ⟨found, present, _⟩ :=
            Option.bind_eq_some_iff.mp (mem_changesOf.mp listed).2
          have small := (List.getElem?_eq_some_iff.mp present).1
          rw [called] at small
          exact Nat.lt_irrefl _ small

end ChangesOf

/-! ### What the history tells -/

namespace Event

def returned? (event : Event) : Option Value :=
  match event.deed with
  | .returned value => some value
  | .began _ | .performed _ _ | .panicked _ => none

def stores (event : Event) (cell : Cell) : Bool :=
  match event.deed with
  | .performed (.store stored _) _ => stored = cell
  | _ => false

end Event

namespace History

def answersTo (thread : Nat) : List Event → List Value
  | [] => []
  | event :: earlier =>
      answersTo thread earlier ++
        (if event.thread = thread then event.returned?.toList else [])

def tableChanges : List Event → List TableChange
  | [] => []
  | event :: earlier =>
      tableChanges earlier ++
        (if event.stores .modules then
          (latestChange? event.thread (begunBy event.thread earlier)).toList
        else
          [])

def mirrored (history : List Event) : Nat :=
  history.countP fun event => event.stores .filterActive

private theorem prefix_of_suffix {α : Type} {tells : List Event → List α}
    (grows : ∀ event earlier, tells earlier <+: tells (event :: earlier))
    {earlier later : List Event} (longer : earlier <:+ later) :
    tells earlier <+: tells later := by
  induction later with
  | nil =>
      rw [List.suffix_nil.mp longer]
  | cons event later inductionHypothesis =>
      rcases List.suffix_cons_iff.mp longer with same | shorter
      · rw [same]
      · exact (inductionHypothesis shorter).trans (grows event later)

end History

namespace Pool

def answersTo (pool : Pool) (thread : Nat) : List Value :=
  History.answersTo thread pool.history

def tableChanges (pool : Pool) : List TableChange :=
  History.tableChanges pool.history

def mirrored (pool : Pool) : Nat :=
  History.mirrored pool.history

/-- The changes that the mirror of the module table has been brought up to. -/
def mirroredChanges (pool : Pool) : List TableChange :=
  pool.tableChanges.take pool.mirrored

def command? (pool : Pool) (call : Invocation) : Option Command :=
  (pool.begunBy call.thread)[call.number]?

def answer? (pool : Pool) (call : Invocation) : Option Value :=
  (pool.answersTo call.thread)[call.number]?

def Begun (pool : Pool) (call : Invocation) : Prop :=
  call.number < (pool.begunBy call.thread).length

def Returned (pool : Pool) (call : Invocation) : Prop :=
  call.number < (pool.answersTo call.thread).length

instance (pool : Pool) (call : Invocation) : Decidable (pool.Begun call) :=
  inferInstanceAs (Decidable (_ < _))

instance (pool : Pool) (call : Invocation) :
    Decidable (pool.Returned call) :=
  inferInstanceAs (Decidable (_ < _))

/-! ### One more event -/

section Note

variable {pool : Pool} {thread : Nat} {world : World} {state : ThreadState}

theorem answersTo_note (deed : Deed) (other : Nat) :
    (pool.note thread world state deed).answersTo other =
      pool.answersTo other ++
        (if thread = other then
          (Event.returned? { thread := thread, deed := deed }).toList
        else
          []) := rfl

theorem answersTo_note_silent {deed : Deed}
    (silent : Event.returned? { thread := thread, deed := deed } = none) :
    (pool.note thread world state deed).answersTo = pool.answersTo := by
  funext other
  rw [answersTo_note, silent, Option.toList_none, ite_self, List.append_nil]

theorem tableChanges_note (deed : Deed) :
    (pool.note thread world state deed).tableChanges =
      pool.tableChanges ++
        (if Event.stores { thread := thread, deed := deed } .modules then
          (latestChange? thread (pool.begunBy thread)).toList
        else
          []) := rfl

theorem mirrored_note (deed : Deed) :
    (pool.note thread world state deed).mirrored =
      pool.mirrored +
        (if Event.stores { thread := thread, deed := deed } .filterActive then
          1
        else
          0) := by
  unfold mirrored History.mirrored
  exact List.countP_cons

end Note

/-! ### Longer schedules -/

private theorem step_eq_or_note (pool : Pool) (thread : Nat) :
    pool.step thread = pool ∨
      ∃ world state deed,
        pool.step thread = pool.note thread world state deed := by
  unfold step
  cases pool.threads[thread]? with
  | none =>
      exact .inl rfl
  | some state =>
      simp only [advance]
      split
      · split
        · exact .inl rfl
        · exact .inr ⟨_, _, _, rfl⟩
      · exact .inr ⟨_, _, _, rfl⟩
      · exact .inr ⟨_, _, _, rfl⟩
      · split
        · exact .inl rfl
        · exact .inr ⟨_, _, _, rfl⟩

private theorem history_play (pool : Pool) (schedule : List Nat) :
    pool.history <:+ (pool.play schedule).history := by
  induction schedule generalizing pool with
  | nil =>
      exact List.suffix_rfl
  | cons thread schedule inductionHypothesis =>
      refine List.IsSuffix.trans ?_ (inductionHypothesis (pool.step thread))
      rcases pool.step_eq_or_note thread with same | ⟨_, _, _, noted⟩
      · rw [same]
      · rw [noted]
        exact List.suffix_cons _ _

section Longer

variable {earlier later : List Nat} (longer : earlier <+: later)
variable (start : Pool)
include longer

private theorem history_suffix :
    (start.play earlier).history <:+ (start.play later).history := by
  obtain ⟨more, rfl⟩ := longer
  rw [play_append]
  exact (start.play earlier).history_play more

private theorem begunBy_grows (thread : Nat) :
    (start.play earlier).begunBy thread <+:
      (start.play later).begunBy thread :=
  History.prefix_of_suffix (fun _ _ => List.prefix_append _ _)
    (history_suffix longer start)

private theorem answersTo_grows (thread : Nat) :
    (start.play earlier).answersTo thread <+:
      (start.play later).answersTo thread :=
  History.prefix_of_suffix (fun _ _ => List.prefix_append _ _)
    (history_suffix longer start)

theorem tableChanges_grows :
    (start.play earlier).tableChanges <+: (start.play later).tableChanges :=
  History.prefix_of_suffix (fun _ _ => List.prefix_append _ _)
    (history_suffix longer start)

private theorem mirrored_le :
    (start.play earlier).mirrored ≤ (start.play later).mirrored :=
  (history_suffix longer start).sublist.countP_le

theorem mirroredChanges_grows :
    (start.play earlier).mirroredChanges <+:
      (start.play later).mirroredChanges := by
  refine List.prefix_take_iff.mpr ⟨?_, ?_⟩
  · exact (List.take_prefix _ _).trans (tableChanges_grows longer start)
  · exact (List.length_take_le _ _).trans (mirrored_le longer start)

theorem begun_later {call : Invocation}
    (begun : (start.play earlier).Begun call) :
    (start.play later).Begun call :=
  Nat.lt_of_lt_of_le begun (begunBy_grows longer start _).length_le

theorem command?_later {call : Invocation}
    (begun : (start.play earlier).Begun call) :
    (start.play later).command? call = (start.play earlier).command? call := by
  obtain ⟨more, grown⟩ := begunBy_grows longer start call.thread
  rw [command?, ← grown, List.getElem?_append_left begun, command?]

theorem returned_later {call : Invocation}
    (returned : (start.play earlier).Returned call) :
    (start.play later).Returned call :=
  Nat.lt_of_lt_of_le returned (answersTo_grows longer start _).length_le

end Longer

/-- Along a schedule the first call had returned before the second was
begun. -/
def Precedes (start : Pool) (schedule : List Nat)
    (first second : Invocation) : Prop :=
  ∃ moment, moment <+: schedule ∧ (start.play moment).Returned first ∧
    ¬ (start.play moment).Begun second

end Pool

end LeveledLog
