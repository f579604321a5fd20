/-
The module table, its mirror and the calls that change it or look into it.

While threads change the table and look names up in it, the table is the one
that the changes so far make of the first one, and the mirror shows the table
of a moment ago: all changes but the one that the holder of the configuration
lock has stored and not yet shown.  The changes of a thread are those of its
calls, and what a lookup has found is the answer of the mirrored table at some
moment at which the lookup was under way.  A step of a thread keeps this.
-/

import LeveledLog.Proofs.TableTurns

namespace LeveledLog

/-! ### What a lookup finds -/

/-- At some moment of a path, while a call is under way, the table that the
mirror shows gives an answer about a name. -/
def Pool.Sees (start : Pool) (path : List Nat) (call : Invocation)
    (name : String) (answer : Bool) : Prop :=
  ∃ moment, moment <+: path ∧ (start.play moment).Begun call ∧
    ¬ (start.play moment).Returned call ∧
    ((start.world.get .modules).after
      (start.play moment).mirroredChanges).allows name = answer

theorem Pool.Sees.extend {start : Pool} {path : List Nat}
    {call : Invocation} {name : String} {answer : Bool}
    (sees : start.Sees path call name answer) (more : List Nat) :
    start.Sees (path ++ more) call name answer := by
  obtain ⟨moment, along, under⟩ := sees
  exact ⟨moment, along.trans (List.prefix_append path more), under⟩

namespace TableTurn.Ends

variable {turn : TableTurn} {value : Value}

theorem free (ends : turn.Ends value) : turn.stage.holds = false := by
  cases ends with
  | lookup _ _ _ stage | change _ _ _ stage | ignored _ _ _ _ _ stage =>
      rw [stage]
      rfl

private theorem settled (ends : turn.Ends value) (thread : Nat) :
    ∃ command, turn.call = some command ∧
      changesOf thread turn.settled =
        changesOf thread (turn.ended ++ [command]) := by
  unfold TableTurn.settled
  cases ends with
  | lookup name answer looks answered =>
      refine ⟨_, looks, ?_⟩
      rw [answered, changesOf_concat_of_none rfl]
      simp [TableStage.wrote]
  | change change value changes changed =>
      obtain ⟨command, calls, _⟩ := changes
      refine ⟨command, calls, ?_⟩
      rw [changed, calls]
      rfl
  | ignored command value calls changes other starting =>
      refine ⟨command, calls, ?_⟩
      rw [starting, changesOf_concat_of_none changes]
      simp [TableStage.wrote]

private theorem answers (ends : turn.Ends value) {name : String}
    (looks : turn.LooksUp name) :
    ∃ answer, value = .truth answer ∧ turn.stage.answer? = some answer := by
  cases ends with
  | lookup _ answer _ answered =>
      exact ⟨answer, rfl, by rw [answered]; rfl⟩
  | change _ _ changes =>
      obtain ⟨command, calls, made⟩ := changes
      rw [looks] at calls
      cases calls
      cases made
  | ignored command _ calls _ other =>
      rw [looks] at calls
      cases calls
      exact absurd rfl (other name)

end TableTurn.Ends

/-! ### The calls of one thread -/

/-- What the history tells about a thread is what its turn says. -/
structure TurnAccord (start : Pool) (path : List Nat) (pool : Pool)
    (thread : Nat) (turn : TableTurn) : Prop where
  begun : pool.begunBy thread = turn.ended ++ turn.call.toList
  answers : (pool.answersTo thread).length = turn.ended.length
  changes :
    (pool.tableChanges.filter fun entry => entry.call.thread == thread) =
      changesOf thread turn.settled
  answered : ∀ number name,
    turn.ended[number]? = some (.moduleIsEnabled name) →
    ∃ answer, (pool.answersTo thread)[number]? = some (.truth answer) ∧
      start.Sees path { thread := thread, number := number } name answer
  seen : ∀ name answer, turn.LooksUp name →
    turn.stage.answer? = some answer →
    start.Sees path { thread := thread, number := turn.ended.length } name
      answer
  absent : pool.threads[thread]? = none → turn.stage = .starting

private theorem latestChange?_own {thread : Nat} {begun : List Command}
    {entry : TableChange}
    (latest : entry ∈ (latestChange? thread begun).toList) :
    entry.call.thread = thread := by
  rw [Option.mem_toList, latestChange?, Option.map_eq_some_iff] at latest
  obtain ⟨change, _, same⟩ := latest
  rw [← same]

namespace Pool

variable {pool : Pool} {thread : Nat} {world : World} {state : ThreadState}
variable {deed : Deed}

private theorem tableChanges_note_silent
    (silent : Event.stores { thread := thread, deed := deed } .modules =
      false) :
    (pool.note thread world state deed).tableChanges =
      pool.tableChanges := by
  rw [tableChanges_note, silent]
  exact List.append_nil _

private theorem mirrored_note_silent
    (silent : Event.stores { thread := thread, deed := deed } .filterActive =
      false) :
    (pool.note thread world state deed).mirrored = pool.mirrored := by
  rw [mirrored_note, silent]
  rfl

private theorem tableChanges_note_store {ended : List Command}
    {command : Command} {change : ModuleChange}
    (begun : pool.begunBy thread = ended ++ [command])
    (made : command.moduleChange? = some change) (table : ModuleTable)
    (accepted : List Delivery) :
    (pool.note thread world state
        (.performed (.store .modules table) accepted)).tableChanges =
      pool.tableChanges ++
        [{ call := { thread := thread, number := ended.length }
           change := change }] := by
  have stored : Event.stores
      { thread := thread
        deed := .performed (.store .modules table) accepted } .modules =
      true := rfl
  rw [tableChanges_note, if_pos stored, begun, latestChange?_concat, made]
  rfl

private theorem tableChanges_note_of_ne {other : Nat}
    (different : other ≠ thread) :
    ((pool.note thread world state deed).tableChanges.filter fun entry =>
        entry.call.thread == other) =
      pool.tableChanges.filter fun entry => entry.call.thread == other := by
  rw [tableChanges_note, List.filter_append]
  refine (congrArg _ ?_).trans (List.append_nil _)
  rw [List.filter_eq_nil_iff]
  intro entry member
  split at member
  · rw [latestChange?_own member, beq_iff_eq]
    exact Ne.symm different
  · cases member

end Pool

namespace TurnAccord

variable {start : Pool} {path : List Nat} {pool : Pool} {thread : Nat}
variable {turn : TableTurn} {world : World} {state before : ThreadState}

theorem extend (accord : TurnAccord start path pool thread turn)
    (more : List Nat) :
    TurnAccord start (path ++ more) pool thread turn :=
  { accord with
    answered := fun number name ended => by
      obtain ⟨answer, got, sees⟩ := accord.answered number name ended
      exact ⟨answer, got, sees.extend more⟩
    seen := fun name answer looks found =>
      (accord.seen name answer looks found).extend more }

theorem meanwhile {other : Nat}
    (accord : TurnAccord start path pool other turn)
    (different : other ≠ thread) (deed : Deed) :
    TurnAccord start (path ++ [thread]) (pool.note thread world state deed)
      other turn := by
  have accord := accord.extend [thread]
  have answers : (pool.note thread world state deed).answersTo other =
      pool.answersTo other := by
    rw [Pool.answersTo_note, if_neg (Ne.symm different), List.append_nil]
  constructor
  · rw [Pool.begunBy_note, if_neg (Ne.symm different), List.append_nil]
    exact accord.begun
  · rw [answers]
    exact accord.answers
  · rw [Pool.tableChanges_note_of_ne different]
    exact accord.changes
  · rw [answers]
    exact accord.answered
  · exact accord.seen
  · rw [Pool.note_threads_of_ne pool world state deed different]
    exact accord.absent

theorem begins (accord : TurnAccord start path pool thread turn)
    (rests : turn.Resting) (command : Command) :
    TurnAccord start (path ++ [thread])
      (pool.note thread world state (.began command)) thread
      (.starting turn.ended command) := by
  have accord := accord.extend [thread]
  have answers : (pool.note thread world state
      (.began command)).answersTo = pool.answersTo :=
    Pool.answersTo_note_silent rfl
  have settled : (TableTurn.starting turn.ended command).settled =
      turn.settled := by
    unfold TableTurn.settled
    rw [rests.stage]
    rfl
  constructor
  · rw [Pool.begunBy_note, if_pos rfl, accord.begun, rests.call]
    simp [TableTurn.starting, Event.begun?]
  · rw [answers]
    exact accord.answers
  · rw [Pool.tableChanges_note_silent rfl, settled]
    exact accord.changes
  · rw [answers]
    exact accord.answered
  · intro _ _ _ impossible
    cases impossible
  · intro _
    rfl

private theorem performs (accord : TurnAccord start path pool thread turn)
    (present : pool.threads[thread]? = some before) {action : Action}
    {accepted : List Delivery} {stage : TableStage}
    (changes : ((pool.note thread world state
        (.performed action accepted)).tableChanges.filter fun entry =>
          entry.call.thread == thread) =
      changesOf thread (turn.withStage stage).settled)
    (seen : ∀ name answer, turn.LooksUp name →
      stage.answer? = some answer →
      start.Sees (path ++ [thread])
        { thread := thread, number := turn.ended.length } name answer) :
    TurnAccord start (path ++ [thread])
      (pool.note thread world state (.performed action accepted)) thread
      (turn.withStage stage) := by
  have accord := accord.extend [thread]
  have answers : (pool.note thread world state
      (.performed action accepted)).answersTo = pool.answersTo :=
    Pool.answersTo_note_silent rfl
  refine ⟨?_, ?_, changes, ?_, seen, ?_⟩
  · rw [Pool.begunBy_note_silent rfl]
    exact accord.begun
  · rw [answers]
    exact accord.answers
  · rw [answers]
    exact accord.answered
  · intro absent
    rw [Pool.note_threads_same present] at absent
    cases absent

theorem moves (accord : TurnAccord start path pool thread turn)
    (present : pool.threads[thread]? = some before) {action : Action}
    {accepted : List Delivery} {stage : TableStage}
    (silent : Event.stores
      { thread := thread, deed := .performed action accepted } .modules =
        false)
    (wrote : stage.wrote = turn.stage.wrote)
    (seen : ∀ name answer, turn.LooksUp name →
      stage.answer? = some answer →
      start.Sees (path ++ [thread])
        { thread := thread, number := turn.ended.length } name answer) :
    TurnAccord start (path ++ [thread])
      (pool.note thread world state (.performed action accepted)) thread
      (turn.withStage stage) := by
  refine accord.performs present ?_ seen
  have settled : (turn.withStage stage).settled = turn.settled := by
    unfold TableTurn.settled
    rw [← wrote]
    rfl
  rw [Pool.tableChanges_note_silent silent, settled]
  exact accord.changes

theorem stores (accord : TurnAccord start path pool thread turn)
    (present : pool.threads[thread]? = some before)
    {change : ModuleChange} (changes : turn.Changes change)
    (unwritten : turn.stage.wrote = false) (table : ModuleTable)
    (accepted : List Delivery) :
    TurnAccord start (path ++ [thread])
      (pool.note thread world state
        (.performed (.store .modules table) accepted)) thread
      (turn.withStage (.stored table)) := by
  refine accord.performs present ?_ fun _ _ _ impossible => by
    cases impossible
  obtain ⟨command, calls, made⟩ := changes
  have before : turn.settled = turn.ended := by
    unfold TableTurn.settled
    rw [unwritten]
    exact List.append_nil _
  have after : (turn.withStage (.stored table)).settled =
      turn.ended ++ [command] := by
    change turn.ended ++ turn.call.toList = _
    rw [calls]
    rfl
  have begun : pool.begunBy thread = turn.ended ++ [command] := by
    rw [accord.begun, calls]
    rfl
  rw [Pool.tableChanges_note_store begun made, List.filter_append,
    accord.changes, before, after, changesOf_concat, latestChange?_concat,
    made]
  simp

theorem returns (accord : TurnAccord start path pool thread turn)
    {value : Value}
    (ends : turn.Ends value) :
    ∃ command, turn.call = some command ∧
      TurnAccord start (path ++ [thread])
        (pool.note thread world state (.returned value)) thread
        { ended := turn.ended ++ [command], call := none
          stage := .starting } := by
  have accord := accord.extend [thread]
  obtain ⟨command, calls, settled⟩ := ends.settled thread
  have answers : (pool.note thread world state
      (.returned value)).answersTo thread =
      pool.answersTo thread ++ [value] := by
    rw [Pool.answersTo_note, if_pos rfl]
    rfl
  refine ⟨command, calls, ?_⟩
  constructor
  · rw [Pool.begunBy_note_silent rfl, accord.begun, calls]
    exact (List.append_nil _).symm
  · rw [answers, List.length_append, accord.answers, List.length_append]
    rfl
  · rw [Pool.tableChanges_note_silent rfl, accord.changes, settled]
    simp [TableTurn.settled]
  · intro number name ended
    rw [answers]
    -- The call is one of those that had ended, or it is the one that returns.
    rcases Nat.lt_or_ge number turn.ended.length with earlier | late
    · rw [List.getElem?_append_left earlier] at ended
      obtain ⟨answer, got, sees⟩ := accord.answered number name ended
      refine ⟨answer, ?_, sees⟩
      rw [List.getElem?_append_left (by rw [accord.answers]; exact earlier)]
      exact got
    · have last : number = turn.ended.length := by
        have bound := (List.getElem?_eq_some_iff.mp ended).1
        rw [List.length_append, List.length_singleton] at bound
        omega
      subst last
      rw [List.getElem?_concat_length] at ended
      have looks : turn.LooksUp name := calls.trans ended
      obtain ⟨answer, same, found⟩ := ends.answers looks
      refine ⟨answer, ?_, accord.seen name answer looks found⟩
      rw [← accord.answers, List.getElem?_concat_length, same]
  · intro _ _ impossible
    cases impossible
  · intro _
    rfl

end TurnAccord

/-! ### The table and its mirror -/

/-- The table is the one that the changes make of the first one, and the mirror
is behind by the change of the thread that has stored it and not shown it. -/
structure MirrorAccord (first : ModuleTable) (pool : Pool)
    (turns : Nat → TableTurn) : Prop where
  complete : pool.world.initialisation = .complete
  holder : HeldBy pool.world.configLock.holder
    (fun turn : TableTurn => turn.stage.holds = true) turns
  knows : ∀ thread table, (turns thread).stage.table? = some table →
    pool.world.get .modules = table
  table : pool.world.get .modules = first.after pool.tableChanges
  mirror : pool.world.get .filterActive =
    (first.after pool.mirroredChanges).isActive
  level : (∀ thread, (turns thread).stage.behind = false) →
    pool.mirrored = pool.tableChanges.length
  behind : ∀ thread, (turns thread).stage.behind = true →
    ∃ earlier change, pool.mirrored = earlier.length ∧
      pool.tableChanges = earlier ++
        [{ call := { thread := thread, number := (turns thread).ended.length }
           change := change }]

namespace MirrorAccord

variable {first : ModuleTable} {pool : Pool} {turns : Nat → TableTurn}
variable {thread : Nat} {world : World} {state : ThreadState}
variable {later : TableTurn}

section Holder

variable (accord : MirrorAccord first pool turns)
variable (holds : (turns thread).stage.holds = true)
include accord holds

private theorem others_level {other : Nat} (different : other ≠ thread) :
    (turns other).stage.behind = false := by
  have free := accord.holder.only holds different
  cases behind : (turns other).stage.behind with
  | false =>
      rfl
  | true =>
      exact absurd (TableStage.holds_of_behind behind) free

private theorem others_know {other : Nat} (different : other ≠ thread) :
    (turns other).stage.table? = none := by
  have free := accord.holder.only holds different
  cases knows : (turns other).stage.table? with
  | none =>
      rfl
  | some table =>
      exact absurd (TableStage.holds_of_table? knows) free

/-- Under the configuration lock the mirror shows the table, unless the holder
of the lock has stored another one. -/
theorem level_of_holds (level : (turns thread).stage.behind = false) :
    pool.mirrored = pool.tableChanges.length := by
  apply accord.level
  intro other
  by_cases same : other = thread
  · subst same
    exact level
  · exact accord.others_level holds same

end Holder

theorem mirroredChanges_of_level
    (level : pool.mirrored = pool.tableChanges.length) :
    pool.mirroredChanges = pool.tableChanges := by
  unfold Pool.mirroredChanges
  rw [level, List.take_length]

theorem mirrored_table (accord : MirrorAccord first pool turns)
    (holds : (turns thread).stage.holds = true)
    (level : (turns thread).stage.behind = false) :
    first.after pool.mirroredChanges = pool.world.get .modules := by
  rw [mirroredChanges_of_level (accord.level_of_holds holds level),
    accord.table]

/-- A mirror that is not set shows an empty table, which lets every module
through. -/
theorem allows_of_inactive (accord : MirrorAccord first pool turns)
    (inactive : pool.world.get .filterActive = false) (name : String) :
    (first.after pool.mirroredChanges).allows name = true := by
  rw [ModuleTable.allows, ← accord.mirror, inactive]
  rfl

theorem quiet (accord : MirrorAccord first pool turns) {deed : Deed}
    (noTable : Event.stores { thread := thread, deed := deed } .modules =
      false)
    (noMirror : Event.stores { thread := thread, deed := deed }
      .filterActive = false)
    (sameTable : world.get .modules = pool.world.get .modules)
    (sameMirror : world.get .filterActive = pool.world.get .filterActive)
    (complete : world.initialisation = .complete)
    (holder : HeldBy world.configLock.holder
      (fun turn : TableTurn => turn.stage.holds = true)
      (Function.update turns thread later))
    (knows : ∀ table, later.stage.table? = some table →
      pool.world.get .modules = table)
    (levelBefore : (turns thread).stage.behind = false)
    (level : later.stage.behind = false) :
    MirrorAccord first (pool.note thread world state deed)
      (Function.update turns thread later) := by
  have changes : (pool.note thread world state deed).tableChanges =
      pool.tableChanges :=
    Pool.tableChanges_note_silent noTable
  have mirrored : (pool.note thread world state deed).mirrored =
      pool.mirrored :=
    Pool.mirrored_note_silent noMirror
  have shows : (pool.note thread world state deed).mirroredChanges =
      pool.mirroredChanges := by
    unfold Pool.mirroredChanges
    rw [changes, mirrored]
  refine ⟨complete, holder, ?_, ?_, ?_, ?_, ?_⟩
  · intro other table
    refine fun known => sameTable.trans ?_
    by_cases same : other = thread
    · subst same
      rw [Function.update_self] at known
      exact knows table known
    · rw [Function.update_of_ne same] at known
      exact accord.knows other table known
  · rw [changes]
    exact sameTable.trans accord.table
  · rw [shows]
    exact sameMirror.trans accord.mirror
  · intro all
    rw [changes, mirrored]
    apply accord.level
    intro other
    by_cases same : other = thread
    · subst same
      exact levelBefore
    · have levelOther := all other
      rw [Function.update_of_ne same] at levelOther
      exact levelOther
  · intro other behind
    by_cases same : other = thread
    · subst same
      rw [Function.update_self, level] at behind
      cases behind
    · rw [Function.update_of_ne same] at behind ⊢
      rw [changes, mirrored]
      exact accord.behind other behind

/-- A step of the holder of the lock, whatever it stores: only the holder knows
the table or has left the mirror behind. -/
theorem held (accord : MirrorAccord first pool turns)
    (holds : (turns thread).stage.holds = true)
    (holdsLater : later.stage.holds = true) {after : Pool}
    (lock : after.world.configLock = pool.world.configLock)
    (complete : after.world.initialisation = pool.world.initialisation)
    (knows : ∀ table, later.stage.table? = some table →
      after.world.get .modules = table)
    (table : after.world.get .modules = first.after after.tableChanges)
    (mirror : after.world.get .filterActive =
      (first.after after.mirroredChanges).isActive)
    (level : later.stage.behind = false →
      after.mirrored = after.tableChanges.length)
    (behind : later.stage.behind = true →
      ∃ earlier change, after.mirrored = earlier.length ∧
        after.tableChanges = earlier ++
          [{ call := { thread := thread, number := later.ended.length }
             change := change }]) :
    MirrorAccord first after (Function.update turns thread later) := by
  refine ⟨complete.trans accord.complete, ?_, ?_, table, mirror, ?_, ?_⟩
  · rw [lock]
    exact accord.holder.keep (iff_of_true holdsLater holds)
  · intro other known
    by_cases same : other = thread
    · subst same
      rw [Function.update_self]
      exact knows known
    · rw [Function.update_of_ne same, accord.others_know holds same]
      intro impossible
      cases impossible
  · intro all
    have own := all thread
    rw [Function.update_self] at own
    exact level own
  · intro other left
    by_cases same : other = thread
    · subst same
      rw [Function.update_self] at left ⊢
      exact behind left
    · rw [Function.update_of_ne same, accord.others_level holds same] at left
      cases left

theorem stores (accord : MirrorAccord first pool turns)
    {change : ModuleChange} (changes : (turns thread).Changes change)
    {table : ModuleTable} (read : (turns thread).stage = .read table)
    (begun : pool.begunBy thread =
      (turns thread).ended ++ (turns thread).call.toList)
    (accepted : List Delivery) :
    MirrorAccord first
      (pool.note thread (pool.world.set .modules (change.apply table)) state
        (.performed (.store .modules (change.apply table)) accepted))
      (Function.update turns thread
        ((turns thread).withStage (.stored (change.apply table)))) := by
  have holds : (turns thread).stage.holds = true := by
    rw [read]
    rfl
  have wasLevel : pool.mirrored = pool.tableChanges.length :=
    accord.level_of_holds holds (by rw [read]; rfl)
  have known : pool.world.get .modules = table :=
    accord.knows thread table (by rw [read]; rfl)
  have grows : (pool.note thread
      (pool.world.set .modules (change.apply table)) state
      (.performed (.store .modules (change.apply table))
        accepted)).tableChanges =
      pool.tableChanges ++
        [{ call := { thread := thread, number := (turns thread).ended.length }
           change := change }] := by
    obtain ⟨command, calls, made⟩ := changes
    rw [calls] at begun
    exact Pool.tableChanges_note_store begun made _ _
  have mirrored : (pool.note thread
      (pool.world.set .modules (change.apply table)) state
      (.performed (.store .modules (change.apply table))
        accepted)).mirrored = pool.mirrored :=
    Pool.mirrored_note_silent rfl
  refine accord.held holds rfl rfl rfl ?_ ?_ ?_ ?_ ?_
  · intro stored same
    exact (World.get_set_same _ _ _).trans (Option.some.inj same)
  · rw [grows, ModuleTable.after_append, ← accord.table, known]
    exact World.get_set_same _ _ _
  · have shows : (pool.tableChanges ++
        [TableChange.mk { thread := thread
                          number := (turns thread).ended.length }
          change]).take pool.mirrored = pool.mirroredChanges :=
      List.take_append_of_le_length wasLevel.le
    unfold Pool.mirroredChanges
    rw [grows, mirrored, shows]
    exact accord.mirror
  · intro impossible
    cases impossible
  · intro _
    rw [grows, mirrored]
    exact ⟨pool.tableChanges, change, wasLevel, rfl⟩

theorem shows (accord : MirrorAccord first pool turns)
    {table : ModuleTable} (stored : (turns thread).stage = .stored table)
    (accepted : List Delivery) :
    MirrorAccord first
      (pool.note thread (pool.world.set .filterActive table.isActive) state
        (.performed (.store .filterActive table.isActive) accepted))
      (Function.update turns thread
        ((turns thread).withStage .shown)) := by
  have holds : (turns thread).stage.holds = true := by
    rw [stored]
    rfl
  have known : pool.world.get .modules = table :=
    accord.knows thread table (by rw [stored]; rfl)
  have changes : (pool.note thread
      (pool.world.set .filterActive table.isActive) state
      (.performed (.store .filterActive table.isActive)
        accepted)).tableChanges = pool.tableChanges :=
    Pool.tableChanges_note_silent rfl
  have level : (pool.note thread
      (pool.world.set .filterActive table.isActive) state
      (.performed (.store .filterActive table.isActive)
        accepted)).mirrored = pool.tableChanges.length := by
    obtain ⟨earlier, change, mirrored, whole⟩ :=
      accord.behind thread (by rw [stored]; rfl)
    rw [Pool.mirrored_note, mirrored, whole, List.length_append]
    rfl
  refine accord.held holds rfl rfl rfl ?_ ?_ ?_ ?_ ?_
  · intro _ impossible
    cases impossible
  · rw [changes]
    exact (World.get_set_of_ne _ _ (by decide)).trans accord.table
  · rw [mirroredChanges_of_level (by rw [level, changes]), changes,
      ← accord.table, known]
    exact World.get_set_same _ _ _
  · intro _
    rw [level, changes]
  · intro impossible
    cases impossible

end MirrorAccord

end LeveledLog
