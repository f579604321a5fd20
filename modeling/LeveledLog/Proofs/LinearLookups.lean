/-
Lookups in the module table while other threads change it.

Threads change the module table and look names up in it, in any order of their
steps.  The changes stand in the order in which they store the table, each of
them under the configuration lock.  A lookup answers as the table does after
some of the first changes in this order: after all that had returned when the
lookup was begun, after none that was begun when it had returned, and after no
fewer than a lookup that had returned when it was begun.
-/

import LeveledLog.Proofs.TableSteps

namespace LeveledLog

/-! ### One moment -/

structure Pool.LookedUp (pool : Pool) (lookup : Invocation) (name : String) :
    Prop where
  command : pool.command? lookup = some (.moduleIsEnabled name)
  returned : pool.Returned lookup

def Pool.Changing (pool : Pool) (entry : TableChange) : Prop :=
  (pool.command? entry.call).bind Command.moduleChange? = some entry.change

namespace TableAccord

variable {start : Pool} {path : List Nat} {pool : Pool}
variable {turns : Nat → TableTurn}

private theorem begun_of_returned (accord : TableAccord start path pool turns)
    {call : Invocation} (returned : pool.Returned call) :
    pool.Begun call := by
  have own := accord.threads call.thread
  rw [Pool.Returned, own.answers] at returned
  rw [Pool.Begun, own.begun, List.length_append]
  exact Nat.lt_of_lt_of_le returned (Nat.le_add_right _ _)

private theorem command?_of_returned
    (accord : TableAccord start path pool turns)
    {call : Invocation} (returned : pool.Returned call) :
    pool.command? call = (turns call.thread).ended[call.number]? := by
  have own := accord.threads call.thread
  rw [Pool.Returned, own.answers] at returned
  rw [Pool.command?, own.begun, List.getElem?_append_left returned]

private theorem mem_changesOf_iff (accord : TableAccord start path pool turns)
    (entry : TableChange) :
    entry ∈ pool.tableChanges ↔
      entry ∈ changesOf entry.call.thread
        (turns entry.call.thread).settled := by
  rw [← (accord.threads entry.call.thread).changes, List.mem_filter]
  exact (and_iff_left (beq_self_eq_true _)).symm

private theorem changing_of_mem (accord : TableAccord start path pool turns)
    {entry : TableChange} (member : entry ∈ pool.tableChanges) :
    pool.Changing entry := by
  have own := accord.threads entry.call.thread
  have made :=
    (mem_changesOf.mp ((accord.mem_changesOf_iff entry).mp member)).2
  obtain ⟨command, settled, changes⟩ := Option.bind_eq_some_iff.mp made
  have begun : (turns entry.call.thread).settled <+:
      pool.begunBy entry.call.thread := by
    rw [own.begun]
    refine (List.prefix_append_right_inj _).mpr ?_
    split
    · exact List.prefix_rfl
    · exact List.nil_prefix
  obtain ⟨more, whole⟩ := begun
  have inside := (List.getElem?_eq_some_iff.mp settled).1
  rw [Pool.Changing, Pool.command?, ← whole,
    List.getElem?_append_left inside, settled]
  exact changes

private theorem begun_of_mem (accord : TableAccord start path pool turns)
    {entry : TableChange} (member : entry ∈ pool.tableChanges) :
    pool.Begun entry.call := by
  obtain ⟨command, begun, _⟩ :=
    Option.bind_eq_some_iff.mp (accord.changing_of_mem member)
  exact (List.getElem?_eq_some_iff.mp begun).1

private theorem mem_of_returned (accord : TableAccord start path pool turns)
    {entry : TableChange} (changing : pool.Changing entry)
    (returned : pool.Returned entry.call) : entry ∈ pool.tableChanges := by
  rw [accord.mem_changesOf_iff, mem_changesOf]
  rw [Pool.Changing, accord.command?_of_returned returned] at changing
  rw [Pool.Returned, (accord.threads entry.call.thread).answers] at returned
  rw [TableTurn.settled, List.getElem?_append_left returned]
  exact ⟨rfl, changing⟩

private theorem mirrored_of_returned
    (accord : TableAccord start path pool turns)
    {entry : TableChange} (changing : pool.Changing entry)
    (returned : pool.Returned entry.call) :
    entry ∈ pool.mirroredChanges := by
  have member := accord.mem_of_returned changing returned
  by_cases level : ∀ thread, (turns thread).stage.behind = false
  · rw [MirrorAccord.mirroredChanges_of_level (accord.mirror.level level)]
    exact member
  · obtain ⟨thread, behind⟩ := not_forall.mp level
    obtain ⟨earlier, change, mirrored, whole⟩ :=
      accord.mirror.behind thread (eq_true_of_ne_false behind)
    rw [Pool.mirroredChanges, whole, mirrored, List.take_left]
    rw [whole] at member
    rcases List.mem_append.mp member with before | last
    · exact before
    · -- The change that is not shown yet has not returned.
      rw [List.mem_singleton] at last
      subst last
      rw [Pool.Returned, (accord.threads thread).answers] at returned
      exact absurd returned (Nat.lt_irrefl _)

private theorem distinct (accord : TableAccord start path pool turns) :
    (pool.tableChanges.map TableChange.call).Nodup := by
  rw [List.nodup_iff_count_le_one]
  intro call
  have mine : ((pool.tableChanges.map TableChange.call).filter fun other =>
      other.thread == call.thread) =
      (changesOf call.thread (turns call.thread).settled).map
        TableChange.call := by
    rw [List.filter_map, ← (accord.threads call.thread).changes]
    rfl
  have counted : ((pool.tableChanges.map TableChange.call).filter fun other =>
      other.thread == call.thread).count call =
      (pool.tableChanges.map TableChange.call).count call :=
    List.count_filter (beq_self_eq_true call.thread)
  rw [← counted, mine]
  exact List.nodup_iff_count_le_one.mp (nodup_changesOf _ _) call

private theorem answer_of_lookedUp (accord : TableAccord start path pool turns)
    {lookup : Invocation} {name : String}
    (looked : pool.LookedUp lookup name) :
    ∃ answer, pool.answer? lookup = some (.truth answer) ∧
      start.Sees path lookup name answer := by
  have ended := looked.command
  rw [accord.command?_of_returned looked.returned] at ended
  exact (accord.threads lookup.thread).answered lookup.number name ended

end TableAccord

/-! ### Every schedule -/

/-- The changes along a schedule in the order in which they are made. -/
structure OrdersChanges (start : Pool) (schedule : List Nat)
    (order : List TableChange) : Prop where
  distinct : (order.map TableChange.call).Nodup
  made : ∀ entry ∈ order, (start.play schedule).Changing entry
  returned : ∀ entry, (start.play schedule).Changing entry →
    (start.play schedule).Returned entry.call → entry ∈ order
  respects : ∀ first ∈ order, ∀ second ∈ order,
    start.Precedes schedule first.call second.call →
    ∃ earlier, earlier <+: order ∧ first ∈ earlier ∧ second ∉ earlier
  table : (start.play schedule).world.get .modules =
    (start.world.get .modules).after order

/-- Each lookup along a schedule sees the first changes of an order. -/
structure Linearizes (start : Pool) (schedule : List Nat)
    (order : List TableChange) (seen : Invocation → List TableChange) :
    Prop where
  starts : ∀ lookup, seen lookup <+: order
  answers : ∀ lookup name, (start.play schedule).LookedUp lookup name →
    (start.play schedule).answer? lookup =
      some (.truth
        (((start.world.get .modules).after (seen lookup)).allows name))
  includes : ∀ lookup name, (start.play schedule).LookedUp lookup name →
    ∀ entry, (start.play schedule).Changing entry →
      start.Precedes schedule entry.call lookup → entry ∈ seen lookup
  excludes : ∀ lookup name, (start.play schedule).LookedUp lookup name →
    ∀ entry, start.Precedes schedule lookup entry.call →
      entry ∉ seen lookup
  grows : ∀ first second name other,
    (start.play schedule).LookedUp first name →
    (start.play schedule).LookedUp second other →
    start.Precedes schedule first second → seen first <+: seen second

/-- At some moment of a schedule, while a call is under way, the mirror shows
the given changes. -/
def Pool.Glimpses (start : Pool) (schedule : List Nat) (call : Invocation)
    (seen : List TableChange) : Prop :=
  ∃ moment, moment <+: schedule ∧ (start.play moment).Begun call ∧
    ¬ (start.play moment).Returned call ∧
    (start.play moment).mirroredChanges = seen

section Schedule

variable {start : Pool} {schedule : List Nat}

/-- Of two moments of a schedule, one at which a call had not been begun comes
before one at which it had. -/
private theorem Pool.moment_of_begun {earlier later : List Nat}
    (first : earlier <+: schedule) (second : later <+: schedule)
    {call : Invocation} (before : ¬ (start.play earlier).Begun call)
    (after : (start.play later).Begun call) : earlier <+: later := by
  rcases List.prefix_or_prefix_of_prefix first second with ordered | reversed
  · exact ordered
  · exact absurd (Pool.begun_later reversed start after) before

private theorem Pool.moment_of_returned {earlier later : List Nat}
    (first : earlier <+: schedule) (second : later <+: schedule)
    {call : Invocation} (before : ¬ (start.play earlier).Returned call)
    (after : (start.play later).Returned call) : earlier <+: later := by
  rcases List.prefix_or_prefix_of_prefix first second with ordered | reversed
  · exact ordered
  · exact absurd (Pool.returned_later reversed start after) before

variable (along : ∀ moment, ∃ turns,
  TableAccord start moment (start.play moment) turns)
include along

private theorem Pool.changing_then {entry : TableChange} {moment : List Nat}
    (within : moment <+: schedule)
    (returned : (start.play moment).Returned entry.call)
    (changing : (start.play schedule).Changing entry) :
    (start.play moment).Changing entry := by
  obtain ⟨turns, accord⟩ := along moment
  rw [Pool.Changing, Pool.command?_later within start
    (accord.begun_of_returned returned)] at changing
  exact changing

private theorem ordersChanges :
    OrdersChanges start schedule (start.play schedule).tableChanges := by
  obtain ⟨turns, accord⟩ := along schedule
  refine ⟨accord.distinct, fun _ => accord.changing_of_mem,
    fun _ => accord.mem_of_returned, ?_, accord.mirror.table⟩
  rintro first made second _ ⟨moment, within, returned, notBegun⟩
  obtain ⟨turnsThen, accordThen⟩ := along moment
  refine ⟨_, Pool.tableChanges_grows within start,
    accordThen.mem_of_returned ?_ returned, ?_⟩
  · exact Pool.changing_then along within returned
      (accord.changing_of_mem made)
  · intro member
    exact notBegun (accordThen.begun_of_mem member)

namespace Pool.Glimpses

variable {lookup : Invocation} {seen : List TableChange}
variable (glimpses : start.Glimpses schedule lookup seen)
include glimpses

private theorem includes {entry : TableChange}
    (changing : (start.play schedule).Changing entry)
    (precedes : start.Precedes schedule entry.call lookup) :
    entry ∈ seen := by
  obtain ⟨moment, within, begun, _, shows⟩ := glimpses
  obtain ⟨earlier, withinToo, returned, notBegun⟩ := precedes
  obtain ⟨turns, accord⟩ := along earlier
  have ordered := Pool.moment_of_begun withinToo within notBegun begun
  rw [← shows]
  exact (Pool.mirroredChanges_grows ordered start).subset
    (accord.mirrored_of_returned
      (Pool.changing_then along withinToo returned changing) returned)

private theorem excludes {entry : TableChange}
    (precedes : start.Precedes schedule lookup entry.call) :
    entry ∉ seen := by
  obtain ⟨moment, within, _, unreturned, shows⟩ := glimpses
  obtain ⟨later, withinToo, returned, notBegun⟩ := precedes
  obtain ⟨turns, accord⟩ := along moment
  have ordered := Pool.moment_of_returned within withinToo unreturned returned
  intro member
  rw [← shows] at member
  exact notBegun (Pool.begun_later ordered start
    (accord.begun_of_mem (List.mem_of_mem_take member)))

omit along in
private theorem grows {second : Invocation} {seenThen : List TableChange}
    (glimpsesThen : start.Glimpses schedule second seenThen)
    (precedes : start.Precedes schedule lookup second) :
    seen <+: seenThen := by
  obtain ⟨moment, within, _, unreturned, shows⟩ := glimpses
  obtain ⟨last, withinLast, begun, _, showsThen⟩ := glimpsesThen
  obtain ⟨between, withinToo, returned, notBegun⟩ := precedes
  have earlier := Pool.moment_of_returned within withinToo unreturned returned
  have later := Pool.moment_of_begun withinToo withinLast notBegun begun
  rw [← shows, ← showsThen]
  exact Pool.mirroredChanges_grows (earlier.trans later) start

end Pool.Glimpses

private theorem Pool.exists_seen (lookup : Invocation) :
    ∃ seen, seen <+: (start.play schedule).tableChanges ∧
      ∀ name, (start.play schedule).LookedUp lookup name →
        start.Glimpses schedule lookup seen ∧
          (start.play schedule).answer? lookup =
            some (.truth
              (((start.world.get .modules).after seen).allows name)) := by
  by_cases looked : ∃ name, (start.play schedule).LookedUp lookup name
  · obtain ⟨name, looked⟩ := looked
    obtain ⟨turns, accord⟩ := along schedule
    obtain ⟨answer, got, moment, within, begun, unreturned, allows⟩ :=
      accord.answer_of_lookedUp looked
    refine ⟨(start.play moment).mirroredChanges,
      (List.take_prefix _ _).trans (Pool.tableChanges_grows within start),
      ?_⟩
    intro other lookedToo
    have same := looked.command.symm.trans lookedToo.command
    cases same
    refine ⟨⟨moment, within, begun, unreturned, rfl⟩, got.trans ?_⟩
    rw [allows]
  · exact ⟨[], List.nil_prefix, fun name lookedUp =>
      absurd ⟨name, lookedUp⟩ looked⟩

theorem exists_linearizes :
    ∃ seen, Linearizes start schedule (start.play schedule).tableChanges
      seen := by
  obtain ⟨seen, sees⟩ :=
    Classical.axiomOfChoice (@Pool.exists_seen start schedule along)
  refine ⟨seen, fun lookup => (sees lookup).1,
    fun lookup name looked => ((sees lookup).2 name looked).2, ?_, ?_, ?_⟩
  · intro lookup name looked entry changing precedes
    exact ((sees lookup).2 name looked).1.includes along changing precedes
  · intro lookup name looked entry precedes
    exact ((sees lookup).2 name looked).1.excludes along precedes
  · intro first second name other looked lookedToo precedes
    exact ((sees first).2 name looked).1.grows
      ((sees second).2 other lookedToo).1 precedes

end Schedule

/-! ### Lookups are linearizable -/

/-- Threads change the module table of an initialised logger and look names up
in it, and take their steps in any order.  The changes are those of the calls,
in the order in which they store the table; each lookup that returns answers by
the first changes in this order, as many as its place between the other calls
allows for.  Nobody stores the table or its mirror without the configuration
lock, no call panics, somebody can go on until nobody has anything left
to do, and the logger is then as it was asked to be before. -/
theorem lookups_are_linearizable {world : World}
    (initialised : world.Initialised) (work : List (List Command))
    (uses : ∀ commands ∈ work, ∀ command ∈ commands,
      command.usesTable = true)
    (schedule : List Nat) :
    let start := Pool.start world work
    let pool := start.play schedule
    OrdersChanges start schedule pool.tableChanges ∧
      (∃ seen, Linearizes start schedule pool.tableChanges seen) ∧
      (∀ thread (cell : Cell) (value : cell.Value),
        cell = .modules ∨ cell = .filterActive →
        pool.AboutTo thread (.store cell value) →
        pool.world.configLock.holder = some thread) ∧
      pool.panicked = false ∧
      (pool.finished = false → ∃ thread, pool.step thread ≠ pool) ∧
      (pool.finished = true → pool.world.Initialised) := by
  intro start pool
  have follows : start.Follows Regime.table
      (fun command => command.usesTable = true)
      fun _ => { ended := [], call := none, stage := .starting } :=
    Regime.follows_start uses (fun _ => TableTurn.Resting.mk rfl rfl) world
  have plays (moment : List Nat) := (TableAccord.keeps start).play
    (TableAccord.atStart initialised work) follows moment
  have along (moment : List Nat) : ∃ turns,
      TableAccord start moment (start.play moment) turns := by
    obtain ⟨turns, accord, _⟩ := plays moment
    exact ⟨turns, accord⟩
  obtain ⟨turns, accord, followsThen⟩ := plays schedule
  exact ⟨ordersChanges along, exists_linearizes along,
    fun _ _ _ => accord.holder_of_about followsThen, accord.calm,
    accord.goesOn followsThen, accord.initialised_of_finished followsThen⟩

/-- A lookup that is begun when a change has returned sees this change. -/
theorem lookup_after_change :
    let host : Host := { processId := 1, terminal := false }
    let fresh := World.fresh (Surroundings.start host Environment.empty)
    let work : List (List Command) :=
      [[.enableModule "net"], [.moduleIsEnabled "db"]]
    let start := Pool.start (Logger.initOnce.run fresh).world work
    let pool := start.play (List.replicate 9 0 ++ List.replicate 6 1)
    pool.answer? { thread := 1, number := 0 } = some (.truth false) := by
  intro host fresh work start pool
  have initialised : (Logger.initOnce.run fresh).world.Initialised :=
    (World.Reachable.fresh _).initOnce.initialised (by decide +kernel)
  obtain ⟨_, ⟨seen, linear⟩, _, calm, _⟩ := lookups_are_linearizable initialised
    work (by decide) (List.replicate 9 0 ++ List.replicate 6 1)
  let change : TableChange :=
    { call := { thread := 0, number := 0 }, change := .enable "net" }
  let lookup : Invocation := { thread := 1, number := 0 }
  have made (thread : Nat) : pool.begunBy thread = work.getD thread [] :=
    (Pool.begunBy_of_finished _ work _ (by decide +kernel) thread).2 calm
  have looked : pool.LookedUp lookup "db" := by
    refine ⟨?_, by decide +kernel⟩
    rw [Pool.command?, made]
    rfl
  have changing : pool.Changing change := by
    rw [Pool.Changing, Pool.command?, made]
    rfl
  have precedes : start.Precedes (List.replicate 9 0 ++ List.replicate 6 1)
      change.call lookup :=
    ⟨List.replicate 9 0, List.prefix_append _ _, by decide +kernel,
      by decide +kernel⟩
  have included := linear.includes lookup "db" looked change changing precedes
  have order : pool.tableChanges = [change] := by
    decide +kernel
  have starts : seen lookup <+: [change] := by
    rw [← order]
    exact linear.starts lookup
  have whole : seen lookup = [change] := by
    rcases List.prefix_cons_iff.mp starts with none | ⟨rest, same, nothing⟩
    · rw [none] at included
      cases included
    · rw [same, List.prefix_nil.mp nothing]
  have closed : ((start.world.get .modules).after [change]).allows "db" =
      false := by
    decide +kernel
  rw [linear.answers lookup "db" looked, whole, closed]

end LeveledLog
