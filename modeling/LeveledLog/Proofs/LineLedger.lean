/-
What has been written so far, and what is still to be written.

While threads write lines, the deliveries made so far and what is left of the
line under the output lock are together a sequence of whole lines; the lines
that a thread has begun and the one that it has yet to begin are those of its
calls; and its messages that cannot be rendered are written once each.  A step
of a thread keeps this if it begins a call, copies the prefix, takes the output
lock, makes the next delivery of its line, or gives the lock up.
-/

import LeveledLog.Proofs.History
import LeveledLog.Proofs.LineOrder

namespace LeveledLog

/-! ### Lines and what is said about them -/

namespace Command

def isLine (world : World) (command : Command) : Bool :=
  match command.effect world with
  | .line _ _ => true
  | .nothing | .failure => false

def isFailure (world : World) (command : Command) : Bool :=
  match command.effect world with
  | .failure => true
  | .nothing | .line _ _ => false

theorem not_isFailure_of_isLine {world : World} {command : Command}
    (line : command.isLine world = true) :
    command.isFailure world = false := by
  unfold isLine at line
  unfold isFailure
  cases effect : command.effect world with
  | nothing | line =>
      rfl
  | failure =>
      rw [effect] at line
      cases line

end Command

/-- One line: the thread and the call that wrote it, which is counted from zero
among the calls of the thread, and the prefix that it has. -/
structure WrittenLine where
  thread : Nat
  command : Command
  number : Nat
  linePrefix : LinePrefix

namespace WrittenLine

def writes (world : World) (line : WrittenLine) : List Delivery :=
  line.command.writes world line.linePrefix

def call (line : WrittenLine) : Command × Nat :=
  (line.command, line.number)

end WrittenLine

namespace Pool

def written (pool : Pool) (world : World) : List Delivery :=
  pool.acceptedIn fun _ command => !command.isFailure world

def failures (pool : Pool) (world : World) (thread : Nat) :
    List Delivery :=
  pool.acceptedIn fun caller command =>
    caller == thread && command.isFailure world

variable {pool : Pool} {world after : World} {thread : Nat}
variable {command : Command} {state : ThreadState}

theorem note_of_line (calls : pool.calling thread = some command)
    (line : command.isLine world = true) (deed : Deed) :
    (pool.note thread after state deed).written world =
        pool.written world ++ deed.accepted ∧
      (pool.note thread after state deed).failures world =
        pool.failures world := by
  have renders := Command.not_isFailure_of_isLine line
  constructor
  · unfold written
    rw [acceptedIn_note, calls]
    simp [renders]
  · funext other
    unfold failures
    rw [acceptedIn_note, calls]
    simp [renders]

theorem note_of_failure (calls : pool.calling thread = some command)
    (fails : command.isFailure world = true) (deed : Deed) :
    (pool.note thread after state deed).written world = pool.written world ∧
      ∀ other, (pool.note thread after state deed).failures world other =
        pool.failures world other ++
          if thread = other then deed.accepted else [] := by
  constructor
  · unfold written
    rw [acceptedIn_note, calls]
    simp [fails]
  · intro other
    unfold failures
    rw [acceptedIn_note, calls]
    simp [fails]

/-- A thread is about to copy the prefix of a line, and no more than the given
deliveries has been written. -/
structure CopiesPrefix (pool : Pool) (world : World) (line : WrittenLine)
    (earlier : List Delivery) : Prop where
  about : pool.AboutTo line.thread (.load .linePrefix)
  linePrefix : pool.world.get .linePrefix = line.linePrefix
  number : (pool.begunBy line.thread).length = line.number + 1
  written : pool.written world <+: earlier

end Pool

/-- Along a schedule the prefix of a line was copied, when no more than the
given deliveries had been written. -/
def PrefixCopied (world : World) (start : Pool) (schedule : List Nat)
    (line : WrittenLine) (earlier : List Delivery) : Prop :=
  ∃ before after, schedule = before ++ line.thread :: after ∧
    (start.play before).CopiesPrefix world line earlier

namespace Station

def owedLine (world : World) (station : Station) : List (Command × Nat) :=
  match station.stage with
  | .starting | .copied _ =>
      station.call.toList.filter fun call => call.1.isLine world
  | .writing _ | .ended => []

def owedFailure (world : World) (station : Station) : List Delivery :=
  match station.stage with
  | .starting =>
      (station.call.toList.filter fun call => call.1.isFailure world).map
        fun _ => world.failureDelivery
  | .copied _ | .writing _ | .ended => []

variable {world : World} {station : Station}

theorem owed_of_finished (finished : station.Finished world) :
    station.owedLine world = [] ∧ station.owedFailure world = [] := by
  rcases station with ⟨call, config, stage⟩
  rcases finished.stage with ended | ⟨starting, nothing⟩
  · cases ended
    exact ⟨rfl, rfl⟩
  · cases starting
    cases call with
    | none =>
        exact ⟨rfl, rfl⟩
    | some counted =>
        have none := nothing counted.1 counted.2 rfl
        simp [owedLine, owedFailure, Command.isLine, Command.isFailure, none]

end Station

/-! ### The lines written so far -/

private theorem PrefixCopied.extend {world : World} {start : Pool}
    {path : List Nat} {line : WrittenLine} {earlier : List Delivery}
    (copied : PrefixCopied world start path line earlier)
    (more : List Nat) {now : List Delivery} (fewer : earlier <+: now) :
    PrefixCopied world start (path ++ more) line now := by
  obtain ⟨before, after, split, copies⟩ := copied
  refine ⟨before, after ++ more, ?_, ?_⟩
  · rw [split]
    simp
  · exact { copies with written := copies.written.trans fewer }

/-- A thread writes, or is to write, the lines of the calls that it has begun,
when the given deliveries have been written in all. -/
structure ThreadLines (world : World) (start : Pool) (path : List Nat)
    (written : List Delivery) (begun : List Command)
    (lines : List WrittenLine) (thread : Nat) (station : Station) :
    Prop where
  writing : ∀ rest, station.stage = .writing rest →
    written ++ rest = lines.flatMap (WrittenLine.writes world)
  prepared : ∀ command number linePrefix,
    station.call = some (command, number) →
    station.stage = .copied linePrefix →
    PrefixCopied world start path
      { thread := thread, command := command, number := number
        linePrefix := linePrefix } written
  calls :
    (lines.filter fun line => line.thread == thread).map WrittenLine.call ++
        station.owedLine world =
      begun.zipIdx.filter fun call => call.1.isLine world

/-- The lines are whole, up to the one that the holder of the output lock
writes, and the prefix of each was copied before it began. -/
structure LinesAccord (world : World) (start : Pool) (path : List Nat)
    (holder : Option Nat) (written : List Delivery)
    (begun : Nat → List Command) (stations : Nat → Station)
    (lines : List WrittenLine) : Prop where
  whole : holder = none →
    written = lines.flatMap (WrittenLine.writes world)
  copied : ∀ first line last, lines = first ++ line :: last →
    PrefixCopied world start path line
      (first.flatMap (WrittenLine.writes world))
  threads : ∀ thread,
    ThreadLines world start path written (begun thread) lines thread
      (stations thread)

namespace ThreadLines

variable {world : World} {start : Pool} {path : List Nat}
variable {written : List Delivery} {begun : List Command}
variable {lines : List WrittenLine} {thread : Nat} {station : Station}

private theorem extend
    (accord : ThreadLines world start path written begun lines thread station)
    (more : List Nat) :
    ThreadLines world start (path ++ more) written begun lines thread
      station :=
  { accord with
    prepared := fun command number linePrefix calls stands =>
      (accord.prepared command number linePrefix calls stands).extend more
        List.prefix_rfl }

private theorem meanwhile
    (accord : ThreadLines world start path written begun lines thread station)
    (idle : ¬ station.holdsOutput = true) (more : List Nat)
    {now : List Delivery} (fewer : written <+: now)
    {linesNow : List WrittenLine}
    (same : (linesNow.filter fun line => line.thread == thread) =
      lines.filter fun line => line.thread == thread) :
    ThreadLines world start (path ++ more) now begun linesNow thread
      station where
  writing _ stands :=
    absurd (Station.holdsOutput_of_writing stands) idle
  prepared command number linePrefix calls stands :=
    (accord.prepared command number linePrefix calls stands).extend more fewer
  calls := by
    rw [same]
    exact accord.calls

private theorem move
    (accord : ThreadLines world start path written begun lines thread station)
    {later : Station}
    (owed : later.owedLine world = station.owedLine world)
    (writing : ∀ rest, later.stage = .writing rest →
      station.stage = .writing rest)
    (copied : ∀ linePrefix, later.stage = .copied linePrefix →
      station.stage = .copied linePrefix ∧ later.call = station.call)
    (more : List Nat) :
    ThreadLines world start (path ++ more) written begun lines thread
      later where
  writing rest stands := accord.writing rest (writing rest stands)
  prepared command number linePrefix calls stands := by
    obtain ⟨stood, called⟩ := copied linePrefix stands
    exact (accord.prepared command number linePrefix
      (called.symm.trans calls) stood).extend more List.prefix_rfl
  calls := by
    rw [owed]
    exact accord.calls

end ThreadLines

namespace LinesAccord

variable {world : World} {start : Pool} {path : List Nat}
variable {holder : Option Nat} {written : List Delivery}
variable {begun : Nat → List Command} {stations : Nat → Station}
variable {lines : List WrittenLine} {thread : Nat} {later : Station}

private theorem copied_extend
    (accord : LinesAccord world start path holder written begun stations
      lines)
    (more : List Nat) (first : List WrittenLine) (line : WrittenLine)
    (last : List WrittenLine) (split : lines = first ++ line :: last) :
    PrefixCopied world start (path ++ more) line
      (first.flatMap (WrittenLine.writes world)) :=
  (accord.copied first line last split).extend more List.prefix_rfl

theorem keep
    (accord : LinesAccord world start path holder written begun stations
      lines)
    (owed : later.owedLine world = (stations thread).owedLine world)
    (writing : ∀ rest, later.stage = .writing rest →
      (stations thread).stage = .writing rest)
    (copied : ∀ linePrefix, later.stage = .copied linePrefix →
      (stations thread).stage = .copied linePrefix ∧
        later.call = (stations thread).call) :
    LinesAccord world start (path ++ [thread]) holder written begun
      (Function.update stations thread later) lines where
  whole := accord.whole
  copied := accord.copied_extend [thread]
  threads := by
    intro other
    by_cases different : other = thread
    · subst other
      rw [Function.update_self]
      exact (accord.threads thread).move owed writing copied [thread]
    · rw [Function.update_of_ne different]
      exact (accord.threads other).extend [thread]

theorem begins
    (accord : LinesAccord world start path holder written begun stations
      lines)
    (resting : stations thread = .resting) {command : Command}
    {begunAfter : Nat → List Command}
    (counts : ∀ other, begunAfter other =
      begun other ++ if thread = other then [command] else []) :
    LinesAccord world start (path ++ [thread]) holder written begunAfter
      (Function.update stations thread
        (.starting command (begun thread).length)) lines where
  whole := accord.whole
  copied := accord.copied_extend [thread]
  threads := by
    intro other
    by_cases different : other = thread
    · subst other
      rw [Function.update_self]
      constructor
      · intro _ impossible
        cases impossible
      · intro _ _ _ _ impossible
        cases impossible
      · have before := (accord.threads thread).calls
        have none : Station.resting.owedLine world = [] := rfl
        rw [resting, none, List.append_nil] at before
        rw [before, counts thread, if_pos rfl, List.zipIdx_append,
          List.filter_append, Nat.zero_add]
        rfl
    · rw [Function.update_of_ne different, counts other,
        if_neg (Ne.symm different), List.append_nil]
      exact (accord.threads other).extend [thread]

theorem copies
    (accord : LinesAccord world start path holder written begun stations
      lines)
    {command : Command} {number : Nat} {linePrefix : LinePrefix}
    (calls : (stations thread).call = some (command, number))
    (starting : (stations thread).stage = .starting)
    (copies : (start.play path).CopiesPrefix world
      { thread := thread, command := command, number := number
        linePrefix := linePrefix } written) :
    LinesAccord world start (path ++ [thread]) holder written begun
      (Function.update stations thread
        ((stations thread).withStage (.copied linePrefix))) lines where
  whole := accord.whole
  copied := accord.copied_extend [thread]
  threads := by
    intro other
    by_cases different : other = thread
    · subst other
      rw [Function.update_self]
      constructor
      · intro _ impossible
        cases impossible
      · intro asked count found called stands
        cases stands
        have same := calls.symm.trans called
        cases same
        exact ⟨path, [], rfl, copies⟩
      · rw [← (accord.threads thread).calls]
        unfold Station.owedLine
        rw [starting]
        rfl
    · rw [Function.update_of_ne different]
      exact (accord.threads other).extend [thread]

theorem takes
    (accord : LinesAccord world start path none written begun stations lines)
    {command : Command} {number : Nat} {linePrefix : LinePrefix}
    (idle : ∀ other, ¬ (stations other).holdsOutput = true)
    (calls : (stations thread).call = some (command, number))
    (line : command.isLine world = true)
    (stands : (stations thread).stage = .copied linePrefix) :
    LinesAccord world start (path ++ [thread]) (some thread) written begun
      (Function.update stations thread
        ((stations thread).withStage
          (.writing (command.writes world linePrefix))))
      (lines ++ [{ thread := thread, command := command, number := number
                   linePrefix := linePrefix }]) where
  whole := by
    intro impossible
    cases impossible
  copied first found last split := by
    -- The prefix of the new line was copied before all that is written now.
    rcases snoc_split split with ⟨_, same, single⟩ | ⟨shorter, _, same⟩
    · rw [← same, ← single, ← accord.whole rfl]
      exact ((accord.threads thread).prepared command number linePrefix calls
        stands).extend [thread] List.prefix_rfl
    · exact accord.copied_extend [thread] first found shorter same
  threads := by
    intro other
    by_cases different : other = thread
    · subst other
      rw [Function.update_self]
      constructor
      · intro rest writes
        cases writes
        rw [List.flatMap_append, ← accord.whole rfl]
        simp [WrittenLine.writes]
      · intro _ _ _ _ impossible
        cases impossible
      · rw [← (accord.threads thread).calls, List.filter_append,
          List.map_append]
        unfold Station.owedLine
        rw [stands, calls]
        simp [Station.withStage, WrittenLine.call, line]
    · rw [Function.update_of_ne different]
      apply (accord.threads other).meanwhile (idle other) [thread]
        List.prefix_rfl
      have notHere : (thread == other) = false := by
        simp [Ne.symm different]
      simp [notHere]

theorem delivers
    (accord : LinesAccord world start path holder written begun stations
      lines)
    (output : HeldBy holder (fun station => station.holdsOutput = true)
      stations)
    {delivery : Delivery} {rest : List Delivery}
    (stands : (stations thread).stage = .writing (delivery :: rest)) :
    LinesAccord world start (path ++ [thread]) holder
      (written ++ [delivery]) begun
      (Function.update stations thread
        ((stations thread).withStage (.writing rest))) lines where
  whole free := by
    rw [free] at output
    exact absurd (Station.holdsOutput_of_writing stands)
      (output.nobody thread)
  copied := accord.copied_extend [thread]
  threads := by
    intro other
    by_cases different : other = thread
    · subst other
      rw [Function.update_self]
      constructor
      · intro more writes
        cases writes
        rw [List.append_assoc]
        exact (accord.threads thread).writing _ stands
      · intro _ _ _ _ impossible
        cases impossible
      · rw [← (accord.threads thread).calls]
        unfold Station.owedLine
        rw [stands]
        rfl
    · rw [Function.update_of_ne different]
      have holds := Station.holdsOutput_of_writing stands
      exact (accord.threads other).meanwhile (output.only holds different)
        [thread] (List.prefix_append _ _) rfl

theorem givesUp
    (accord : LinesAccord world start path holder written begun stations
      lines)
    (stands : (stations thread).stage = .writing []) :
    LinesAccord world start (path ++ [thread]) none written begun
      (Function.update stations thread
        ((stations thread).withStage .ended)) lines := by
  have kept : LinesAccord world start (path ++ [thread]) holder written begun
      (Function.update stations thread
        ((stations thread).withStage .ended)) lines := by
    apply accord.keep
    · unfold Station.owedLine
      rw [stands]
      rfl
    · intro _ impossible
      cases impossible
    · intro _ impossible
      cases impossible
  refine { kept with whole := fun _ => ?_ }
  have complete := (accord.threads thread).writing [] stands
  rw [List.append_nil] at complete
  exact complete

end LinesAccord

/-! ### Messages that cannot be rendered -/

/-- The threads have written the fixed line once for each of their calls whose
message cannot be rendered, unless they have it yet to write. -/
def FailuresAccord (world : World) (failures : Nat → List Delivery)
    (begun : Nat → List Command) (stations : Nat → Station) : Prop :=
  ∀ thread, failures thread ++ (stations thread).owedFailure world =
    ((begun thread).filter (Command.isFailure world)).map
      fun _ => world.failureDelivery

namespace FailuresAccord

variable {world : World} {failures : Nat → List Delivery}
variable {begun : Nat → List Command} {stations : Nat → Station}
variable {thread : Nat} {later : Station}

theorem keep (accord : FailuresAccord world failures begun stations)
    (owed : later.owedFailure world = (stations thread).owedFailure world) :
    FailuresAccord world failures begun
      (Function.update stations thread later) := by
  intro other
  by_cases different : other = thread
  · subst other
    rw [Function.update_self, owed]
    exact accord thread
  · rw [Function.update_of_ne different]
    exact accord other

theorem begins (accord : FailuresAccord world failures begun stations)
    (resting : stations thread = .resting) {command : Command}
    {begunAfter : Nat → List Command}
    (counts : ∀ other, begunAfter other =
      begun other ++ if thread = other then [command] else [])
    (number : Nat) :
    FailuresAccord world failures begunAfter
      (Function.update stations thread (.starting command number)) := by
  intro other
  by_cases different : other = thread
  · subst other
    rw [Function.update_self]
    have before := accord thread
    have none : Station.resting.owedFailure world = [] := rfl
    rw [resting, none, List.append_nil] at before
    rw [before, counts thread, if_pos rfl, List.filter_append,
      List.map_append]
    congr 1
    cases fails : command.isFailure world with
    | false | true =>
        simp [Station.owedFailure, Station.starting, Station.resting, fails]
  · rw [Function.update_of_ne different, counts other,
      if_neg (Ne.symm different), List.append_nil]
    exact accord other

theorem delivers (accord : FailuresAccord world failures begun stations)
    {after : Nat → List Delivery} {command : Command} {number : Nat}
    (calls : (stations thread).call = some (command, number))
    (fails : command.isFailure world = true)
    (starting : (stations thread).stage = .starting)
    (counts : ∀ other, after other = failures other ++
      if thread = other then [world.failureDelivery] else []) :
    FailuresAccord world after begun
      (Function.update stations thread
        ((stations thread).withStage .ended)) := by
  intro other
  by_cases different : other = thread
  · subst other
    rw [Function.update_self]
    rw [← accord thread, counts thread, if_pos rfl, List.append_assoc]
    congr 1
    unfold Station.owedFailure
    rw [starting, calls]
    simp [Station.withStage, fails]
  · rw [Function.update_of_ne different, counts other,
      if_neg (Ne.symm different), List.append_nil]
    exact accord other

end FailuresAccord

end LeveledLog
