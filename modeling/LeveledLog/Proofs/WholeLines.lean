/-
Lines stay whole, under any schedule.

Threads that log messages and set the line prefix on one logger take their
steps in any order.  When all of them have ended, the deliveries of the calls
whose message could be rendered are whole lines, one after the other.  Each
line is what one call would write alone, with the prefix that was set at a
moment during that call, before the line began.  Every thread writes the lines
of its calls once each and in order, and every message that cannot be rendered
is one delivery of its own.
-/

import LeveledLog.Proofs.LineLedger

namespace LeveledLog

/-! ### The accord of all threads -/

/-- The settings have not changed, apart from the line prefix, and the locks
are held by the threads that say so. -/
structure WorldAccord (world now : World) (stations : Nat → Station) :
    Prop where
  settled : world.SameButPrefix now
  config : HeldBy now.configLock.holder
    (fun station => station.config = true) stations
  output : HeldBy now.outputLock.holder
    (fun station => station.holdsOutput = true) stations

structure CallAccord (world : World) (pool : Pool) (thread : Nat)
    (station : Station) : Prop where
  resting : station.call = none → station = .resting ∧
    ∀ state, pool.threads[thread]? = some state → state.current = none
  calling : ∀ command number, station.call = some (command, number) →
    pool.calling thread = some command ∧
      (pool.begunBy thread).length = number + 1 ∧
      ∃ script pending, pool.threads[thread]? =
        some { current := some script, pending := pending }
  line : ∀ command number, station.call = some (command, number) →
    station.stage.underWay = true → command.isLine world = true

structure WritingAccord (world : World) (start : Pool) (path : List Nat)
    (pool : Pool) (stations : Nat → Station) : Prop where
  played : pool = start.play path
  settled : WorldAccord world pool.world stations
  calls : ∀ thread, CallAccord world pool thread (stations thread)
  calm : world.Stamps → pool.panicked = false
  failures : FailuresAccord world (pool.failures world) pool.begunBy stations
  lines : ∃ lines, LinesAccord world start path pool.world.outputLock.holder
    (pool.written world) pool.begunBy stations lines

namespace CallAccord

variable {world : World} {pool : Pool} {thread : Nat} {station : Station}

private theorem called (accord : CallAccord world pool thread station)
    (underWay : station.stage.underWay = true) :
    ∃ command number, station.call = some (command, number) ∧
      pool.calling thread = some command ∧ command.isLine world = true := by
  cases calls : station.call with
  | none =>
      rw [(accord.resting calls).1] at underWay
      cases underWay
  | some counted =>
      obtain ⟨command, number⟩ := counted
      exact ⟨command, number, rfl, (accord.calling command number calls).1,
        accord.line command number calls underWay⟩

private theorem other {stepping : Nat}
    (accord : CallAccord world pool thread station)
    (different : thread ≠ stepping) (after : World) (state : ThreadState)
    (deed : Deed) :
    CallAccord world (pool.note stepping after state deed) thread station where
  resting none := by
    rw [Pool.note_threads_of_ne pool after state deed different]
    exact accord.resting none
  calling command number calls := by
    rw [Pool.calling_note, if_neg (Ne.symm different), Pool.begunBy_note,
      if_neg (Ne.symm different), List.append_nil,
      Pool.note_threads_of_ne pool after state deed different]
    exact accord.calling command number calls
  line := accord.line

private theorem busy (accord : CallAccord world pool thread station)
    {script : Script Value} {pending : List Command}
    (present : pool.threads[thread]? =
      some { current := some script, pending := pending }) :
    station.call ≠ none := by
  intro none
  have idle := (accord.resting none).2 _ present
  cases idle

private theorem performs (accord : CallAccord world pool thread station)
    {before : Script Value} {pending : List Command}
    (present : pool.threads[thread]? =
      some { current := some before, pending := pending })
    {later : Station} (same : later.call = station.call)
    (line : ∀ command number, later.call = some (command, number) →
      later.stage.underWay = true → command.isLine world = true)
    (after : World) (script : Script Value) (action : Action)
    (accepted : List Delivery) :
    CallAccord world
      (pool.note thread after { current := some script, pending := pending }
        (.performed action accepted)) thread later where
  resting none := absurd (same.symm.trans none) (accord.busy present)
  calling command number calls := by
    obtain ⟨calling, counts, _⟩ :=
      accord.calling command number (same.symm.trans calls)
    refine ⟨?_, ?_, script, pending,
      Pool.note_threads_same present after _ _⟩
    · rw [Pool.calling_note, if_pos rfl]
      exact calling
    · rw [Pool.begunBy_note, if_pos rfl]
      simpa [Event.begun?] using counts
  line := line

private theorem begins {command : Command} {pending : List Command}
    (present : pool.threads[thread]? =
      some { current := none, pending := command :: pending }) :
    CallAccord world
      (pool.note thread pool.world
        { current := some command.script, pending := pending }
        (.began command)) thread
      (.starting command (pool.begunBy thread).length) where
  resting := by
    intro impossible
    cases impossible
  calling asked number calls := by
    cases calls
    refine ⟨?_, ?_, _, _, Pool.note_threads_same present _ _ _⟩
    · rw [Pool.calling_note, if_pos rfl]
      rfl
    · rw [Pool.begunBy_note, if_pos rfl]
      exact List.length_append
  line _ _ _ impossible := by
    cases impossible

private theorem ends {state : ThreadState}
    (present : pool.threads[thread]? = some state) (pending : List Command)
    (deed : Deed) :
    CallAccord world
      (pool.note thread pool.world { current := none, pending := pending }
        deed) thread .resting where
  resting _ := by
    refine ⟨rfl, ?_⟩
    intro changed found
    rw [Pool.note_threads_same present] at found
    cases found
    rfl
  calling := by
    intro _ _ impossible
    cases impossible
  line := by
    intro _ _ impossible
    cases impossible

end CallAccord

private theorem WorldAccord.keep {world now after : World}
    {stations : Nat → Station} (accord : WorldAccord world now stations)
    (same : world.SameButPrefix after)
    (config : after.configLock.holder = now.configLock.holder)
    (output : after.outputLock.holder = now.outputLock.holder)
    {thread : Nat} {later : Station}
    (usesConfig : later.config = (stations thread).config)
    (usesOutput : later.holdsOutput = (stations thread).holdsOutput) :
    WorldAccord world after (Function.update stations thread later) where
  settled := same
  config := by
    rw [config]
    exact accord.config.keep (by rw [usesConfig])
  output := by
    rw [output]
    exact accord.output.keep (by rw [usesOutput])

private theorem Station.line_of_call {world : World} {station : Station}
    {command : Command} {number : Nat}
    (calls : station.call = some (command, number))
    (line : command.isLine world = true) {stage : LineStage} :
    ∀ called count, (station.withStage stage).call = some (called, count) →
      (station.withStage stage).stage.underWay = true →
      called.isLine world = true := by
  intro called count same _
  have found := calls.symm.trans same
  cases found
  exact line

namespace WritingAccord

variable {world : World} {start pool : Pool} {path : List Nat}
variable {stations : Nat → Station} {thread : Nat} {later : Station}

section Performs

variable {action : Action} {next : action.Result → Script Value}
variable {pending : List Command} {performed : Performed action.Result}

private theorem step (accord : WritingAccord world start path pool stations)
    (present : pool.threads[thread]? =
      some { current := some (.step action next), pending := pending })
    (performs : action.perform thread pool.world = some performed)
    (settled : WorldAccord world performed.world
      (Function.update stations thread later))
    (called : later.call = (stations thread).call)
    (line : ∀ command number, later.call = some (command, number) →
      later.stage.underWay = true → command.isLine world = true)
    (failures : FailuresAccord world
      ((pool.note thread performed.world
        { current := some (next performed.result), pending := pending }
        (.performed action performed.accepted)).failures world)
      pool.begunBy (Function.update stations thread later))
    (lines : List WrittenLine)
    (whole : LinesAccord world start (path ++ [thread])
      performed.world.outputLock.holder
      ((pool.note thread performed.world
        { current := some (next performed.result), pending := pending }
        (.performed action performed.accepted)).written world)
      pool.begunBy (Function.update stations thread later) lines) :
    WritingAccord world start (path ++ [thread])
      (pool.note thread performed.world
        { current := some (next performed.result), pending := pending }
        (.performed action performed.accepted))
      (Function.update stations thread later) where
  played := Pool.play_snoc accord.played
    (Pool.step_of_perform present performs)
  settled := settled
  calls := by
    intro other
    by_cases different : other = thread
    · subst other
      rw [Function.update_self]
      exact (accord.calls thread).performs present called line _ _ _ _
    · rw [Function.update_of_ne different]
      exact (accord.calls other).other different _ _ _
  calm stamps := by
    rw [Pool.panicked_note]
    exact accord.calm stamps
  failures := by
    rw [Pool.begunBy_note_silent rfl]
    exact failures
  lines := by
    rw [Pool.begunBy_note_silent rfl]
    exact ⟨lines, whole⟩

private theorem quiet (accord : WritingAccord world start path pool stations)
    (present : pool.threads[thread]? =
      some { current := some (.step action next), pending := pending })
    (performs : action.perform thread pool.world = some performed)
    (settled : WorldAccord world performed.world
      (Function.update stations thread later))
    (nothing : performed.accepted = [])
    (called : later.call = (stations thread).call)
    (line : ∀ command number, later.call = some (command, number) →
      later.stage.underWay = true → command.isLine world = true)
    (owed : later.owedFailure world = (stations thread).owedFailure world)
    (lines : List WrittenLine)
    (whole : LinesAccord world start (path ++ [thread])
      performed.world.outputLock.holder (pool.written world) pool.begunBy
      (Function.update stations thread later) lines) :
    WritingAccord world start (path ++ [thread])
      (pool.note thread performed.world
        { current := some (next performed.result), pending := pending }
        (.performed action performed.accepted))
      (Function.update stations thread later) := by
  have silent : Deed.accepted (.performed action performed.accepted) = [] :=
    nothing
  refine accord.step present performs settled called line ?_ lines ?_
  · have same : (pool.note thread performed.world
        { current := some (next performed.result), pending := pending }
        (.performed action performed.accepted)).failures world =
        pool.failures world := by
      funext other
      exact Pool.acceptedIn_note_silent silent _
    rw [same]
    exact accord.failures.keep owed
  · unfold Pool.written
    rw [Pool.acceptedIn_note_silent silent]
    exact whole

private theorem aside (accord : WritingAccord world start path pool stations)
    (present : pool.threads[thread]? =
      some { current := some (.step action next), pending := pending })
    (performs : action.perform thread pool.world = some performed)
    (settled : WorldAccord world performed.world
      (Function.update stations thread later))
    (nothing : performed.accepted = [])
    (called : later.call = (stations thread).call)
    (stage : later.stage = (stations thread).stage)
    (holder : performed.world.outputLock.holder =
      pool.world.outputLock.holder) :
    WritingAccord world start (path ++ [thread])
      (pool.note thread performed.world
        { current := some (next performed.result), pending := pending }
        (.performed action performed.accepted))
      (Function.update stations thread later) := by
  obtain ⟨lines, whole⟩ := accord.lines
  refine accord.quiet present performs settled nothing called ?_ ?_ lines ?_
  · rw [called, stage]
    exact (accord.calls thread).line
  · unfold Station.owedFailure
    rw [stage, called]
  · rw [holder]
    apply whole.keep
    · unfold Station.owedLine
      rw [stage, called]
    · intro rest stands
      exact stage.symm.trans stands
    · intro linePrefix stands
      exact ⟨stage.symm.trans stands, called⟩

end Performs

variable {pending : List Command} {command : Command} {number : Nat}

private theorem copiesPrefix
    (accord : WritingAccord world start path pool stations)
    {next : LinePrefix → Script Value}
    (present : pool.threads[thread]? =
      some { current := some (.step (.load .linePrefix) next)
             pending := pending })
    (calls : (stations thread).call = some (command, number))
    (line : command.isLine world = true)
    (starting : (stations thread).stage = .starting) :
    WritingAccord world start (path ++ [thread])
      (pool.note thread pool.world
        { current := some (next (pool.world.get .linePrefix))
          pending := pending }
        (.performed (.load .linePrefix) []))
      (Function.update stations thread
        ((stations thread).withStage
          (.copied (pool.world.get .linePrefix)))) := by
  obtain ⟨lines, whole⟩ := accord.lines
  have copies : (start.play path).CopiesPrefix world
      { thread := thread, command := command, number := number
        linePrefix := pool.world.get .linePrefix }
      (pool.written world) := by
    rw [← accord.played]
    exact ⟨⟨next, pending, present⟩, rfl,
      ((accord.calls thread).calling command number calls).2.1,
      List.prefix_rfl⟩
  refine accord.quiet present rfl
    (accord.settled.keep accord.settled.settled rfl rfl rfl ?_) rfl rfl
    (Station.line_of_call calls line) ?_ lines (whole.copies calls starting copies)
  · unfold Station.holdsOutput
    rw [starting]
    rfl
  · unfold Station.owedFailure
    rw [starting, calls]
    simp [Station.withStage, Command.not_isFailure_of_isLine line]

private theorem takesOutput
    (accord : WritingAccord world start path pool stations)
    {next : Unit → Script Value} {performed : Performed Unit}
    (present : pool.threads[thread]? =
      some { current := some (.step (.acquire .output) next)
             pending := pending })
    (performs :
      (Action.acquire .output).perform thread pool.world = some performed)
    {linePrefix : LinePrefix}
    (calls : (stations thread).call = some (command, number))
    (copied : (stations thread).stage = .copied linePrefix) :
    WritingAccord world start (path ++ [thread])
      (pool.note thread performed.world
        { current := some (next performed.result), pending := pending }
        (.performed (.acquire .output) performed.accepted))
      (Function.update stations thread
        ((stations thread).withStage
          (.writing (command.writes world linePrefix)))) := by
  obtain ⟨unheld, same⟩ := Action.perform_acquire_eq performs
  cases same
  obtain ⟨lines, whole⟩ := accord.lines
  have output := accord.settled.output
  rw [show pool.world.outputLock.holder = none from unheld] at output whole
  have line := (accord.calls thread).line command number calls
    (by rw [copied]; rfl)
  refine accord.quiet present performs
    ⟨accord.settled.settled.frame rfl rfl rfl, accord.settled.config.keep Iff.rfl,
      output.take rfl⟩
    rfl rfl (Station.line_of_call calls line) ?_ _
    (whole.takes output.nobody calls line copied)
  unfold Station.owedFailure
  rw [copied]
  rfl

private theorem givesOutputUp
    (accord : WritingAccord world start path pool stations)
    {next : Unit → Script Value} {panicked : Bool}
    (present : pool.threads[thread]? =
      some { current := some (.step (.release .output panicked) next)
             pending := pending })
    (written : (stations thread).stage = .writing []) :
    WritingAccord world start (path ++ [thread])
      (pool.note thread
        (pool.world.setLock .output
          { holder := none
            poisoned := (pool.world.lock .output).poisoned || panicked })
        { current := some (next ()), pending := pending }
        (.performed (.release .output panicked) []))
      (Function.update stations thread
        ((stations thread).withStage .ended)) := by
  obtain ⟨lines, whole⟩ := accord.lines
  have holds := Station.holdsOutput_of_writing written
  refine accord.quiet present rfl
    ⟨accord.settled.settled.frame rfl rfl rfl, accord.settled.config.keep Iff.rfl,
      accord.settled.output.giveUp holds Bool.false_ne_true⟩
    rfl rfl ?_ ?_ lines (whole.givesUp written)
  · intro _ _ _ impossible
    cases impossible
  · unfold Station.owedFailure
    rw [written]
    rfl

private theorem delivers (ready : world.ReadyToLog)
    (accord : WritingAccord world start path pool stations)
    {next : Reaction → Script Value} {bytes : Bytes} {rest : List Delivery}
    (present : pool.threads[thread]? =
      some { current := some
               (.step (.deliver (world.get .destination) bytes) next)
             pending := pending })
    (writing : (stations thread).stage =
      .writing (world.delivers bytes :: rest)) :
    WritingAccord world start (path ++ [thread])
      (pool.note thread pool.world
        { current := some (next Reaction.plain), pending := pending }
        (.performed (.deliver (world.get .destination) bytes)
          [world.delivers bytes]))
      (Function.update stations thread
        ((stations thread).withStage (.writing rest))) := by
  have performs := Action.perform_deliver ready.captures
    accord.settled.settled bytes thread
  obtain ⟨lines, whole⟩ := accord.lines
  obtain ⟨command, number, calls, calling, line⟩ :=
    (accord.calls thread).called (by rw [writing]; rfl)
  obtain ⟨more, others⟩ := Pool.note_of_line calling line
    (.performed (.deliver (world.get .destination) bytes)
      [world.delivers bytes])
  refine accord.step present performs
    (accord.settled.keep accord.settled.settled rfl rfl rfl ?_) rfl
    (Station.line_of_call calls line) ?_ lines ?_
  · unfold Station.holdsOutput
    rw [writing]
    rfl
  · rw [others]
    apply accord.failures.keep
    unfold Station.owedFailure
    rw [writing]
    rfl
  · rw [more]
    exact whole.delivers accord.settled.output writing

private theorem deliversFailure (ready : world.ReadyToLog)
    (accord : WritingAccord world start path pool stations)
    {next : Reaction → Script Value}
    (present : pool.threads[thread]? =
      some { current := some
               (.step (.deliver (world.get .destination)
                 (Text.utf8 formatErrorLine)) next)
             pending := pending })
    (calls : (stations thread).call = some (command, number))
    (effect : command.effect world = .failure)
    (starting : (stations thread).stage = .starting) :
    WritingAccord world start (path ++ [thread])
      (pool.note thread pool.world
        { current := some (next Reaction.plain), pending := pending }
        (.performed
          (.deliver (world.get .destination) (Text.utf8 formatErrorLine))
          [world.delivers (Text.utf8 formatErrorLine)]))
      (Function.update stations thread
        ((stations thread).withStage .ended)) := by
  have performs := Action.perform_deliver ready.captures
    accord.settled.settled (Text.utf8 formatErrorLine) thread
  obtain ⟨lines, whole⟩ := accord.lines
  have fails : command.isFailure world = true := by
    unfold Command.isFailure
    rw [effect]
  have calling := ((accord.calls thread).calling command number calls).1
  obtain ⟨same, more⟩ := Pool.note_of_failure calling fails
    (.performed
      (.deliver (world.get .destination) (Text.utf8 formatErrorLine))
      [world.delivers (Text.utf8 formatErrorLine)])
  refine accord.step present performs
    (accord.settled.keep accord.settled.settled rfl rfl rfl ?_) rfl ?_ ?_
    lines ?_
  · unfold Station.holdsOutput
    rw [starting]
    rfl
  · intro _ _ _ impossible
    cases impossible
  · exact accord.failures.delivers calls fails starting more
  · rw [same]
    apply whole.keep
    · unfold Station.owedLine
      rw [starting, calls]
      simp [Station.withStage, Command.isLine, effect]
    · intro _ impossible
      cases impossible
    · intro _ impossible
      cases impossible

private theorem performs {action : Action} {next : action.Result → Script Value}
    {performed : Performed action.Result} (ready : world.ReadyToLog)
    (accord : WritingAccord world start path pool stations)
    (present : pool.threads[thread]? =
      some { current := some (.step action next), pending := pending })
    (performs : action.perform thread pool.world = some performed)
    (move : LineMove world (stations thread) action performed.result later) :
    WritingAccord world start (path ++ [thread])
      (pool.note thread performed.world
        { current := some (next performed.result), pending := pending }
        (.performed action performed.accepted))
      (Function.update stations thread later) := by
  obtain ⟨result, after, accepted⟩ := performed
  have settled := accord.settled
  -- Only the last five moves change what the thread has yet to write.
  cases move with
  | load | readClock | readHost =>
      cases performs
      exact accord.aside present rfl
        (settled.keep settled.settled rfl rfl rfl rfl) rfl rfl rfl rfl
  | pass =>
      have passes := Action.perform_begin_of_complete
        (settled.settled.initialisation.trans ready.complete) thread
      rw [passes] at performs
      cases performs
      exact accord.aside present passes
        (settled.keep settled.settled rfl rfl rfl rfl) rfl rfl rfl rfl
  | storePrefix linePrefix held =>
      cases performs
      exact accord.aside present rfl
        (settled.keep (settled.settled.setPrefix linePrefix)
          rfl rfl rfl rfl) rfl rfl rfl rfl
  | acquireConfig free =>
      obtain ⟨unheld, same⟩ := Action.perform_acquire_eq performs
      cases same
      have config := settled.config
      rw [show pool.world.configLock.holder = none from unheld] at config
      exact accord.aside present performs
        ⟨settled.settled.frame rfl rfl rfl, config.take rfl,
          settled.output.keep Iff.rfl⟩ rfl rfl rfl rfl
  | releaseConfig held =>
      cases performs
      exact accord.aside present rfl
        ⟨settled.settled.frame rfl rfl rfl,
          settled.config.giveUp held Bool.false_ne_true,
          settled.output.keep Iff.rfl⟩ rfl rfl rfl rfl
  | copyPrefix linePrefix command number entry text held calls effect
    starting =>
      cases performs
      have line : command.isLine world = true := by
        unfold Command.isLine
        rw [effect]
      exact accord.copiesPrefix present calls line starting
  | acquireOutput command number linePrefix calls copied =>
      exact accord.takesOutput present performs calls copied
  | releaseOutput panicked written =>
      cases performs
      exact accord.givesOutputUp present written
  | deliver bytes rest writing =>
      rw [Action.perform_deliver ready.captures settled.settled] at performs
      cases performs
      exact accord.delivers ready present writing
  | deliverFailure command number calls effect starting =>
      rw [Action.perform_deliver ready.captures settled.settled] at performs
      cases performs
      exact accord.deliversFailure ready present calls effect starting

private theorem expected {action : Action} {performed : Performed action.Result}
    (ready : world.ReadyToLog)
    (accord : WritingAccord world start path pool stations)
    (performs : action.perform thread pool.world = some performed)
    (possible : ∀ result, world.Answers action result →
      ∃ later, LineMove world (stations thread) action result later) :
    world.Answers action performed.result := by
  have settled := accord.settled.settled
  cases action with
  | load cell =>
      cases performs
      intro other
      exact settled.cells cell other
  | beginInitialisation =>
      have complete := settled.initialisation.trans ready.complete
      rw [Action.perform_begin_of_complete complete] at performs
      cases performs
      rfl
  | readClock | readHost =>
      cases performs
      simp only [World.Answers]
      rw [← settled.surroundings]
      rfl
  | deliver destination bytes =>
      have current : destination = world.get .destination := by
        obtain ⟨_, move⟩ := possible Reaction.plain rfl
        cases move with
        | deliver | deliverFailure =>
            rfl
      subst current
      rw [Action.perform_deliver ready.captures settled] at performs
      cases performs
      rfl
  | store | acquire | release | endInitialisation | lookup | setClock | arm
  | collect | takeFacade =>
      trivial

private theorem idles (accord : WritingAccord world start path pool stations)
    (idle : pool.step thread = pool) :
    WritingAccord world start (path ++ [thread]) pool stations := by
  obtain ⟨lines, whole⟩ := accord.lines
  have same : Function.update stations thread (stations thread) = stations :=
    Function.update_eq_self thread stations
  have kept : LinesAccord world start (path ++ [thread])
      pool.world.outputLock.holder (pool.written world) pool.begunBy
      stations lines := by
    rw [← same]
    exact whole.keep rfl (fun _ stands => stands)
      (fun _ stands => ⟨stands, rfl⟩)
  exact { accord with
    played := Pool.play_snoc accord.played idle
    lines := ⟨lines, kept⟩ }

private theorem begins (accord : WritingAccord world start path pool stations)
    {command : Command} {pending : List Command}
    (present : pool.threads[thread]? =
      some { current := none, pending := command :: pending })
    (resting : stations thread = .resting) :
    WritingAccord world start (path ++ [thread])
      (pool.note thread pool.world
        { current := some command.script, pending := pending }
        (.began command))
      (Function.update stations thread
        (.starting command (pool.begunBy thread).length)) := by
  obtain ⟨lines, whole⟩ := accord.lines
  refine ⟨Pool.play_snoc accord.played (Pool.step_of_begin present),
    ?_, ?_, ?_, ?_, lines, ?_⟩
  · apply accord.settled.keep accord.settled.settled rfl rfl
    · rw [resting]
      rfl
    · rw [resting]
      rfl
  · intro other
    by_cases different : other = thread
    · subst other
      rw [Function.update_self]
      exact .begins present
    · rw [Function.update_of_ne different]
      exact (accord.calls other).other different _ _ _
  · intro stamps
    rw [Pool.panicked_note]
    exact accord.calm stamps
  · have same : (pool.note thread pool.world
        { current := some command.script, pending := pending }
        (.began command)).failures world = pool.failures world := by
      funext other
      exact Pool.acceptedIn_note_silent rfl _
    rw [same]
    exact accord.failures.begins resting (fun _ => rfl) _
  · unfold Pool.written
    rw [Pool.acceptedIn_note_silent rfl]
    exact whole.begins resting fun _ => rfl

private theorem ends (accord : WritingAccord world start path pool stations)
    {state : ThreadState} (present : pool.threads[thread]? = some state)
    (finished : (stations thread).Finished world) (pending : List Command)
    (deed : Deed) (nothing : deed.accepted = [])
    (noCall : Event.begun? { thread := thread, deed := deed } = none)
    (calm : world.Stamps → deed.panics = false)
    (steps : pool.step thread =
      pool.note thread pool.world { current := none, pending := pending }
        deed) :
    WritingAccord world start (path ++ [thread])
      (pool.note thread pool.world { current := none, pending := pending }
        deed)
      (Function.update stations thread .resting) := by
  obtain ⟨lines, whole⟩ := accord.lines
  obtain ⟨owedLine, owedFailure⟩ := Station.owed_of_finished finished
  refine ⟨Pool.play_snoc accord.played steps, ?_, ?_, ?_, ?_, lines, ?_⟩
  · apply accord.settled.keep accord.settled.settled rfl rfl
    · rw [finished.config]
      rfl
    · unfold Station.holdsOutput
      rcases finished.stage with ended | ⟨starting, _⟩
      · rw [ended]
        rfl
      · rw [starting]
        rfl
  · intro other
    by_cases different : other = thread
    · subst other
      rw [Function.update_self]
      exact .ends present _ _
    · rw [Function.update_of_ne different]
      exact (accord.calls other).other different _ _ _
  · intro stamps
    rw [Pool.panicked_note, calm stamps, accord.calm stamps]
    rfl
  · have same : (pool.note thread pool.world
        { current := none, pending := pending } deed).failures world =
        pool.failures world := by
      funext other
      exact Pool.acceptedIn_note_silent nothing _
    rw [same, Pool.begunBy_note_silent noCall]
    exact accord.failures.keep owedFailure.symm
  · unfold Pool.written
    rw [Pool.acceptedIn_note_silent nothing, Pool.begunBy_note_silent noCall]
    refine whole.keep owedLine.symm ?_ ?_
    · intro _ impossible
      cases impossible
    · intro _ impossible
      cases impossible

theorem keeps (ready : world.ReadyToLog) (start : Pool) :
    (Regime.logging world).Keeps (fun command => command.isPlain = true)
      (WritingAccord world start) where
  idles _ accord idle := accord.idles idle
  begins accord present plain rests :=
    ⟨_, Command.followed_logging ready plain _,
      accord.begins present rests⟩
  performs accord present performs possible :=
    ⟨accord.expected ready performs possible,
      fun _ move => accord.performs ready present performs move⟩
  returns accord present finished :=
    ⟨.resting, rfl, accord.ends present finished _ _ rfl rfl
      (fun _ => rfl) (Pool.step_of_return present)⟩
  panics accord present panics :=
    ⟨.resting, rfl, accord.ends present panics.1 _ _ rfl rfl
      (fun stamps => absurd stamps panics.2) (Pool.step_of_panic present)⟩

private theorem atStart (ready : world.ReadyToLog)
    (work : List (List Command)) :
    WritingAccord world (Pool.start world work) []
      (Pool.start world work) fun _ => .resting where
  played := rfl
  settled := by
    refine ⟨⟨fun _ _ => rfl, rfl, rfl⟩, ?_, ?_⟩
    · intro thread
      change world.configLock.holder = some thread ↔ _
      rw [ready.configFree]
      simp [Station.resting]
    · intro thread
      change world.outputLock.holder = some thread ↔ _
      rw [ready.outputFree]
      simp [Station.resting, Station.holdsOutput]
  calls thread := by
    refine ⟨fun _ => ⟨rfl, ?_⟩, ?_, ?_⟩
    · intro state present
      simp only [Pool.start, List.getElem?_map, Option.map_eq_some_iff]
        at present
      obtain ⟨commands, _, same⟩ := present
      rw [← same]
      rfl
    · intro _ _ impossible
      cases impossible
    · intro _ _ impossible
      cases impossible
  calm _ := rfl
  failures _ := rfl
  lines := by
    refine ⟨[], fun _ => rfl, ?_, ?_⟩
    · intro first line last impossible
      simp at impossible
    · intro thread
      refine ⟨?_, ?_, rfl⟩
      · intro _ impossible
        cases impossible
      · intro _ _ _ _ impossible
        cases impossible

private theorem resting_of_finished
    (accord : WritingAccord world start path pool stations)
    (finished : pool.finished = true) (thread : Nat) :
    stations thread = .resting := by
  cases calls : (stations thread).call with
  | none =>
      exact ((accord.calls thread).resting calls).1
  | some counted =>
      obtain ⟨_, _, script, pending, present⟩ :=
        (accord.calls thread).calling counted.1 counted.2 calls
      have ended := List.all_eq_true.mp finished _
        (List.mem_of_getElem? present)
      cases ended

end WritingAccord

/-! ### Whole lines -/

/-- The threads have written whole lines and have made the calls that they
were given to make. -/
structure Pool.WroteLines (world : World) (work : List (List Command))
    (schedule : List Nat) (lines : List WrittenLine) : Prop where
  written : ((start world work).play schedule).written world =
    lines.flatMap (WrittenLine.writes world)
  copied : ∀ first line last, lines = first ++ line :: last →
    PrefixCopied world (start world work) schedule line
      (first.flatMap (WrittenLine.writes world))
  calls : ∀ thread,
    (lines.filter fun line => line.thread == thread).map WrittenLine.call =
      (((start world work).play schedule).begunBy thread).zipIdx.filter
        fun call => call.1.isLine world
  failures : ∀ thread,
    ((start world work).play schedule).failures world thread =
      ((((start world work).play schedule).begunBy thread).filter
        (Command.isFailure world)).map fun _ => world.failureDelivery
  begun : ∀ thread,
    ((start world work).play schedule).begunBy thread <+:
        work.getD thread [] ∧
      (world.Stamps →
        ((start world work).play schedule).begunBy thread =
          work.getD thread [])

/-- Whatever the schedule by which threads log messages and set the line
prefix, once they have ended, they have written whole lines. -/
theorem lines_stay_whole {world : World} (ready : world.ReadyToLog)
    {work : List (List Command)}
    (plain : ∀ commands ∈ work, ∀ command ∈ commands,
      command.isPlain = true)
    (schedule : List Nat)
    (finished : ((Pool.start world work).play schedule).finished = true) :
    ∃ lines, Pool.WroteLines world work schedule lines := by
  have follows : (Pool.start world work).Follows (Regime.logging world)
      (fun command => command.isPlain = true) fun _ => .resting :=
    Regime.follows_start plain (fun _ => rfl) _
  obtain ⟨stations, accord, _⟩ :=
    (WritingAccord.keeps ready (Pool.start world work)).play
      (WritingAccord.atStart ready work) follows schedule
  rw [List.nil_append] at accord
  have resting := accord.resting_of_finished finished
  have free : ((Pool.start world work).play
      schedule).world.outputLock.holder = none := by
    apply Option.eq_none_iff_forall_ne_some.mpr
    intro thread holds
    have busy := (accord.settled.output thread).mp holds
    rw [resting thread] at busy
    cases busy
  obtain ⟨lines, whole⟩ := accord.lines
  refine ⟨lines, whole.whole free, whole.copied, ?_, ?_, ?_⟩
  · intro thread
    have calls := (whole.threads thread).calls
    rw [resting thread] at calls
    simpa [Station.owedLine, Station.resting] using calls
  · intro thread
    have failures := accord.failures thread
    rw [resting thread] at failures
    simpa [Station.owedFailure, Station.resting] using failures
  · intro thread
    obtain ⟨fewer, all⟩ :=
      Pool.begunBy_of_finished world work schedule finished thread
    exact ⟨fewer, fun stamps => all (accord.calm stamps)⟩

/-- Two threads log while a third one sets the prefix, and each takes a step
in turn; one message cannot be rendered. -/
theorem lines_stay_whole_in_turns :
    let host : Host := { processId := 1, terminal := false }
    let world := ((World.shared (Surroundings.start host
      Environment.empty)).set .enabled true).set .destination (.sink "lines")
    let entry := Entry.untagged .error { file := none, line := 1 }
    let work : List (List Command) :=
      [[.log entry (.literal "first"), .log entry (.literal "second")],
       [.setPrefix "other"],
       [.log entry (.rendered [.text "lost", .fails]),
        .log entry (.rendered [.text "third"])]]
    let schedule := (List.replicate 100 [0, 1, 2]).flatten
    ∃ lines, Pool.WroteLines world work schedule lines ∧ lines ≠ [] := by
  intro host world entry work schedule
  have ready : world.ReadyToLog := by
    refine ⟨rfl, rfl, rfl, rfl, ?_⟩
    intro name _
    rfl
  have finished : ((Pool.start world work).play schedule).finished = true := by
    decide +kernel
  have some : (((Pool.start world work).play schedule).written
      world).isEmpty = false := by
    decide +kernel
  obtain ⟨lines, wrote⟩ :=
    lines_stay_whole ready (by decide) schedule finished
  refine ⟨lines, wrote, ?_⟩
  intro none
  rw [wrote.written, none] at some
  cases some

end LeveledLog
