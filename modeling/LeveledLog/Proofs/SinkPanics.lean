/-
Sinks that panic, and the calls that run into them.

A call whose message makes no calls of its own has changed all that it changes
when it begins to write, and a panic of its destination goes straight through
it.  So whichever writes sinks panic in, every call leaves the logger that it
would have left without a panic, the calls after it find nothing held, and no
line is lost but what is left of the line in which the panic struck.
-/

import LeveledLog.Proofs.Snapshot
import LeveledLog.Proofs.TwoRuns
import LeveledLog.Proofs.WrittenLines

namespace LeveledLog

variable {α β : Type} {held : Bool}

/-! ### Parts of secluded scripts -/

namespace Script

def Prepares (script : Script α) : Prop :=
  script.Follows Discipline.secluded (fun _ last => last = .preparing)
    (fun _ last => last = .preparing) .preparing

namespace Prepares

theorem value (value : α) : (pure value : Script α).Prepares := rfl

theorem panic (text : String) : (Script.panic text : Script α).Prepares :=
  rfl

theorem apart {action : Action} (apart : action.isApart = true) :
    (perform action).Prepares := by
  intro result _
  exact ⟨_, .prepare action result apart, rfl⟩

theorem bind {script : Script α} {continuation : α → Script β}
    (first : script.Prepares)
    (second : ∀ value, (continuation value).Prepares) :
    (script >>= continuation).Prepares :=
  Follows.followedBy first second

theorem map {script : Script α} (function : α → β)
    (prepares : script.Prepares) : (function <$> script).Prepares := by
  unfold Prepares
  rw [follows_map]
  exact prepares

theorem attempt {script : Script α} (prepares : script.Prepares) :
    script.attempt.Prepares := by
  unfold Prepares
  rw [follows_attempt]
  exact prepares

theorem readUnderLock (cell : Cell) {continuation : cell.Value → Script α}
    (after : ∀ value, (continuation value).Prepares) :
    (do
      perform (.acquire .config)
      let value ← load cell
      perform (.release .config false)
      continuation value : Script α).Prepares :=
  .bind (.apart rfl) fun _ => .bind (.apart rfl) fun value =>
    .bind (.apart rfl) fun _ => after value

private theorem secluded {script : Script α} (prepares : script.Prepares) :
    script.Secluded .preparing := by
  refine Follows.weaken prepares ?_ ?_
  · intro _ last same
    rw [same]
    trivial
  · intro _ last same
    rw [same]
    exact .inl trivial

theorem followedBy {script : Script α} {continuation : α → Script β}
    (first : script.Prepares)
    (second : ∀ value, (continuation value).Secluded .preparing) :
    (script >>= continuation).Secluded .preparing := by
  refine Follows.followedBy (first.weaken (fun _ _ same => same) ?_) second
  intro _ last same
  rw [same]
  exact .inl trivial

end Prepares

/-- A script that only asks for what is there and calls destinations, with
the output lock held or not. -/
def Writes (held : Bool) (script : Script α) : Prop :=
  script.Follows Discipline.secluded (fun _ last => last = .writing held)
    (fun text last => last = .writing held ∨ last = .failing text held)
    (.writing held)

namespace Writes

theorem value (value : α) : (pure value : Script α).Writes held := rfl

theorem panic (text : String) : (Script.panic text : Script α).Writes held :=
  .inl rfl

theorem ask {action : Action} (question : action.isQuestion = true) :
    (perform action).Writes held := by
  intro result _
  exact ⟨_, .ask (.next held) action result question, rfl⟩

theorem bind {script : Script α} {continuation : α → Script β}
    (first : script.Writes held)
    (second : ∀ value, (continuation value).Writes held) :
    (script >>= continuation).Writes held :=
  Follows.followedBy first second

theorem secluded {script : Script α} (writes : script.Writes false) :
    script.Secluded .preparing := by
  have ends : script.Secluded (.writing false) := by
    refine Follows.weaken writes ?_ ?_
    · intro _ last same
      rw [same]
      trivial
    · rintro _ last (same | same)
      · rw [same]
        exact .inl trivial
      · exact .inr same
  cases script with
  | done value =>
      trivial
  | panic text =>
      exact .inl trivial
  | step action next =>
      intro result expected
      obtain ⟨last, move, rest⟩ := ends result expected
      refine ⟨last, ?_, rest⟩
      cases move with
      | ask now _ _ question =>
          cases now
          exact .ask .first action result question
      | accept now =>
          cases now
          exact .accept .first _ _
      | panic now =>
          cases now
          exact .panic .first _ _ _

end Writes

/-- A script that writes under the output lock gives the lock up, whether a
destination panics or not. -/
theorem Writes.withOutputLock {body : Script Unit} (writes : body.Writes true) :
    (Logger.withOutputLock body).Secluded .preparing := by
  apply follows_perform_bind.mpr
  intro _ _
  refine ⟨_, .lock, ?_⟩
  rw [follows_bind, follows_attempt]
  -- The body returns, panics by itself, or panics with its destination.
  refine writes.weaken ?_ ?_
  · intro _ last same
    subst same
    intro _ _
    exact ⟨_, .unlock false, trivial⟩
  · rintro text last (same | same)
    · subst same
      intro _ _
      exact ⟨_, .unlock true, .inl trivial⟩
    · subst same
      intro _ _
      exact ⟨_, .giveUp text, .inr rfl⟩

theorem Secluded.map {script : Script α} {stage : SinkStage}
    (secluded : script.Secluded stage) (function : α → β) :
    (function <$> script).Secluded stage := by
  unfold Secluded
  rw [follows_map]
  exact secluded

end Script

/-! ### What has nothing to do with sinks -/

namespace Logger

open Script

private theorem changeModules_prepares (change : ModuleTable → ModuleTable) :
    (changeModules change).Prepares :=
  .bind (.apart rfl) fun _ => .bind (.apart rfl) fun _ =>
    .bind (.apart rfl) fun _ => .bind (.apart rfl) fun _ => .apart rfl

private theorem lookup_prepares (asked : Variable) :
    (lookup asked).Prepares := by
  refine .bind (.apart rfl) ?_
  intro reading
  cases reading with
  | unset | text =>
      exact .value _
  | panic text =>
      exact .panic text

private theorem applyLevelDefault_prepares : applyLevelDefault.Prepares := by
  refine .bind (.apart rfl) ?_
  intro claimed
  cases claimed with
  | true =>
      exact .value ()
  | false =>
      refine .bind (lookup_prepares .level) ?_
      intro setting
      cases setting with
      | none =>
          exact .value ()
      | some text =>
          exact .apart rfl

private theorem applyModulesDefault_prepares :
    applyModulesDefault.Prepares := by
  refine .bind (.apart rfl) ?_
  intro claimed
  cases claimed with
  | true =>
      exact .value ()
  | false =>
      refine .bind (lookup_prepares .modules) ?_
      intro setting
      cases setting with
      | none =>
          exact .value ()
      | some text =>
          exact changeModules_prepares _

theorem initOnce_prepares : initOnce.Prepares := by
  refine .bind (.apart rfl) ?_
  intro started
  cases started with
  | false =>
      exact .value ()
  | true =>
      have applies : applyDefaults.Prepares :=
        .bind applyLevelDefault_prepares fun _ => applyModulesDefault_prepares
      refine .bind applies.attempt ?_
      intro result
      cases result with
      | ok =>
          exact .apart rfl
      | error text =>
          exact .bind (.apart rfl) fun _ => .panic text

theorem prefixSnapshot_prepares : prefixSnapshot.Prepares :=
  .readUnderLock .linePrefix fun linePrefix => .value linePrefix

private theorem moduleIsEnabled_prepares (name : String) :
    (moduleIsEnabled name).Prepares := by
  refine .bind (.apart rfl) ?_
  intro active
  cases active with
  | false =>
      exact .value true
  | true =>
      exact .readUnderLock .modules fun table => .value (table.allows name)

theorem gates_prepares (level : Level) (moduleName : Option String) :
    (gates level moduleName).Prepares := by
  refine .bind (.apart rfl) ?_
  intro enabled
  cases enabled with
  | false =>
      exact .value false
  | true =>
      refine .bind (.apart rfl) ?_
      intro minimum
      split
      · cases moduleName with
        | none =>
            exact .value true
        | some name =>
            change Script.Prepares
              (if name = "" then pure true else moduleIsEnabled name)
            split
            · exact .value true
            · exact moduleIsEnabled_prepares name
      · exact .value false

end Logger

private theorem Role.script_prepares (role : Role) : role.script.Prepares := by
  cases role with
  | peripheral =>
      exact .value ()
  | initialises =>
      exact Logger.initOnce_prepares
  | setsLevel level =>
      exact .bind (.apart rfl) fun _ =>
        .bind Logger.initOnce_prepares fun _ => .apart rfl
  | changesModules change =>
      have claims : Logger.claimModules.Prepares :=
        .bind (.apart rfl) fun _ => Logger.initOnce_prepares
      exact .bind claims fun _ => Logger.changeModules_prepares _

/-! ### What writes -/

namespace Logger

open Script

private theorem write_writes (destination : Destination) (bytes : Bytes) :
    (write destination bytes).Writes held := by
  unfold write
  split
  · exact .value ()
  · intro reaction spared
    cases reaction with
    | accept changes =>
        cases spared
        exact ⟨_, .accept (.next held) destination bytes, rfl⟩
    | panic text =>
        exact ⟨_, .panic (.next held) destination bytes text, .inr rfl⟩

private theorem put_writes (writer : LineWriter) (fragments : List Fragment) :
    (writer.put fragments).Writes held := by
  induction fragments with
  | nil =>
      exact .value ()
  | cons fragment fragments inductionHypothesis =>
      exact .bind (write_writes _ _) fun _ => inductionHypothesis

private theorem lineWriter_writes : lineWriter.Writes held :=
  .bind (.ask rfl) fun _ =>
    .bind (.bind (.ask rfl) fun _ => .bind (.ask rfl) fun _ => .value _)
      fun _ => .value _

private theorem putTimestamp_writes (writer : LineWriter) :
    writer.putTimestamp.Writes held := by
  refine .bind (.ask rfl) ?_
  intro on
  cases on with
  | false =>
      exact .value ()
  | true =>
      refine .bind (.bind (.ask rfl) ?_) fun now => put_writes writer _
      intro time
      cases time.read with
      | ok now =>
          exact .value now
      | error fault =>
          exact .panic fault.message

private theorem putSite_writes (writer : LineWriter) (site : CallSite) :
    (writer.putSite site).Writes held := by
  refine .bind (.ask rfl) ?_
  intro on
  cases on with
  | false =>
      exact .value ()
  | true =>
      exact put_writes writer (Line.siteGroup site)

private theorem emit_writes (linePrefix : LinePrefix) (entry : Entry)
    (message : String) : (emit linePrefix entry message).Writes held := by
  refine .bind lineWriter_writes ?_
  intro writer
  refine .bind (putTimestamp_writes writer) fun _ => ?_
  refine .bind (.ask rfl) fun host => ?_
  refine .bind (put_writes writer _) fun _ => ?_
  refine .bind (putSite_writes writer entry.site) fun _ => ?_
  refine .bind ?_ fun _ => put_writes writer (Line.messageGroup message)
  cases entry.moduleName with
  | none =>
      exact .value ()
  | some name =>
      exact put_writes writer (Line.moduleGroup name)

private theorem writeRaw_secluded (bytes : Bytes) :
    (writeRaw bytes).Secluded .preparing :=
  Writes.secluded (.bind (.ask rfl) fun destination =>
    write_writes destination bytes)

private theorem writeHeading_secluded (level : Level) :
    (writeHeading level).Secluded .preparing :=
  prefixSnapshot_prepares.followedBy fun _ =>
    Writes.secluded (.bind lineWriter_writes fun writer =>
      .bind (.ask rfl) fun _ => put_writes writer _)

private theorem writeLine_secluded (entry : Entry) (message : String) :
    (writeLine entry message).Secluded .preparing := by
  refine prefixSnapshot_prepares.followedBy ?_
  intro linePrefix
  refine Prepares.followedBy (.apart rfl) ?_
  intro threadSafe
  cases threadSafe with
  | false =>
      exact (emit_writes linePrefix entry message).secluded
  | true =>
      exact (emit_writes linePrefix entry message).withOutputLock

private theorem writeRendered_secluded (entry : Entry)
    (rendered : Option String) :
    (writeRendered entry rendered).Secluded .preparing := by
  cases rendered with
  | none =>
      exact writeRaw_secluded _
  | some text =>
      change Script.Secluded .preparing
        (if text = "" then pure () else writeLine entry text)
      split
      · trivial
      · exact writeLine_secluded entry text

private theorem logPassing_secluded (entry : Entry) (rendered : Option String) :
    (logPassing entry (pure rendered)).Secluded .preparing := by
  refine (gates_prepares entry.level entry.moduleName).followedBy ?_
  intro passes
  cases passes with
  | false =>
      trivial
  | true =>
      exact writeRendered_secluded entry rendered

end Logger

/-! ### Commands -/

/-- Whether a command is a call that leaves sinks as they are, and whose
message, if it has one, makes no calls of its own. -/
def Command.isDirect : Command → Bool
  | .log _ message | .facadeLog _ message => message.isInert
  | .arm _ _ => false
  | _ => true

private theorem Facade.endLine_pure (rendered : Option String) :
    endLine (pure rendered) =
      pure (rendered.map fun text => text ++ "\n") := rfl

private theorem Command.rest_secluded {command : Command}
    (direct : command.isDirect = true) :
    command.rest.Secluded .preparing := by
  cases command with
  | arm =>
      cases direct
  | initOnce | setMinLevel | enableModule | disableModule
  | enableAllModules | facadeFlush =>
      trivial
  | wouldLog | facadeEnabled =>
      exact Script.Prepares.secluded (.map _ (Logger.gates_prepares _ _))
  | log entry message =>
      rw [rest, Message.render_inert direct]
      exact (Logger.logPassing_secluded entry _).map _
  | facadeLog record message =>
      rw [rest, Message.render_inert direct, Facade.endLine_pure]
      exact (Logger.logPassing_secluded record.entry _).map _
  | enable | disable | isEnabled | minLevel | setThreadSafe | isThreadSafe
  | setTimestamps | setSourceLocation | setColorMode | colorMode
  | setDestination | destination | setClock | collect =>
      exact Script.Prepares.secluded (.map _ (.apart rfl))
  | setPrefix text =>
      exact Script.Prepares.secluded (.map _ (.bind (.apart rfl) fun _ =>
        .bind (.apart rfl) fun _ => .apart rfl))
  | prefixText =>
      exact Script.Prepares.secluded (.map _
        (.bind Logger.prefixSnapshot_prepares fun _ => .value _))
  | moduleIsEnabled name =>
      exact Script.Prepares.secluded
        (.map _ (Logger.moduleIsEnabled_prepares name))
  | enabledModules =>
      exact Script.Prepares.secluded (.map _
        (.readUnderLock .modules fun table => .value table.names))
  | colorEscape color =>
      exact Script.Prepares.secluded (.map _
        (.bind (.bind (.apart rfl) fun _ =>
          .bind (.apart rfl) fun _ => .value _) fun _ => .value _))
  | facadeInstall =>
      exact Script.Prepares.secluded (.map _
        (.bind (.apart rfl) fun _ => .value _))
  | writeRaw | writeText | writeDecimal | writeHexadecimal =>
      exact (Logger.writeRaw_secluded _).map _
  | writeHeading level =>
      exact (Logger.writeHeading_secluded level).map _

/-- A call has changed what it changes before it calls a destination, and a
panic goes straight through it. -/
theorem Command.script_secluded {command : Command}
    (direct : command.isDirect = true) :
    command.script.Secluded .preparing := by
  rw [script_eq]
  exact command.role.script_prepares.followedBy fun _ =>
    rest_secluded direct

/-! ### Runs -/

namespace World

variable {first second : World}

private theorem Beside.afterAll (beside : first.Beside second)
    {commands : List Command}
    (direct : ∀ command ∈ commands, command.isDirect = true) :
    (first.afterAll commands).Beside (second.afterAll commands) := by
  induction commands generalizing first second with
  | nil =>
      exact beside
  | cons command commands inductionHypothesis =>
      have secluded :=
        Command.script_secluded (direct command List.mem_cons_self)
      exact inductionHypothesis (secluded.beside rfl beside).world
        fun other member => direct other (List.mem_cons_of_mem _ member)

end World

/-! ### Environments that do not panic -/

private theorem Action.perform_neverPanics {action : Action} {thread : Nat}
    {world : World} {performed : Performed action.Result}
    (performs : action.perform thread world = some performed)
    (calm : world.surroundings.environment.NeverPanics) :
    performed.world.surroundings.environment.NeverPanics := by
  cases action with
  | acquire name =>
      rw [(perform_acquire_eq performs).2]
      cases name with
      | config | output =>
          exact calm
  | release name panicked =>
      cases performs
      cases name with
      | config | output =>
          exact calm
  | beginInitialisation =>
      rcases perform_begin_eq performs with ⟨_, same⟩ | ⟨_, same⟩
      · rw [same]
        exact calm
      · rw [same]
        exact calm
  | lookup asked =>
      cases performs
      exact calm.lookup asked
  | deliver destination bytes =>
      rw [perform_deliver_eq] at performs
      cases performs
      cases destination with
      | standard =>
          exact calm
      | sink name =>
          obtain ⟨sinks, same⟩ := world.surroundings.call_eq name
          simp only [World.called, same]
          exact calm
  | _ =>
      cases performs
      exact calm

theorem Script.run_neverPanics (script : Script α) {world : World}
    (calm : world.surroundings.environment.NeverPanics) :
    (script.run world).world.surroundings.environment.NeverPanics := by
  induction script generalizing world with
  | done | panic =>
      exact calm
  | step action next inductionHypothesis =>
      cases performs : action.perform 0 world with
      | none =>
          simp only [run, performs]
          exact calm
      | some performed =>
          simp only [run, performs]
          exact inductionHypothesis performed.result
            (Action.perform_neverPanics performs calm)

private theorem World.afterAll_neverPanics {world : World}
    (calm : world.surroundings.environment.NeverPanics)
    (commands : List Command) :
    (world.afterAll commands).surroundings.environment.NeverPanics := by
  induction commands generalizing world with
  | nil =>
      exact calm
  | cons command commands inductionHypothesis =>
      exact inductionHypothesis (command.script.run_neverPanics calm)

/-! ### Calls that return -/

private theorem Role.script_returns (role : Role) {world : World}
    (rest : world.AtRest)
    (calm : world.surroundings.environment.NeverPanics) :
    (role.script.run world).ending = .returned () := by
  have played := role.played rest
  generalize role.script.run world = outcome at played
  cases played with
  | outside | settled | applied =>
      rfl
  | failed _ _ _ fault =>
      rw [World.fault?, claim_surroundings,
        Claims.fault?_eq_none _ _ calm.now] at fault
      cases fault

section Returns

variable {world : World} (rest : world.AtRest)
variable (captures : world.SinksCapture) (stamps : world.Stamps)
include rest captures stamps

private theorem Logger.logPassing_returns (entry : Entry)
    (rendered : Option String) :
    ((logPassing entry (pure rendered)).run world).ending =
      .returned () := by
  have heeds : world.Heeds (world.get .destination) fun _ => [] :=
    .of_capturing fun name _ => captures name
  have gated := run_gates rest.configFree entry.level entry.moduleName
  have written := run_writeRendered rest stamps heeds entry rendered
  rw [logPassing, Script.run_bind, gated]
  cases world.opens entry.level entry.moduleName with
  | false =>
      rfl
  | true =>
      exact congrArg Outcome.ending written

private theorem Command.rest_returns {command : Command}
    (direct : command.isDirect = true) :
    ∃ value, (command.rest.run world).ending = .returned value := by
  cases logs : command.logs with
  | true =>
      cases command with
      | log entry message =>
          have passing := Logger.logPassing_returns rest captures stamps
            entry message.rendering
          refine ⟨.nothing, ?_⟩
          rw [Command.rest, Message.render_inert direct, Script.run_map,
            Outcome.map, passing]
          rfl
      | facadeLog record message =>
          have passing := Logger.logPassing_returns rest captures stamps
            record.entry (message.rendering.map fun text => text ++ "\n")
          refine ⟨.nothing, ?_⟩
          rw [Command.rest, Message.render_inert direct,
            Facade.endLine_pure, Script.run_map, Outcome.map, passing]
          rfl
      | _ =>
          cases logs
  | false =>
      obtain ⟨value, runs⟩ := run_rest logs rest.configFree
      have free : (command.stored world).configLock.holder = none := by
        rw [(command.stored_frame world).1]
        exact rest.configFree
      have sinks : (command.stored world).surroundings.sinks =
          world.surroundings.sinks := by
        cases command with
        | arm =>
            cases direct
        | setPrefix text =>
            exact congrArg Surroundings.sinks (world.set_surroundings _ _)
        | _ =>
            rfl
      have heeds : (command.stored world).Heeds (world.get .destination)
          fun _ => [] :=
        .of_capturing fun name _ => captures.of_sinks sinks name
      refine ⟨value, ?_⟩
      rw [runs, Logger.run_writeAll heeds free (command.sent_nonempty world)]
      rfl

theorem Command.script_returns {command : Command}
    (direct : command.isDirect = true)
    (calm : world.surroundings.environment.NeverPanics) :
    ∃ value, (command.script.run world).ending = .returned value := by
  have played := command.role.script_returns rest calm
  have same := command.role.script_periphery rest
  have restAfter := (command.role.played rest).atRest rest
  have capturesAfter : (command.role.script.run world).world.SinksCapture := by
    obtain ⟨_, _, surroundings⟩ := same.surroundings
    refine captures.of_sinks ?_
    rw [surroundings]
  obtain ⟨value, returns⟩ := rest_returns restAfter capturesAfter
    (same.stamps.mpr stamps) direct
  refine ⟨value, ?_⟩
  rw [script_eq, Script.run_bind, Outcome.andThen, played]
  exact returns

end Returns

/-! ### Isolation -/

/-- The same calls on two loggers that differ in their sinks: on the first one
sinks capture everything; on the second one they may panic in any of their
calls, and the output lock may have been poisoned before.  Each call ends, and
leaves the two loggers alike and nothing held.  What it delivers on the second
one is what its calls of sinks bring without a panic, and is where its
deliveries on the first one begin; if no sink panics meanwhile, it delivers
and returns the same; and a panic comes out of it only from one of its calls
of sinks, provided that a clock which lines show can be read. -/
theorem panicking_sinks_are_isolated {start : World}
    (reachable : start.Reachable) (captures : start.SinksCapture)
    (calm : start.surroundings.environment.NeverPanics)
    {sinks : List (SinkName × Tape Reaction)} {poisoned : Bool}
    (spares : (start.reacting sinks poisoned).SinksSpare)
    {earlier : List Command} {command : Command}
    (direct : ∀ call ∈ earlier ++ [command], call.isDirect = true) :
    let first := start.afterAll earlier
    let second := (start.reacting sinks poisoned).afterAll earlier
    let expected := command.script.run first
    let actual := command.script.run second
    let calls := command.script.sinkCalls second
    expected.world.Alike actual.world ∧
      actual.world.AtRest ∧
      actual.ending ≠ .waiting ∧
      actual.accepted = SinkCall.accepted calls ∧
      actual.accepted <+: expected.accepted ∧
      ((∀ call ∈ calls, call.panic? = none) →
        actual.accepted = expected.accepted ∧
          actual.ending = expected.ending) ∧
      (first.Stamps → ∀ text, actual.ending = .panicked text →
        ∃ call ∈ calls, call.panic? = some text) := by
  intro first second expected actual calls
  have besideStart : start.Beside (start.reacting sinks poisoned) :=
    ⟨start.alike_reacting sinks poisoned, captures, spares⟩
  have beside : first.Beside second :=
    besideStart.afterAll fun call member =>
      direct call (List.mem_append_left _ member)
  have directNow : command.isDirect = true :=
    direct command (List.mem_append_right _ List.mem_cons_self)
  have outcomes : Outcome.Beside expected actual calls :=
    (Command.script_secluded directNow).beside rfl beside
  have reachableNow := reachable.afterAll earlier
  have restAfter := (reachableNow.call command).atRest
  refine ⟨outcomes.world.alike, outcomes.world.alike.atRest restAfter, ?_,
    command.script.accepted_eq second, outcomes.accepted,
    outcomes.undisturbed, ?_⟩
  · rcases outcomes.ends with same | ⟨_, _, _, _, thrown⟩
    · rw [same]
      exact reachableNow.waits_not command
    · rw [thrown]
      intro impossible
      cases impossible
  · intro stamps text panicked
    rcases outcomes.ends with same | ⟨call, member, other, thrown, ending⟩
    · obtain ⟨value, returns⟩ := Command.script_returns reachableNow.atRest
        beside.captures stamps directNow
        (World.afterAll_neverPanics calm earlier)
      rw [same] at panicked
      cases returns.symm.trans panicked
    · cases ending.symm.trans panicked
      exact ⟨call, member, thrown⟩

def Reaction.ofPanic? : Option String → Reaction
  | some text => .panic text
  | none => .plain

/-- A sink may panic in whichever of its first calls it is to panic in. -/
theorem World.spares_of_panics (world : World) (name : SinkName)
    (panics : List (Option String)) (poisoned : Bool) :
    (world.reacting
      [(name, Tape.ofList .plain (panics.map .ofPanic? ++ [.plain]))]
      poisoned).SinksSpare := by
  intro destination call
  cases destination with
  | standard =>
      rfl
  | sink other =>
      by_cases same : other = name
      · subst same
        simp only [reactionAt, Surroundings.reactions, reacting,
          List.lookup_cons_self, Option.getD_some, Tape.drop_ofList,
          List.getElem?_map]
        rcases panics[call]? with _ | _ | text
        · rfl
        · rfl
        · rfl
      · have unnoted : (other == name) = false := by
          simpa using same
        simp only [reactionAt, Surroundings.reactions, reacting,
          List.lookup_cons, unnoted, List.lookup_nil, Option.getD_none,
          Reaction.capturing, Tape.drop_constant]
        rfl

/-- A line breaks off in its third write and leaves the output lock poisoned;
the next line is whole. -/
theorem line_after_broken_line :
    let host : Host := { processId := 7, terminal := false }
    let start :=
      (World.fresh (Surroundings.start host Environment.empty)).afterAll
        [.enable, .setDestination (.sink "file")]
    let panics : List (Option String) := [none, none, some "full"]
    let tape := Tape.ofList .plain (panics.map .ofPanic? ++ [.plain])
    let other := start.reacting [("file", tape)] false
    let entry := Entry.untagged .error { file := none, line := 1 }
    let broken := Command.log entry (.literal "broken")
    let whole := Command.log entry (.literal "whole")
    let interrupted := broken.script.run other
    let expected := whole.script.run (start.afterAll [broken])
    let actual := whole.script.run (other.afterAll [broken])
    (interrupted.accepted.map Delivery.bytes).flatten = Text.utf8 "|7" ∧
      interrupted.world.outputLock = { holder := none, poisoned := true } ∧
      actual.accepted = expected.accepted ∧
      actual.ending = expected.ending := by
  intro host start panics tape other entry broken whole interrupted expected
    actual
  have reachable : start.Reachable := World.Reachable.afterAll (.fresh _) _
  have captures : start.SinksCapture := fun _ => rfl
  have calm : start.surroundings.environment.NeverPanics :=
    Environment.neverPanics_constant fun _ => rfl
  have spares : other.SinksSpare := start.spares_of_panics "file" panics false
  have direct : ∀ call ∈ [broken] ++ [whole], call.isDirect = true := by
    decide
  obtain ⟨_, _, _, _, _, undisturbed, _⟩ :=
    panicking_sinks_are_isolated reachable captures calm spares direct
  have quiet : ∀ call ∈ whole.script.sinkCalls (other.afterAll [broken]),
      call.panic? = none := by
    decide +kernel
  obtain ⟨accepted, ending⟩ := undisturbed quiet
  exact ⟨by decide +kernel, by decide +kernel, accepted, ending⟩

end LeveledLog
