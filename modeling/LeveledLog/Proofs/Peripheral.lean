/-
What calls do besides initialising.

The minimum level, the module table and what belongs to them are the core of a
logger; everything else that calls read and write is peripheral.  A peripheral
script leaves the core alone, looks up no variable, takes each lock only when
it does not hold it, and gives it up again.  Writing lines is peripheral, also
to sinks that change the logger or panic, and so are most commands.
-/

import LeveledLog.Command
import LeveledLog.Proofs.Discipline

namespace LeveledLog

def Cell.isCore : Cell → Bool
  | .minLevel | .levelClaimed | .modulesClaimed | .filterActive => true
  | .modules => true
  | .enabled | .timestamps | .sourceLocation | .threadSafe => false
  | .colorMode | .destination | .linePrefix => false

/-- Whether an action concerns what is outside the logger, apart from the
environment. -/
def Action.isExternal : Action → Bool
  | .deliver _ _ | .readClock | .readHost | .setClock _ => true
  | .arm _ _ | .collect _ | .takeFacade => true
  | .load _ | .store _ _ | .acquire _ | .release _ _ => false
  | .beginInitialisation | .endInitialisation _ | .lookup _ => false

structure HeldLocks where
  config : Bool
  output : Bool
deriving DecidableEq

inductive PeripheralMove :
    HeldLocks → (action : Action) → action.Result → HeldLocks → Prop
  | load (held : HeldLocks) (cell : Cell) (value : cell.Value) :
      PeripheralMove held (.load cell) value held
  | store (held : HeldLocks) (cell : Cell) (value : cell.Value)
      (peripheral : cell.isCore = false) :
      PeripheralMove held (.store cell value) () held
  | external (held : HeldLocks) (action : Action) (result : action.Result)
      (outside : action.isExternal = true) :
      PeripheralMove held action result held
  | acquireConfig (output : Bool) :
      PeripheralMove { config := false, output := output }
        (.acquire .config) () { config := true, output := output }
  | releaseConfig (output panicked : Bool) :
      PeripheralMove { config := true, output := output }
        (.release .config panicked) () { config := false, output := output }
  | acquireOutput :
      PeripheralMove { config := false, output := false }
        (.acquire .output) () { config := false, output := true }
  | releaseOutput (panicked : Bool) :
      PeripheralMove { config := false, output := true }
        (.release .output panicked) () { config := false, output := false }

def Discipline.peripheral : Discipline HeldLocks where
  expects _ _ _ := True
  allows := PeripheralMove

variable {α β : Type} {output : Bool}

namespace Script

/-- A peripheral script takes and gives up locks in good order; `output` tells
whether the output lock is held around it. -/
def Peripheral (output : Bool) (script : Script α) : Prop :=
  script.Follows Discipline.peripheral
    (fun _ later => later = { config := false, output := output })
    (fun _ later => later = { config := false, output := output })
    { config := false, output := output }

namespace Peripheral

theorem value (value : α) : (pure value : Script α).Peripheral output := rfl

theorem panic (text : String) :
    (Script.panic text : Script α).Peripheral output := rfl

theorem bind {script : Script α} {continuation : α → Script β}
    (first : script.Peripheral output)
    (second : ∀ value, (continuation value).Peripheral output) :
    (script >>= continuation).Peripheral output :=
  Follows.followedBy first second

theorem map {script : Script α} (function : α → β)
    (peripheral : script.Peripheral output) :
    (function <$> script).Peripheral output := by
  unfold Peripheral
  rw [follows_map]
  exact peripheral

theorem load (cell : Cell) : (Script.load cell).Peripheral output := by
  intro value _
  exact ⟨_, .load _ cell value, rfl⟩

theorem store (cell : Cell) (value : cell.Value)
    (peripheral : cell.isCore = false) :
    (Script.store cell value).Peripheral output := by
  intro _ _
  exact ⟨_, .store _ cell value peripheral, rfl⟩

theorem external {action : Action} (outside : action.isExternal = true) :
    (perform action).Peripheral output := by
  intro result _
  exact ⟨_, .external _ action result outside, rfl⟩

theorem readUnderLock (cell : Cell) {continuation : cell.Value → Script α}
    (after : ∀ value, (continuation value).Peripheral output) :
    (do
      perform (.acquire .config)
      let value ← Script.load cell
      perform (.release .config false)
      continuation value : Script α).Peripheral output := by
  intro _ _
  refine ⟨_, .acquireConfig output, ?_⟩
  intro value _
  refine ⟨_, .load _ cell value, ?_⟩
  intro _ _
  exact ⟨_, .releaseConfig output false, after value⟩

/-- A script under the output lock that leaves the lock held leaves it free
once the lock has been given up. -/
theorem withOutputLock {body : Script Unit} (peripheral : body.Peripheral true) :
    (Logger.withOutputLock body).Peripheral false := by
  apply follows_perform_bind.mpr
  intro _ _
  refine ⟨_, .acquireOutput, ?_⟩
  rw [follows_bind, follows_attempt]
  apply peripheral.weaken
  · intro _ later same
    subst same
    intro _ _
    exact ⟨_, .releaseOutput false, rfl⟩
  · intro text later same
    subst same
    intro _ _
    exact ⟨_, .releaseOutput true, rfl⟩

end Peripheral

end Script

/-! ### Operations that are peripheral -/

namespace Logger

open Script

private theorem setPrefix_peripheral (text : String) :
    (setPrefix text).Peripheral output := by
  intro _ _
  refine ⟨_, .acquireConfig output, ?_⟩
  intro _ _
  refine ⟨_, .store _ .linePrefix _ rfl, ?_⟩
  intro _ _
  exact ⟨_, .releaseConfig output false, rfl⟩

private theorem prefixSnapshot_peripheral : prefixSnapshot.Peripheral output :=
  .readUnderLock .linePrefix fun linePrefix => .value linePrefix

private theorem enabledModules_peripheral : enabledModules.Peripheral output :=
  .readUnderLock .modules fun table => .value table.names

private theorem moduleIsEnabled_peripheral (name : String) :
    (moduleIsEnabled name).Peripheral output := by
  refine .bind (.load .filterActive) ?_
  intro active
  cases active with
  | false =>
      exact .value true
  | true =>
      exact .readUnderLock .modules fun table => .value (table.allows name)

private theorem colorEnabled_peripheral : colorEnabled.Peripheral output :=
  .bind (.load .colorMode) fun mode =>
    .bind (.external rfl) fun host => .value (mode.enabled host.terminal)

private theorem colorEscape_peripheral (color : Color) :
    (colorEscape color).Peripheral output :=
  .bind colorEnabled_peripheral fun _ => .value _

private theorem makeChanges_peripheral (changes : List Change) :
    (makeChanges changes).Peripheral output := by
  induction changes with
  | nil =>
      exact .value ()
  | cons change changes inductionHypothesis =>
      refine .bind ?_ fun _ => inductionHypothesis
      cases change with
      | destination destination =>
          exact .store .destination destination rfl
      | linePrefix text =>
          exact setPrefix_peripheral text
      | colorMode mode =>
          exact .store .colorMode mode rfl
      | rearm name reactions =>
          exact .external rfl

theorem write_peripheral (destination : Destination) (bytes : Bytes) :
    (write destination bytes).Peripheral output := by
  unfold write
  split
  · exact .value ()
  · refine .bind (.external rfl) ?_
    intro reaction
    cases reaction with
    | accept changes =>
        exact makeChanges_peripheral changes
    | panic text =>
        exact .panic text

private theorem writeRaw_peripheral (bytes : Bytes) :
    (writeRaw bytes).Peripheral output :=
  .bind (.load .destination) fun destination =>
    write_peripheral destination bytes

private theorem lineWriter_peripheral : lineWriter.Peripheral output :=
  .bind (.load .destination) fun _ =>
    .bind colorEnabled_peripheral fun _ => .value _

private theorem put_peripheral (writer : LineWriter)
    (fragments : List Fragment) :
    (writer.put fragments).Peripheral output := by
  induction fragments with
  | nil =>
      exact .value ()
  | cons fragment fragments inductionHypothesis =>
      exact .bind (write_peripheral _ _) fun _ => inductionHypothesis

private theorem currentInstant_peripheral :
    currentInstant.Peripheral output := by
  refine .bind (.external rfl) ?_
  intro time
  cases time.read with
  | ok instant =>
      exact .value instant
  | error fault =>
      exact .panic fault.message

private theorem putTimestamp_peripheral (writer : LineWriter) :
    writer.putTimestamp.Peripheral output := by
  refine .bind (.load .timestamps) ?_
  intro on
  cases on with
  | false =>
      exact .value ()
  | true =>
      refine .bind currentInstant_peripheral ?_
      intro now
      exact put_peripheral writer _

private theorem putSite_peripheral (writer : LineWriter) (site : CallSite) :
    (writer.putSite site).Peripheral output := by
  refine .bind (.load .sourceLocation) ?_
  intro on
  cases on with
  | false =>
      exact .value ()
  | true =>
      exact put_peripheral writer (Line.siteGroup site)

private theorem putModule_peripheral (writer : LineWriter)
    (moduleName : Option String) :
    (writer.putModule moduleName).Peripheral output := by
  cases moduleName with
  | none =>
      exact .value ()
  | some name =>
      exact put_peripheral writer (Line.moduleGroup name)

private theorem emit_peripheral (linePrefix : LinePrefix) (entry : Entry)
    (message : String) :
    (emit linePrefix entry message).Peripheral output := by
  refine .bind lineWriter_peripheral ?_
  intro writer
  refine .bind (putTimestamp_peripheral writer) fun _ => ?_
  refine .bind (.external rfl) fun host => ?_
  refine .bind (put_peripheral writer _) fun _ => ?_
  refine .bind (putSite_peripheral writer entry.site) fun _ => ?_
  refine .bind (putModule_peripheral writer entry.moduleName) fun _ => ?_
  exact put_peripheral writer (Line.messageGroup message)

private theorem writeHeading_peripheral (level : Level) :
    (writeHeading level).Peripheral output :=
  .bind prefixSnapshot_peripheral fun _ =>
    .bind lineWriter_peripheral fun writer =>
      .bind (.external rfl) fun _ => put_peripheral writer _

private theorem writeLine_peripheral (entry : Entry) (message : String) :
    (writeLine entry message).Peripheral false := by
  refine .bind prefixSnapshot_peripheral ?_
  intro linePrefix
  refine .bind (.load .threadSafe) ?_
  intro threadSafe
  cases threadSafe with
  | false =>
      exact emit_peripheral linePrefix entry message
  | true =>
      exact .withOutputLock (emit_peripheral linePrefix entry message)

theorem writeRendered_peripheral (entry : Entry) (rendered : Option String) :
    (writeRendered entry rendered).Peripheral false := by
  cases rendered with
  | none =>
      exact writeRaw_peripheral _
  | some text =>
      change Script.Peripheral false
        (if text = "" then pure () else writeLine entry text)
      split
      · exact .value ()
      · exact writeLine_peripheral entry text

def gates (level : Level) (moduleName : Option String) : Script Bool := do
  let enabled ← load .enabled
  if enabled then do
    let minimum ← load .minLevel
    if minimum ≤ level then
      match moduleName with
      | some name => if name = "" then pure true else moduleIsEnabled name
      | none => pure true
    else
      pure false
  else
    pure false

theorem wouldLog_eq (level : Level) (moduleName : Option String) :
    wouldLog level moduleName =
      (initOnce >>= fun _ => gates level moduleName) := rfl

theorem gates_peripheral (level : Level) (moduleName : Option String) :
    (gates level moduleName).Peripheral output := by
  refine .bind (.load .enabled) ?_
  intro enabled
  cases enabled with
  | false =>
      exact .value false
  | true =>
      refine .bind (.load .minLevel) ?_
      intro minimum
      split
      · cases moduleName with
        | none =>
            exact .value true
        | some name =>
            change Script.Peripheral output
              (if name = "" then pure true else moduleIsEnabled name)
            split
            · exact .value true
            · exact moduleIsEnabled_peripheral name
      · exact .value false

end Logger

/-! ### Commands that are peripheral -/

/-- Whether a command has nothing to do with the defaults of the environment,
the minimum level or the module table. -/
def Command.isPeripheral : Command → Bool
  | .initOnce | .setMinLevel _ | .wouldLog _ _ | .log _ _ => false
  | .enableModule _ | .disableModule _ | .enableAllModules => false
  | .facadeEnabled _ _ | .facadeLog _ _ => false
  | .enable | .disable | .isEnabled | .setPrefix _ | .prefixText => true
  | .minLevel | .moduleIsEnabled _ | .enabledModules => true
  | .setThreadSafe _ | .isThreadSafe | .setTimestamps _ => true
  | .setSourceLocation _ | .setColorMode _ | .colorMode => true
  | .setDestination _ | .destination | .colorEscape _ => true
  | .writeRaw _ | .writeText _ | .writeDecimal _ => true
  | .writeHexadecimal _ | .writeHeading _ => true
  | .facadeFlush | .facadeInstall => true
  | .setClock _ | .arm _ _ | .collect _ => true

open Logger in
theorem Command.script_peripheral {command : Command}
    (peripheral : command.isPeripheral = true) :
    command.script.Peripheral false := by
  cases command with
  | initOnce | setMinLevel | wouldLog | log | enableModule | disableModule
  | enableAllModules | facadeEnabled | facadeLog =>
      cases peripheral
  | enable | disable | setThreadSafe | setTimestamps | setSourceLocation
  | setColorMode | setDestination =>
      exact .map _ (.store _ _ rfl)
  | isEnabled | minLevel | isThreadSafe | colorMode | destination =>
      exact .map _ (.load _)
  | setPrefix text =>
      exact .map _ (setPrefix_peripheral text)
  | prefixText =>
      exact .map _ (.bind prefixSnapshot_peripheral fun _ => .value _)
  | moduleIsEnabled name =>
      exact .map _ (moduleIsEnabled_peripheral name)
  | enabledModules =>
      exact .map _ enabledModules_peripheral
  | colorEscape color =>
      exact .map _ (colorEscape_peripheral color)
  | writeRaw bytes =>
      exact .map _ (writeRaw_peripheral bytes)
  | writeText | writeDecimal | writeHexadecimal =>
      exact .map _ (writeRaw_peripheral _)
  | writeHeading level =>
      exact .map _ (writeHeading_peripheral level)
  | facadeFlush =>
      exact .value _
  | facadeInstall =>
      exact .map _ (.bind (.external rfl) fun _ => .value _)
  | setClock | arm | collect =>
      exact .map _ (.external rfl)

end LeveledLog
