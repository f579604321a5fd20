/-
What a call writes when it runs alone.

On a logger whose settings do not change, a call to log a message that makes no
calls of its own writes a whole line, a fixed line in place of a message that
cannot be rendered, or nothing.  What the fragments of a line are depends on
the settings, on the line prefix that was copied before, and on the host and
the clock; writing them reads nothing else, changes nothing, and panics only
if the line begins with a timestamp and the clock cannot be read.
-/

import LeveledLog.Proofs.Gates
import LeveledLog.Proofs.Roles

namespace LeveledLog

/-! ### Messages that make no calls -/

def Part.isInert : Part → Bool
  | .text _ | .fails | .panics _ => true
  | .calls _ => false

/-- Whether rendering a message makes no call on the logger. -/
def Message.isInert : Message → Bool
  | .literal _ => true
  | .rendered parts => parts.all Part.isInert

def Message.rendering (message : Message) : Option String :=
  match message.render with
  | .done result => result
  | .panic _ | .step _ _ => none

private theorem Part.renderAll_inert {parts : List Part}
    (inert : parts.all Part.isInert = true) :
    (∃ rendered, Part.renderAll parts = pure rendered) ∨
      ∃ text, Part.renderAll parts = .panic text := by
  induction parts with
  | nil =>
      exact .inl ⟨_, by rw [Part.renderAll]⟩
  | cons part parts inductionHypothesis =>
      obtain ⟨first, others⟩ := Bool.and_eq_true_iff.mp inert
      rw [Part.renderAll]
      cases part with
      | fails =>
          exact .inl ⟨none, by rw [Part.render]; rfl⟩
      | panics text =>
          exact .inr ⟨text, by rw [Part.render]; rfl⟩
      | text shown =>
          rw [Part.render]
          rcases inductionHypothesis others with ⟨rest, same⟩ | ⟨text, same⟩
          · rw [same]
            exact .inl ⟨_, rfl⟩
          · rw [same]
            exact .inr ⟨text, rfl⟩
      | calls command =>
          cases first

theorem Message.render_inert {message : Message}
    (inert : message.isInert = true) :
    message.render = pure message.rendering := by
  have ends : ∃ rendered, message.render = pure rendered := by
    cases message with
    | literal text =>
        exact ⟨some text, by rw [Message.render]⟩
    | rendered parts =>
        rw [Message.render]
        rcases Part.renderAll_inert inert with ⟨rendered, same⟩ | ⟨text, same⟩
        · rw [same]
          exact ⟨rendered, rfl⟩
        · rw [same]
          exact ⟨none, rfl⟩
  obtain ⟨rendered, same⟩ := ends
  unfold Message.rendering
  rw [same]
  rfl

/-! ### What becomes of a call -/

inductive Effect where
  | nothing
  | failure
  | line (entry : Entry) (text : String)
deriving DecidableEq

def Command.effect (world : World) : Command → Effect
  | .log entry message =>
      if world.opens entry.level entry.moduleName then
        match message.rendering with
        | none => .failure
        | some text => if text = "" then .nothing else .line entry text
      else
        .nothing
  | _ => .nothing

section Effect

variable {world : World} {entry : Entry} {message : Message}

theorem Command.effect_of_closed
    (closed : world.opens entry.level entry.moduleName = false) :
    (Command.log entry message).effect world = .nothing := by
  simp [Command.effect, closed]

variable (opens : world.opens entry.level entry.moduleName = true)
include opens

theorem Command.effect_of_unrendered (unrendered : message.rendering = none) :
    (Command.log entry message).effect world = .failure := by
  simp [Command.effect, opens, unrendered]

theorem Command.effect_of_empty (rendered : message.rendering = some "") :
    (Command.log entry message).effect world = .nothing := by
  simp [Command.effect, opens, rendered]

theorem Command.effect_of_rendered {text : String}
    (rendered : message.rendering = some text) (nonempty : text ≠ "") :
    (Command.log entry message).effect world = .line entry text := by
  simp [Command.effect, opens, rendered, nonempty]

end Effect

private theorem Command.effect_eq_line {world : World} {command : Command}
    {entry : Entry} {text : String}
    (effect : command.effect world = .line entry text) :
    ∃ message, command = .log entry message ∧
      world.opens entry.level entry.moduleName = true ∧
      message.rendering = some text ∧ text ≠ "" := by
  cases command with
  | log asked message =>
      simp only [Command.effect] at effect
      split at effect
      · rename_i passes
        split at effect
        · cases effect
        · rename_i shown rendered
          split at effect
          · cases effect
          · rename_i nonempty
            cases effect
            exact ⟨message, rfl, passes, rendered, nonempty⟩
      · cases effect
  | _ =>
      cases effect

namespace World

/-- What the current destination accepts when it is called with bytes. -/
def delivers (world : World) (bytes : Bytes) : Delivery :=
  world.surroundings.delivery (world.get .destination) bytes

def Captures (world : World) : Prop :=
  ∀ name, world.get .destination = .sink name →
    world.surroundings.reactions name = Reaction.capturing

/-- Lines begin with no timestamp, or the clock can be read. -/
def Stamps (world : World) : Prop :=
  world.get .timestamps = true →
    ∃ now, world.surroundings.clock.read = .ok now

structure SameButPrefix (before after : World) : Prop where
  cells : ∀ cell, cell ≠ .linePrefix → after.get cell = before.get cell
  initialisation : after.initialisation = before.initialisation
  surroundings : after.surroundings = before.surroundings

/-- The result of an action that only asks for what does not change, or that
calls the destination. -/
def Answers (world : World) : (action : Action) → action.Result → Prop
  | .load cell, value => cell ≠ .linePrefix → value = world.get cell
  | .beginInitialisation, started => started = false
  | .readClock, time => time = world.surroundings.clock
  | .readHost, host => host = world.surroundings.host
  | .deliver _ _, reaction => reaction = Reaction.plain
  | _, _ => True

namespace SameButPrefix

variable {world now : World}

theorem refl (world : World) : world.SameButPrefix world :=
  ⟨fun _ _ => rfl, rfl, rfl⟩

theorem setPrefix (same : world.SameButPrefix now)
    (linePrefix : LinePrefix) :
    world.SameButPrefix (now.set .linePrefix linePrefix) := by
  refine ⟨?_, same.initialisation, same.surroundings⟩
  intro cell other
  rw [get_set_of_ne _ _ other]
  exact same.cells cell other

theorem frame (same : world.SameButPrefix now) {after : World}
    (settings : after.settings = now.settings)
    (initialisation : after.initialisation = now.initialisation)
    (surroundings : after.surroundings = now.surroundings) :
    world.SameButPrefix after where
  cells cell other := by
    rw [← same.cells cell other]
    unfold get
    rw [settings]
  initialisation := initialisation.trans same.initialisation
  surroundings := surroundings.trans same.surroundings

end SameButPrefix

end World

private theorem Action.callDestination_captures {world now : World}
    (captures : world.Captures) (same : world.SameButPrefix now)
    (bytes : Bytes) :
    callDestination now (world.get .destination) bytes =
      { result := Reaction.plain, world := now
        accepted := [world.delivers bytes] } := by
  unfold World.delivers
  rw [← same.surroundings]
  cases goes : world.get .destination with
  | standard =>
      cases bytes with
      | nil | cons =>
          simp [callDestination, Retry.deliver, Retry.Report.idle,
            Retry.Report.after]
  | sink name =>
      have capturing : now.surroundings.reactions name =
          Reaction.capturing := by
        rw [same.surroundings]
        exact captures name goes
      simp only [callDestination, Surroundings.call, capturing]
      rfl

theorem Action.perform_deliver {world now : World} (captures : world.Captures)
    (same : world.SameButPrefix now) (bytes : Bytes) (thread : Nat) :
    (deliver (world.get .destination) bytes).perform thread now =
      some
        { result := Reaction.plain, world := now
          accepted := [world.delivers bytes] } :=
  congrArg some (callDestination_captures captures same bytes)

/-! ### Scripts that write to the destination -/

/-- Whether an action only asks for what does not change, or calls the
destination. -/
def Action.Emits (world : World) : Action → Prop
  | .load cell => cell ≠ .linePrefix
  | .readClock | .readHost => True
  | .deliver destination _ => destination = world.get .destination
  | _ => False

def Discipline.emitting (world : World) : Discipline Unit where
  expects _ := world.Answers
  allows _ action _ _ := action.Emits world

variable {world : World} {α β : Type}

namespace Script

/-- A script that writes to the destination, and panics only if the clock has
to be read and cannot be. -/
def Emits (world : World) (returns : α → Prop) (script : Script α) : Prop :=
  script.Follows (Discipline.emitting world) (fun value _ => returns value)
    (fun _ _ => ¬ world.Stamps) ()

namespace Emits

variable {returns : α → Prop} {returns' : β → Prop}

theorem value {value : α} (right : returns value) :
    (pure value : Script α).Emits world returns := right

theorem bind {script : Script α} {continuation : α → Script β}
    (first : script.Emits world returns)
    (second : ∀ value, returns value →
      (continuation value).Emits world returns') :
    (script >>= continuation).Emits world returns' := by
  unfold Emits
  rw [follows_bind]
  exact first.weaken (fun value _ right => second value right)
    (fun _ _ wrong => wrong)

theorem followedBy {script : Script α} {continuation : α → Script β}
    (first : script.Emits world (fun _ => True))
    (second : ∀ value, (continuation value).Emits world returns') :
    (script >>= continuation).Emits world returns' :=
  first.bind fun value _ => second value

theorem load {cell : Cell} (other : cell ≠ .linePrefix) :
    (Script.load cell).Emits world (fun value => value = world.get cell) := by
  intro value answer
  exact ⟨(), other, answer other⟩

theorem readHost :
    (perform .readHost).Emits world
      (fun host => host = world.surroundings.host) := by
  intro host answer
  exact ⟨(), trivial, answer⟩

end Emits

end Script

namespace Logger

open Script

private theorem write_emits (bytes : Bytes) :
    (write (world.get .destination) bytes).Emits world
      (fun _ => True) := by
  unfold write
  split
  · exact .value trivial
  · intro reaction answer
    change reaction = Reaction.plain at answer
    subst answer
    exact ⟨(), rfl, trivial⟩

private theorem lineWriter_emits :
    lineWriter.Emits world
      (fun writer => writer.destination = world.get .destination) := by
  have notPrefix : Cell.destination ≠ .linePrefix ∧
      Cell.colorMode ≠ .linePrefix := by decide
  refine .bind (.load notPrefix.1) ?_
  intro destination same
  refine .followedBy ?_ fun _ => .value same
  exact .bind (.load notPrefix.2) fun _ _ =>
    .bind .readHost fun _ _ => .value trivial

private theorem currentInstant_emits (on : world.get .timestamps = true) :
    currentInstant.Emits world (fun _ => True) := by
  intro time answer
  refine ⟨(), trivial, ?_⟩
  simp only [Script.done_bind]
  cases reads : time.read with
  | ok instant =>
      exact trivial
  | error fault =>
      rw [follows_panic]
      intro stamps
      obtain ⟨now, shows⟩ := stamps on
      rw [← answer, reads] at shows
      cases shows

section Fragments

variable {writer : LineWriter}
variable (current : writer.destination = world.get .destination)
include current

private theorem put_emits (fragments : List Fragment) :
    (writer.put fragments).Emits world (fun _ => True) := by
  induction fragments with
  | nil =>
      exact .value trivial
  | cons fragment fragments inductionHypothesis =>
      refine .followedBy ?_ fun _ => inductionHypothesis
      rw [current]
      exact write_emits (fragment.bytes writer.colored)

private theorem putTimestamp_emits :
    writer.putTimestamp.Emits world (fun _ => True) := by
  have notPrefix : Cell.timestamps ≠ .linePrefix := by decide
  refine .bind (.load notPrefix) ?_
  intro on same
  cases on with
  | false =>
      exact .value trivial
  | true =>
      refine .followedBy (currentInstant_emits same.symm) ?_
      intro now
      exact put_emits current _

private theorem putSite_emits (site : CallSite) :
    (writer.putSite site).Emits world (fun _ => True) := by
  have notPrefix : Cell.sourceLocation ≠ .linePrefix := by decide
  refine .bind (.load notPrefix) ?_
  intro on _
  cases on with
  | false =>
      exact .value trivial
  | true =>
      exact put_emits current (Line.siteGroup site)

private theorem putModule_emits (moduleName : Option String) :
    (writer.putModule moduleName).Emits world (fun _ => True) := by
  cases moduleName with
  | none =>
      exact .value trivial
  | some name =>
      exact put_emits current (Line.moduleGroup name)

end Fragments

theorem emit_emits (linePrefix : LinePrefix) (entry : Entry)
    (message : String) :
    (emit linePrefix entry message).Emits world (fun _ => True) := by
  refine .bind lineWriter_emits ?_
  intro writer current
  refine .followedBy (putTimestamp_emits current) fun _ => ?_
  refine .bind .readHost fun host _ => ?_
  refine .followedBy (put_emits current _) fun _ => ?_
  refine .followedBy (putSite_emits current entry.site) fun _ => ?_
  refine .followedBy (putModule_emits current entry.moduleName) fun _ => ?_
  exact put_emits current (Line.messageGroup message)

end Logger

/-! ### Running alone -/

private theorem Action.perform_emits {action : Action}
    (captures : world.Captures)
    (possible : ∀ result, world.Answers action result →
      action.Emits world) :
    ∃ result accepted, world.Answers action result ∧
      ∀ thread now, world.SameButPrefix now →
        action.perform thread now =
          some { result := result, world := now, accepted := accepted } := by
  cases action with
  | load cell =>
      have other : cell ≠ .linePrefix := possible _ fun _ => rfl
      refine ⟨world.get cell, [], fun _ => rfl, ?_⟩
      intro thread now same
      rw [← same.cells cell other]
      rfl
  | readClock =>
      refine ⟨_, [], rfl, ?_⟩
      intro thread now same
      rw [← same.surroundings]
      rfl
  | readHost =>
      refine ⟨_, [], rfl, ?_⟩
      intro thread now same
      rw [← same.surroundings]
      rfl
  | deliver destination bytes =>
      have current : destination = world.get .destination := possible _ rfl
      subst current
      refine ⟨_, [world.delivers bytes], rfl, ?_⟩
      intro thread now same
      exact perform_deliver captures same bytes thread
  | store | acquire | release | endInitialisation | setClock | arm
  | collect =>
      exact (possible () trivial).elim
  | beginInitialisation =>
      exact (possible false rfl).elim
  | lookup =>
      exact (possible .unset trivial).elim
  | takeFacade =>
      exact (possible true trivial).elim

/-- Writing to the destination leaves the logger as it is, and what is written
does not depend on the line prefix or the locks. -/
theorem Script.Emits.run {script : Script α} {returns : α → Prop}
    (captures : world.Captures) (emits : script.Emits world returns)
    {now : World} (same : world.SameButPrefix now) :
    script.run now = { script.run world with world := now } := by
  induction script with
  | done | panic =>
      rfl
  | step action next inductionHypothesis =>
      have possible : ∀ result, world.Answers action result →
          action.Emits world := by
        intro result answer
        exact (emits result answer).choose_spec.1
      obtain ⟨result, accepted, answer, performs⟩ :=
        Action.perform_emits captures possible
      obtain ⟨_, _, rest⟩ := emits result answer
      simp only [Script.run, performs 0 now same,
        performs 0 world (.refl world)]
      rw [inductionHypothesis result rest]
      rfl

def Command.isPlain : Command → Bool
  | .log _ message => message.isInert
  | .setPrefix _ => true
  | _ => false

/-- A logger on which the defaults have been applied and nobody holds a lock,
that keeps lines whole, and whose destination captures them. -/
structure World.ReadyToLog (world : World) : Prop where
  complete : world.initialisation = .complete
  configFree : world.configLock.holder = none
  outputFree : world.outputLock.holder = none
  threadSafe : world.get .threadSafe = true
  captures : world.Captures

def Command.writes (world : World) (command : Command)
    (linePrefix : LinePrefix) : List Delivery :=
  (command.script.run (world.set .linePrefix linePrefix)).accepted

namespace Logger

open Script

private theorem run_withOutputLock {body : Script Unit}
    (captures : world.Captures) (emits : body.Emits world (fun _ => True))
    {now : World} (same : world.SameButPrefix now)
    (free : now.outputLock.holder = none) :
    ((withOutputLock body).run now).accepted =
      (body.run world).accepted := by
  obtain ⟨held, takes, still⟩ : ∃ held,
      (perform (.acquire .output)).run now =
          { ending := .returned (), world := held, accepted := [] } ∧
        world.SameButPrefix held := by
    have unheld : (now.lock .output).holder = none := free
    refine ⟨now.setLock .output
      { now.lock .output with holder := some 0 }, ?_, ?_⟩
    · rw [run_perform, Action.perform_acquire unheld]
      rfl
    · exact same.frame rfl rfl rfl
  unfold withOutputLock
  rw [run_bind, takes]
  change (((attempt body >>= _).run held).after []).accepted = _
  rw [Outcome.after_nil, run_bind, run_attempt, emits.run captures still]
  unfold Outcome.andThen Outcome.caught
  cases (body.run world).ending with
  | returned value =>
      exact List.append_nil _
  | panicked text =>
      exact List.append_nil _
  | waiting =>
      rfl

private theorem run_writeLine (captures : world.Captures) {now : World}
    (same : world.SameButPrefix now) (configFree : now.configLock.holder = none)
    (outputFree : now.outputLock.holder = none)
    (threadSafe : now.get .threadSafe = true) (entry : Entry)
    (text : String) :
    ((writeLine entry text).run now).accepted =
      ((emit (now.get .linePrefix) entry text).run world).accepted := by
  change ((do
    perform (.acquire .config)
    let linePrefix ← load .linePrefix
    perform (.release .config false)
    let threadSafe ← load .threadSafe
    if threadSafe then
      withOutputLock (emit linePrefix entry text)
    else
      emit linePrefix entry text : Script Unit).run now).accepted = _
  rw [run_readUnderLock .linePrefix _ configFree, run_load_bind, threadSafe,
    if_pos rfl]
  exact run_withOutputLock captures (emit_emits _ entry text) same outputFree

end Logger

theorem Command.writes_line {command : Command} (ready : world.ReadyToLog)
    (plain : command.isPlain = true) {entry : Entry} {text : String}
    (effect : command.effect world = .line entry text)
    (linePrefix : LinePrefix) :
    command.writes world linePrefix =
      ((Logger.emit linePrefix entry text).run world).accepted := by
  obtain ⟨message, called, passes, rendered, nonempty⟩ :=
    Command.effect_eq_line effect
  subst called
  unfold Command.writes Command.script
  generalize moved : world.set .linePrefix linePrefix = now
  have same : world.SameButPrefix now := by
    subst moved
    exact (World.SameButPrefix.refl world).setPrefix linePrefix
  have opens : now.opens entry.level entry.moduleName = true := by
    subst moved
    exact passes
  have configFree : now.configLock.holder = none := by
    subst moved
    exact ready.configFree
  have complete : now.initialisation = .complete := by
    subst moved
    exact ready.complete
  rw [Script.run_map, Logger.log, Script.run_bind,
    Logger.run_wouldLog configFree complete, opens,
    Message.render_inert plain, rendered]
  change ((((if text = "" then pure () else Logger.writeLine entry text :
    Script Unit).run now).after []).map Value.ofUnit).accepted = _
  rw [Outcome.after_nil, if_neg nonempty]
  change ((Logger.writeLine entry text).run now).accepted = _
  rw [Logger.run_writeLine ready.captures same configFree]
  · subst moved
    rw [World.get_set_same]
  · subst moved
    exact ready.outputFree
  · subst moved
    exact ready.threadSafe

end LeveledLog
