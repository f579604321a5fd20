/-
Messages that make calls of their own.

While sinks accept everything and the clock can be read, if lines may show it,
no call panics: a message cannot be rendered only if it has a part that fails
or panics by itself.  The calls of a message are then made as they would be
one after the other, up to that part, and what is written for the message comes
after all that they write.
-/

import LeveledLog.Proofs.Effects
import LeveledLog.Proofs.GateLaw

namespace LeveledLog

/-! ### What a message comes to -/

namespace Part

def shown? : Part → Option String
  | .text shown => some shown
  | .calls _ => some ""
  | .fails | .panics _ => none

def command? : Part → Option Command
  | .calls command => some command
  | .text _ | .fails | .panics _ => none

def allShown? (parts : List Part) : Option String :=
  (parts.mapM shown?).map String.join

/-- The calls of the parts before the first that fails. -/
def steps (parts : List Part) : List Command :=
  (parts.takeWhile fun part => part.shown?.isSome).filterMap command?

end Part

namespace Message

def text? : Message → Option String
  | .literal text => some text
  | .rendered parts => Part.allShown? parts

def steps : Message → List Command
  | .literal _ => []
  | .rendered parts => Part.steps parts

end Message

def World.acceptedAll (world : World) : List Command → List Delivery
  | [] => []
  | command :: commands =>
      (command.script.run world).accepted ++
        (command.script.run world).world.acceptedAll commands

mutual

/-- A call that leaves sinks accepting everything, turns timestamps on only if
lines are timed, and then sets the clock only to what can be read. -/
def Command.KeepsCalm (timed : Prop) : Command → Prop
  | .log _ message | .facadeLog _ message => message.KeepsCalm timed
  | .setTimestamps on => on = true → timed
  | .setClock time => timed → ∃ now, time.read = .ok now
  | .arm _ reactions => reactions = Reaction.capturing
  | _ => True

def Message.KeepsCalm (timed : Prop) : Message → Prop
  | .literal _ => True
  | .rendered parts => Part.AllKeepCalm timed parts

def Part.KeepsCalm (timed : Prop) : Part → Prop
  | .calls command => command.KeepsCalm timed
  | .text _ | .fails | .panics _ => True

def Part.AllKeepCalm (timed : Prop) : List Part → Prop
  | [] => True
  | part :: parts => part.KeepsCalm timed ∧ Part.AllKeepCalm timed parts

end

/-! ### Calm loggers -/

/-- An initialised logger at rest, with sinks that accept everything, and with
a clock that can be read if lines may be timed. -/
structure World.Calm (timed : Prop) (world : World) : Prop where
  rest : world.AtRest
  complete : world.initialisation = .complete
  captures : ∀ name,
    world.surroundings.reactions name = Reaction.capturing
  shows : world.get .timestamps = true → timed
  reads : timed → ∃ now, world.surroundings.clock.read = .ok now

variable {timed : Prop}

namespace World.Calm

variable {world : World}

private theorem stamps (calm : world.Calm timed) : world.Stamps :=
  fun on => calm.reads (calm.shows on)

private theorem heeds (calm : world.Calm timed) (destination : Destination) :
    world.Heeds destination fun _ => [] :=
  .of_capturing fun name _ => calm.captures name

private theorem afterCalls_eq (calm : world.Calm timed)
    (destination : Destination) (count : Nat) :
    world.afterCalls destination count = world := by
  have once : world.afterCall destination = world := by
    unfold World.afterCall
    rw [(calm.heeds destination).accepts 0]
    cases destination with
    | standard =>
        rfl
    | sink name =>
        simp only [World.called, Surroundings.call, calm.captures name]
        rfl
  induction count with
  | zero =>
      rfl
  | succ count inductionHypothesis =>
      rw [World.afterCalls, once, inductionHypothesis]

private theorem of_frame {after : World} (calm : world.Calm timed)
    (configLock : after.configLock = world.configLock)
    (outputLock : after.outputLock = world.outputLock)
    (initialisation : after.initialisation = world.initialisation)
    (captures : ∀ name,
      after.surroundings.reactions name = Reaction.capturing)
    (shows : after.get .timestamps = true → timed)
    (reads : timed → ∃ now, after.surroundings.clock.read = .ok now) :
    after.Calm timed where
  rest :=
    { configFree := by
        rw [configLock]
        exact calm.rest.configFree
      outputFree := by
        rw [outputLock]
        exact calm.rest.outputFree
      settled := by
        rw [initialisation]
        exact calm.rest.settled }
  complete := initialisation.trans calm.complete
  captures := captures
  shows := shows
  reads := reads

/-- What concerns the core only leaves an initialised logger calm. -/
theorem of_periphery {after : World} (calm : world.Calm timed)
    (same : world.SamePeriphery after)
    (initialisation : after.initialisation = world.initialisation) :
    after.Calm timed := by
  obtain ⟨_, _, surroundings⟩ := same.surroundings
  apply calm.of_frame same.configLock same.outputLock initialisation
  · rw [surroundings]
    exact calm.captures
  · rw [same.cells .timestamps rfl]
    exact calm.shows
  · rw [surroundings]
    exact calm.reads

end World.Calm

/-- Stated for any cell and value, as a value may be costly to unfold. -/
private theorem World.set_frame (world : World) (cell : Cell)
    (value : cell.Value) :
    (world.set cell value).configLock = world.configLock ∧
      (world.set cell value).outputLock = world.outputLock ∧
      (world.set cell value).initialisation = world.initialisation :=
  ⟨rfl, rfl, rfl⟩

theorem World.set_surroundings (world : World) (cell : Cell)
    (value : cell.Value) :
    (world.set cell value).surroundings = world.surroundings := rfl

theorem Command.stored_frame (command : Command) (world : World) :
    (command.stored world).configLock = world.configLock ∧
      (command.stored world).outputLock = world.outputLock ∧
      (command.stored world).initialisation = world.initialisation := by
  cases command with
  | setPrefix text =>
      exact World.set_frame _ _ _
  | _ =>
      exact ⟨rfl, rfl, rfl⟩

namespace World.Calm

variable {world : World}

private theorem stored (calm : world.Calm timed) {command : Command}
    (keeps : command.KeepsCalm timed) : (command.stored world).Calm timed := by
  obtain ⟨configLock, outputLock, initialisation⟩ :=
    command.stored_frame world
  refine calm.of_frame configLock outputLock initialisation ?_ ?_ ?_
  · intro name
    cases command with
    | arm armed reactions =>
        rw [Command.KeepsCalm] at keeps
        by_cases same : name = armed
        · subst same
          exact (Surroundings.reactions_arm_same _ _ _).trans keeps
        · exact (Surroundings.reactions_arm_of_ne _ _ same).trans
            (calm.captures name)
    | setPrefix text =>
        rw [Command.stored, World.set_surroundings]
        exact calm.captures name
    | _ =>
        exact calm.captures name
  · cases command with
    | setTimestamps on =>
        rw [Command.KeepsCalm] at keeps
        exact keeps
    | setPrefix text =>
        rw [Command.stored, World.get_set_of_ne]
        · exact calm.shows
        · intro same
          cases same
    | _ =>
        exact calm.shows
  · cases command with
    | setClock time =>
        rw [Command.KeepsCalm] at keeps
        exact keeps
    | setPrefix text =>
        rw [Command.stored, World.set_surroundings]
        exact calm.reads
    | _ =>
        exact calm.reads

end World.Calm

/-! ### Calls on calm loggers -/

structure Script.StaysCalm {α : Type} (timed : Prop) (script : Script α)
    (world : World) : Prop where
  returns : ∃ value, (script.run world).ending = .returned value
  calm : (script.run world).world.Calm timed

namespace Script.StaysCalm

variable {α β : Type} {script : Script α} {world : World}

private theorem of_run {value : α} {after : World} {accepted : List Delivery}
    (runs : script.run world =
      { ending := .returned value, world := after, accepted := accepted })
    (calm : after.Calm timed) : script.StaysCalm timed world := by
  constructor
  · exact ⟨value, by rw [runs]⟩
  · rw [runs]
    exact calm

theorem pure (value : α) (calm : world.Calm timed) :
    (Pure.pure value : Script α).StaysCalm timed world :=
  .of_run rfl calm

theorem bind (stays : script.StaysCalm timed world)
    {continuation : α → Script β}
    (staysLater : ∀ value {after : World}, after.Calm timed →
      (continuation value).StaysCalm timed after) :
    (script >>= continuation).StaysCalm timed world := by
  obtain ⟨⟨value, returned⟩, calm⟩ := stays
  obtain ⟨returnsLater, calmLater⟩ := staysLater value calm
  have runs := run_bind_of_returned returned continuation
  constructor
  · rw [runs]
    exact returnsLater
  · rw [runs]
    exact calmLater

private theorem of_run_eq {other : Script α} {start : World}
    (same : script.run world = other.run start)
    (stays : other.StaysCalm timed start) : script.StaysCalm timed world := by
  constructor
  · rw [same]
    exact stays.returns
  · rw [same]
    exact stays.calm

theorem map (stays : script.StaysCalm timed world) (function : α → β) :
    (function <$> script).StaysCalm timed world := by
  rw [map_eq_pure_bind]
  exact stays.bind fun _ _ calm => .pure _ calm

end Script.StaysCalm

private theorem World.Calm.writeAll {world : World} (calm : world.Calm timed)
    (destination : Destination) {writes : List Bytes}
    (nonempty : ∀ bytes ∈ writes, bytes ≠ []) :
    (Logger.writeAll destination writes).run world =
      { ending := .returned ()
        world := world
        accepted := writes.map (world.surroundings.delivery destination) } := by
  rw [Logger.run_writeAll (calm.heeds destination) calm.rest.configFree
    nonempty, calm.afterCalls_eq]

private theorem World.Calm.writeRendered {world : World}
    (calm : world.Calm timed) (entry : Entry) (rendered : Option String) :
    (Logger.writeRendered entry rendered).run world =
      { ending := .returned ()
        world := world
        accepted :=
          (world.renderedWrites entry rendered).map world.delivers } := by
  rw [Logger.run_writeRendered calm.rest calm.stamps (calm.heeds _),
    calm.afterCalls_eq]

private theorem Role.staysCalm (role : Role) {world : World}
    (calm : world.Calm timed) : role.script.StaysCalm timed world := by
  have played := role.played calm.rest
  have same := role.script_periphery calm.rest
  suffices stays : (∃ value, (role.script.run world).ending =
      .returned value) ∧
      (role.script.run world).world.initialisation = world.initialisation from
    ⟨stays.1, calm.of_periphery same stays.2⟩
  generalize role.script.run world = outcome at played ⊢
  cases played with
  | outside =>
      exact ⟨⟨(), rfl⟩, rfl⟩
  | settled =>
      refine ⟨⟨(), rfl⟩, ?_⟩
      rw [effect_initialisation, claim_initialisation]
  | applied _ pending | failed _ pending =>
      rw [calm.complete] at pending
      cases pending

private theorem Command.staysCalm_of_plain {command : Command}
    (plain : command.logs = false) (keeps : command.KeepsCalm timed)
    {world : World} (calm : world.Calm timed) :
    command.script.StaysCalm timed world := by
  rw [script_eq]
  refine (command.role.staysCalm calm).bind ?_
  intro _ after calmAfter
  obtain ⟨value, runs⟩ := run_rest plain calmAfter.rest.configFree
  have stored := calmAfter.stored keeps
  rw [stored.writeAll _ (command.sent_nonempty after)] at runs
  exact .of_run runs stored

theorem World.Calm.log {world : World} (calm : world.Calm timed)
    (entry : Entry) (render : Script (Option String)) :
    (Logger.log entry render).run world =
      if world.opens entry.level entry.moduleName then
        (render >>= Logger.writeRendered entry).run world
      else
        { ending := .returned (), world := world, accepted := [] } := by
  have asked := Logger.run_wouldLog calm.rest.configFree calm.complete
    entry.level entry.moduleName
  rw [Logger.run_log calm.rest (congrArg Outcome.ending asked),
    World.ready_of_complete calm.complete]

private theorem Logger.log_staysCalm {entry : Entry}
    {render : Script (Option String)} {world : World}
    (calm : world.Calm timed) (renders : render.StaysCalm timed world) :
    (log entry render).StaysCalm timed world := by
  have written : (render >>= writeRendered entry).StaysCalm timed world := by
    refine renders.bind ?_
    intro rendered after calmAfter
    exact .of_run (calmAfter.writeRendered entry rendered) calmAfter
  have runs := calm.log entry render
  cases opens : world.opens entry.level entry.moduleName with
  | false =>
      rw [opens] at runs
      exact .of_run runs calm
  | true =>
      rw [opens] at runs
      exact .of_run_eq runs written

/-! ### Rendering on calm loggers -/

structure Script.Renders (timed : Prop) (script : Script (Option String))
    (world : World) (text? : Option String) (steps : List Command) :
    Prop where
  ends : (script.run world).ending = .returned text? ∨
    text? = none ∧ ∃ panic, (script.run world).ending = .panicked panic
  leads : (script.run world).world = world.afterAll steps
  accepted : (script.run world).accepted = world.acceptedAll steps
  calm : (world.afterAll steps).Calm timed

namespace Script.Renders

variable {script : Script (Option String)} {world : World}
variable {text? : Option String} {steps : List Command}

theorem pure (text? : Option String) (calm : world.Calm timed) :
    (Pure.pure text? : Script (Option String)).Renders timed world text? [] :=
  ⟨.inl rfl, rfl, rfl, calm⟩

theorem panic (text : String) (calm : world.Calm timed) :
    (Script.panic text).Renders timed world none [] :=
  ⟨.inr ⟨rfl, text, rfl⟩, rfl, rfl, calm⟩

theorem map (renders : script.Renders timed world text? steps)
    (function : String → String) :
    (script >>= fun rendered =>
      (Pure.pure (rendered.map function) : Script _)).Renders timed world
      (text?.map function) steps := by
  obtain ⟨ends, after, accepted, calm⟩ := renders
  have runs := run_bind script
    (fun rendered => Pure.pure (rendered.map function)) world
  unfold Outcome.andThen at runs
  rcases ends with returned | ⟨none, text, panicked⟩
  · rw [returned] at runs
    refine ⟨.inl ?_, ?_, ?_, calm⟩
    · rw [runs]
      rfl
    · rw [runs]
      exact after
    · rw [runs]
      exact (List.append_nil _).trans accepted
  · rw [panicked] at runs
    subst none
    refine ⟨.inr ⟨rfl, text, ?_⟩, ?_, ?_, calm⟩
    · rw [runs]
    · rw [runs]
      exact after
    · rw [runs]
      exact accepted

theorem call {command : Command}
    (stays : command.script.StaysCalm timed world)
    (renders :
      script.Renders timed (command.script.run world).world text? steps) :
    (command.script >>= fun _ => script).Renders timed world text?
      (command :: steps) := by
  obtain ⟨⟨value, returned⟩, _⟩ := stays
  obtain ⟨ends, after, accepted, calm⟩ := renders
  have runs := run_bind_of_returned returned fun _ => script
  refine ⟨?_, ?_, ?_, calm⟩
  · rw [runs]
    exact ends
  · rw [runs]
    exact after
  · rw [runs, World.acceptedAll, ← accepted]
    rfl

end Script.Renders

namespace Part

private theorem allShown?_cons (part : Part) (parts : List Part) :
    allShown? (part :: parts) =
      part.shown?.bind fun first =>
        (allShown? parts).map fun text => first ++ text := by
  unfold allShown?
  rw [List.mapM_cons]
  cases part.shown? with
  | none =>
      rfl
  | some first =>
      cases parts.mapM Part.shown? with
      | none =>
          rfl
      | some texts =>
          exact congrArg some String.join_cons

private theorem steps_of_shown {part : Part} {first : String}
    (shown : part.shown? = some first) (parts : List Part) :
    steps (part :: parts) = part.command?.toList ++ steps parts := by
  unfold steps
  rw [List.takeWhile_cons_of_pos (by simp [shown])]
  cases calls : part.command? with
  | none =>
      rw [List.filterMap_cons_none calls]
      rfl
  | some command =>
      rw [List.filterMap_cons_some calls]
      rfl

private theorem steps_of_not_shown {part : Part} (fails : part.shown? = none)
    (parts : List Part) : steps (part :: parts) = [] := by
  unfold steps
  rw [List.takeWhile_cons_of_neg (by simp [fails])]
  rfl

end Part

private theorem Message.run_render_of_renders {parts : List Part}
    {world : World} {text? : Option String} {steps : List Command}
    (renders : (Part.renderAll parts).Renders timed world text? steps) :
    (Message.rendered parts).render.run world =
      { ending := .returned text?
        world := world.afterAll steps
        accepted := world.acceptedAll steps } := by
  obtain ⟨ends, after, accepted, _⟩ := renders
  rw [render, Script.run_bind, Script.run_attempt]
  unfold Outcome.caught Outcome.andThen
  rw [after, accepted]
  rcases ends with returned | ⟨none, text, panicked⟩
  · rw [returned]
    simp [Outcome.after]
  · rw [panicked, none]
    simp [Outcome.after]

/-! ### Messages on calm loggers -/

mutual

theorem Command.staysCalm (command : Command)
    (keeps : command.KeepsCalm timed) {world : World}
    (calm : world.Calm timed) : command.script.StaysCalm timed world := by
  cases command with
  | log entry message =>
      rw [Command.KeepsCalm] at keeps
      rw [Command.script]
      obtain ⟨runs, after⟩ := Message.run_render message keeps calm
      exact .map (Logger.log_staysCalm calm (.of_run runs after)) _
  | facadeLog record message =>
      rw [Command.KeepsCalm] at keeps
      rw [Command.script]
      obtain ⟨runs, after⟩ := Message.run_render message keeps calm
      refine .map (Logger.log_staysCalm calm ?_) _
      exact .bind (.of_run runs after) fun _ _ => .pure _
  | _ =>
      exact Command.staysCalm_of_plain rfl keeps calm

theorem Message.run_render : (message : Message) → message.KeepsCalm timed →
    ∀ {world : World}, world.Calm timed →
      message.render.run world =
          { ending := .returned message.text?
            world := world.afterAll message.steps
            accepted := world.acceptedAll message.steps } ∧
        (world.afterAll message.steps).Calm timed
  | .literal _, _, _, calm => by
      rw [Message.render]
      exact ⟨rfl, calm⟩
  | .rendered parts, keeps, _, calm => by
      rw [Message.KeepsCalm] at keeps
      have renders := Part.renderAll_renders parts keeps calm
      exact ⟨Message.run_render_of_renders renders, renders.calm⟩

theorem Part.renderAll_renders : (parts : List Part) →
    Part.AllKeepCalm timed parts → ∀ {world : World}, world.Calm timed →
      (Part.renderAll parts).Renders timed world (Part.allShown? parts)
        (Part.steps parts)
  | [], _, _, calm => by
      rw [Part.renderAll]
      exact .pure _ calm
  | .text shown :: parts, keeps, _, calm => by
      rw [Part.AllKeepCalm] at keeps
      rw [Part.renderAll, Part.render, pure_bind, Part.allShown?_cons,
        Part.steps_of_shown rfl]
      exact (Part.renderAll_renders parts keeps.2 calm).map _
  | .fails :: parts, _, _, calm => by
      rw [Part.renderAll, Part.render, pure_bind, Part.allShown?_cons,
        Part.steps_of_not_shown rfl]
      exact .pure none calm
  | .panics text :: parts, _, _, calm => by
      rw [Part.renderAll, Part.render, Part.allShown?_cons,
        Part.steps_of_not_shown rfl]
      exact .panic text calm
  | .calls command :: parts, keeps, _, calm => by
      rw [Part.AllKeepCalm, Part.KeepsCalm] at keeps
      rw [Part.renderAll, Part.render, bind_assoc, Part.allShown?_cons,
        Part.steps_of_shown rfl]
      -- The later parts are rendered on the logger that the call leaves.
      have stays := Command.staysCalm command keeps.1 calm
      exact .call stays
        ((Part.renderAll_renders parts keeps.2 stays.calm).map _)

end

/-! ### Logging from inside a message -/

/-- What a passing message comes to on an initialised logger, with sinks that
accept everything; the clock can be read if lines are timed, which they are as
soon as timestamps are on, or are turned on by the message.  The call returns;
the calls of the message, up to its first part that fails, are made as they
would be one after the other; and then comes what is written for the message
itself, as the settings are after those calls, whether or not it would pass by
then: its line, nothing if it is empty, or the fixed line if a part has
failed. -/
theorem nested_calls_come_first {world : World} (reachable : world.Reachable)
    (complete : world.initialisation = .complete)
    (captures : ∀ name,
      world.surroundings.reactions name = Reaction.capturing)
    (shows : world.get .timestamps = true → timed)
    (reads : timed → ∃ now, world.surroundings.clock.read = .ok now)
    {entry : Entry} {message : Message} (keeps : message.KeepsCalm timed)
    (passes : world.passes entry.level entry.moduleName = true) :
    let rendered := world.afterAll message.steps
    ∃ own,
      (Logger.log entry message.render).run world =
        { ending := .returned ()
          world := rendered
          accepted :=
            world.acceptedAll message.steps ++
              own.map rendered.delivers } ∧
      (message.text? = none → own = [Text.utf8 formatErrorLine]) ∧
      (message.text? = some "" → own = []) ∧
      ∀ text, message.text? = some text → text ≠ "" →
        own = rendered.lineWrites entry text ∧
          own = Fragment.writes rendered.colored
            (rendered.leadingFragments entry) ++
              [Text.utf8 " ", Text.utf8 text] := by
  intro rendered
  have calm : world.Calm timed :=
    ⟨reachable.atRest, complete, captures, shows, reads⟩
  obtain ⟨renders, calmAfter⟩ := message.run_render keeps calm
  refine ⟨rendered.renderedWrites entry message.text?, ?_, ?_, ?_, ?_⟩
  · rw [calm.log, World.opens_eq reachable.mirror, passes, if_pos rfl,
      Script.run_bind, renders]
    exact congrArg (Outcome.after · _)
      (calmAfter.writeRendered entry message.text?)
  · intro fails
    rw [fails]
    rfl
  · intro empty
    rw [empty]
    rfl
  · intro text shown nonempty
    have line : rendered.renderedWrites entry message.text? =
        rendered.lineWrites entry text := by
      rw [shown]
      exact if_neg nonempty
    rw [line]
    exact ⟨rfl, World.lineWrites_eq calmAfter.stamps entry nonempty⟩

/-- The calls of a message log a line, set the prefix, turn output off and turn
timestamps on before the message itself is written.  A clock that cannot be
read does not matter as long as timestamps stay off. -/
theorem line_after_nested_line :
    let host : Host := { processId := 7, terminal := false }
    let world :=
      (World.fresh (Surroundings.start host Environment.empty)).afterAll
        [.enable, .initOnce, .setDestination (.sink "kept")]
    let unread :=
      world.afterAll [.setClock { seconds := -1, nanoseconds := 0 }]
    let site : CallSite := { file := none, line := 1 }
    let inner : Message :=
      .rendered [.calls .disable, .text "inner", .calls .enable]
    let parts : List Part :=
      [.text "out", .calls (.log (.untagged .warn site) inner),
        .calls (.setPrefix "svc"), .calls .disable, .text "er"]
    let outer := Entry.untagged .info site
    let written := fun (start : World) (message : Message) =>
      (((Logger.log outer message.render).run start).accepted.map
        Delivery.bytes).flatten
    written world (.rendered (parts ++ [.calls (.setTimestamps true)])) =
        Text.utf8 ("|7| ==ct== [WARN] inner" ++
          "[1970-01-01T00:00:00.000] |7| svc [INFO] outer") ∧
      written unread (.rendered parts) =
        Text.utf8 "|7| ==ct== [WARN] inner|7| svc [INFO] outer" := by
  intro host world unread site inner parts outer written
  have reachable : world.Reachable :=
    World.Reachable.afterAll (.fresh _) _
  have complete : world.initialisation = .complete := by
    decide +kernel
  have passes : world.passes outer.level outer.moduleName = true := by
    decide +kernel
  constructor
  · have keeps : (Message.rendered
        (parts ++ [.calls (.setTimestamps true)])).KeepsCalm True := by
      simp [parts, inner, Message.KeepsCalm, Part.AllKeepCalm,
        Part.KeepsCalm, Command.KeepsCalm]
    obtain ⟨own, runs, _, _, line⟩ :=
      nested_calls_come_first reachable complete (fun _ => rfl)
        (fun _ => trivial) (fun _ => ⟨_, ClockTime.read_epoch⟩) keeps passes
    simp only [written]
    rw [runs, (line "outer" (by decide +kernel) (by decide)).1]
    decide +kernel
  · have reachableUnread : unread.Reachable := reachable.afterAll _
    have completeUnread : unread.initialisation = .complete := by
      decide +kernel
    have passesUnread :
        unread.passes outer.level outer.moduleName = true := by
      decide +kernel
    have off : unread.get .timestamps ≠ true := by
      decide +kernel
    have keeps : (Message.rendered parts).KeepsCalm False := by
      simp [parts, inner, Message.KeepsCalm, Part.AllKeepCalm,
        Part.KeepsCalm, Command.KeepsCalm]
    obtain ⟨own, runs, _, _, line⟩ :=
      nested_calls_come_first reachableUnread completeUnread (fun _ => rfl)
        off False.elim keeps passesUnread
    simp only [written]
    rw [runs, (line "outer" (by decide +kernel) (by decide)).1]
    decide +kernel

end LeveledLog
