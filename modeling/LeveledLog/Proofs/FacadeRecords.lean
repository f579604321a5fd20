/-
Records of the logging facade, as calls to log.

Logging a record is logging an entry with its level, target, file and line,
whose message is that of the record with one more part at its end, a newline.
Whether the facade counts as enabled for a level and a target, empty or not,
is whether logging such a record calls the sink: no message of a record is
empty, and one that cannot be rendered still has the fixed line in its place.
-/

import LeveledLog.Proofs.GateLaw
import LeveledLog.Proofs.OutputCalls

namespace LeveledLog

variable {α β : Type}

/-! ### Messages with a newline at their end -/

private theorem Script.attempt_map (function : α → β) (script : Script α) :
    (function <$> script).attempt = Except.map function <$> script.attempt := by
  simp only [map_eq_pure_bind]
  change (script.bind _).attempt = script.attempt.bind _
  induction script with
  | done | panic =>
      rfl
  | step action next inductionHypothesis =>
      simp only [bind, attempt, inductionHypothesis]

/-- A text at the end of the parts of a message comes at the end of what they
are rendered to. -/
private theorem Part.renderAll_append_text (parts : List Part) (last : String) :
    Part.renderAll (parts ++ [.text last]) =
      (Option.map fun text => text ++ last) <$> Part.renderAll parts := by
  induction parts with
  | nil =>
      have same : last ++ "" = "" ++ last := by
        rw [String.append_empty, String.empty_append]
      rw [List.nil_append, renderAll, renderAll, render]
      exact congrArg (fun text => (pure (some text) : Script _)) same
  | cons part parts inductionHypothesis =>
      rw [List.cons_append, renderAll, renderAll, inductionHypothesis,
        map_bind]
      congr 1
      funext rendered
      cases rendered with
      | none =>
          rfl
      | some first =>
          simp only [map_bind, bind_map_left, map_pure]
          congr 1
          funext rest
          cases rest with
          | none =>
              rfl
          | some text =>
              exact congrArg (fun text => pure (some text))
                String.append_assoc.symm

namespace Message

def parts : Message → List Part
  | .literal text => [.text text]
  | .rendered parts => parts

def endingLine (message : Message) : Message :=
  .rendered (message.parts ++ [.text "\n"])

private theorem render_endingLine (message : Message) :
    message.endingLine.render = Facade.endLine message.render := by
  rw [endingLine, render, Part.renderAll_append_text, Script.attempt_map,
    bind_map_left, Facade.endLine]
  cases message with
  | literal text =>
      rw [parts, Part.renderAll, Part.render, Part.renderAll, render]
      change (pure (some (text ++ "" ++ "\n")) : Script _) =
        pure (some (text ++ "\n"))
      rw [String.append_empty]
  | rendered parts =>
      rw [Message.parts, render, bind_assoc]
      congr 1
      funext attempted
      cases attempted with
      | ok | error =>
          rfl

private theorem isInert_endingLine {message : Message}
    (inert : message.isInert = true) : message.endingLine.isInert = true := by
  cases message with
  | literal =>
      rfl
  | rendered parts =>
      rw [endingLine, isInert, List.all_append]
      exact Bool.and_eq_true_iff.mpr ⟨inert, rfl⟩

private theorem rendering_endingLine {message : Message}
    (inert : message.isInert = true) :
    message.endingLine.rendering =
      message.rendering.map fun text => text ++ "\n" := by
  have ended := message.render_endingLine
  rw [render_inert (isInert_endingLine inert), render_inert inert] at ended
  exact Script.done.inj ended

end Message

/-! ### Records -/

private theorem Logger.run_wouldLog_of_calm {world : World}
    (rest : world.AtRest)
    (calm : world.surroundings.environment.NeverPanics) (level : Level)
    (moduleName : Option String) :
    (wouldLog level moduleName).run world =
      { ending := .returned (world.ready.opens level moduleName)
        world := world.ready, accepted := [] } := by
  rw [wouldLog_eq, Script.run_bind, (run_initOnce rest calm).1]
  exact (Outcome.after_nil _).trans
    (run_gates (world.ready_atRest rest).configFree level moduleName)

namespace Facade

variable {world : World} {record : Record} {message : Message}

private theorem log_endingLine (record : Record) (message : Message) :
    log record message.render =
      Logger.log record.entry message.endingLine.render := by
  rw [log, message.render_endingLine]

theorem enabled_eq (record : Record) :
    enabled record.severity record.target =
      Logger.wouldLog record.entry.level record.entry.moduleName := by
  change _ = Logger.wouldLog record.severity.level
    (if record.target = "" then none else some record.target)
  rw [enabled]
  by_cases empty : record.target = ""
  · rw [if_pos empty, empty, Logger.wouldLog_empty]
  · rw [if_neg empty]

private theorem line_ne_empty (text : String) : text ++ "\n" ≠ "" := by
  simp [String.append_eq_empty_iff]

def Record.writes (world : World) (record : Record) :
    Option String → List Bytes
  | none => [Text.utf8 formatErrorLine]
  | some text => world.lineWrites record.entry (text ++ "\n")

private theorem Record.renderedWrites_endingLine
    (inert : message.isInert = true) :
    world.renderedWrites record.entry message.endingLine.rendering =
      record.writes world message.rendering := by
  rw [Message.rendering_endingLine inert]
  cases message.rendering with
  | none =>
      rfl
  | some text =>
      exact if_neg (line_ne_empty text)

/-- A record comes to something, unless its line cannot be stamped. -/
private theorem Record.writes_ne_nil {rendered : Option String}
    (stamps : rendered = none ∨ world.Stamps) :
    record.writes world rendered ≠ [] := by
  cases rendered with
  | none =>
      exact List.cons_ne_nil _ _
  | some text =>
      rcases stamps with impossible | stamps
      · cases impossible
      · rw [Record.writes,
          World.lineWrites_eq stamps _ (line_ne_empty text)]
        simp

private theorem log_sinkCalls (rest : world.AtRest)
    (inert : message.isInert = true) {answer : Bool}
    (asked : ((enabled record.severity record.target).run world).ending =
      .returned answer) :
    (log record message.render).sinkCalls world =
      if answer then
        world.ready.callsMade (world.get .destination)
          (record.writes world message.rendering)
      else
        [] := by
  rw [enabled_eq] at asked
  rw [log_endingLine, ← Record.renderedWrites_endingLine inert]
  exact Logger.log_sinkCalls_of_inert rest (Message.isInert_endingLine inert)
    asked

end Facade

/-- Logging a record of the facade is logging an entry with the level that
its severity is mapped to, its target for a module, its file and line, and its
message with a newline at its end; the two are one script, so that they do the
same on every logger and among the steps of any other threads.

If its message makes no calls, and nothing that is looked up panics, the
facade answers, and the answer is whether a record with that level and target
calls the destination: with a destination that accepts, for the fixed line if
the message cannot be rendered, and else for a whole line of the message, also
an empty one, and the newline. -/
theorem facade_agrees_with_logger {world : World} (reachable : world.Reachable)
    (record : Facade.Record) (message : Message) :
    let entry : Entry :=
      { level :=
          match record.severity with
          | .error => .error
          | .warn => .warn
          | .info | .debug | .trace => .info
        site := { file := record.file, line := record.line.getD 0 }
        moduleName :=
          if record.target = "" then none else some record.target }
    let calls := (Facade.log record message.render).sinkCalls world
    Facade.log record message.render =
        Logger.log entry message.endingLine.render ∧
      (message.isInert = true →
        world.surroundings.environment.NeverPanics →
        ∃ answer,
          (Facade.enabled record.severity record.target).run world =
              { ending := .returned answer, world := world.ready
                accepted := [] } ∧
            (message.rendering = none ∨ world.Stamps →
              (answer = true ↔ calls ≠ [])) ∧
            (answer = true → world.Captures →
              calls.map SinkCall.delivery =
                (match message.rendering with
                  | none => [Text.utf8 formatErrorLine]
                  | some text => world.lineWrites entry (text ++ "\n")).map
                    world.delivers)) := by
  intro entry calls
  have rest := reachable.atRest
  have sameEntry : record.entry = entry := by
    cases record with
    | mk severity target file line =>
        cases severity <;> rfl
  refine ⟨?_, ?_⟩
  · rw [Facade.log_endingLine, sameEntry]
  · intro inert calm
    have same := world.ready_periphery rest
    have asked := Logger.run_wouldLog_of_calm rest calm record.entry.level
      record.entry.moduleName
    rw [← Facade.enabled_eq] at asked
    have made := Facade.log_sinkCalls rest inert
      (congrArg Outcome.ending asked)
    refine ⟨_, asked, ?_, ?_⟩
    · intro stamps
      have comes : record.writes world message.rendering ≠ [] :=
        Facade.Record.writes_ne_nil stamps
      change _ ↔ Script.sinkCalls _ world ≠ []
      rw [made]
      cases world.ready.opens record.entry.level record.entry.moduleName with
      | false =>
          simp
      | true =>
          simp [World.callsMade_ne_nil, comes]
    · intro passes captures
      have heeds := same.heeds (World.Heeds.of_capturing captures)
      change List.map _ (Script.sinkCalls _ world) = _
      rw [made, if_pos passes, World.callsMade_of_heeds heeds,
        World.ready_delivery rest, ← sameEntry]
      cases message.rendering with
      | none | some =>
          rfl

/-- On a logger that is still to be initialised, a record with an empty target
calls the destination whatever its message comes to: an empty message is a
line, and one that fails is the fixed line. -/
theorem facade_lines_before_initialisation :
    let host : Host := { processId := 7, terminal := false }
    let world :=
      (World.fresh (Surroundings.start host Environment.empty)).afterAll
        [.enable, .setTimestamps true, .setSourceLocation true,
          .setDestination (.sink "kept")]
    let record : Facade.Record :=
      { severity := .trace, target := "", file := none, line := none }
    let calls := fun message : Message =>
      (Facade.log record message.render).sinkCalls world
    let shown := fun message =>
      ((calls message).map fun call => call.delivery.bytes).flatten
    (∀ message, message.isInert = true → calls message ≠ []) ∧
      shown (.literal "") =
        Text.utf8
          "[1970-01-01T00:00:00.000] |7| ==ct== [INFO] <unknown>:0 \n" ∧
      shown (.rendered [.text "partly", .fails]) =
        Text.utf8 formatErrorLine := by
  intro host world record calls shown
  have reachable : world.Reachable := World.Reachable.afterAll (.fresh _) _
  have calm : world.surroundings.environment.NeverPanics :=
    Environment.neverPanics_constant fun _ => rfl
  have captures : world.Captures := by
    intro name kept
    cases kept
    rfl
  have stamps : world.Stamps := by
    intro _
    exact ⟨_, ClockTime.read_epoch⟩
  have opens : world.ready.opens .info (some "") = true := by
    decide +kernel
  have told := Logger.run_wouldLog_of_calm reachable.atRest calm .info
    (some "")
  rw [opens] at told
  have speaks (message : Message) (inert : message.isInert = true) :
      calls message ≠ [] ∧
        shown message = (record.writes world message.rendering).flatten := by
    obtain ⟨_, agrees⟩ := facade_agrees_with_logger reachable record message
    obtain ⟨answer, asked, decides, lines⟩ := agrees inert calm
    have passes : answer = true :=
      Ending.returned.inj (congrArg Outcome.ending (asked.symm.trans told))
    refine ⟨(decides (.inr stamps)).mp passes, ?_⟩
    have bytes := congrArg (List.map Delivery.bytes) (lines passes captures)
    rw [List.map_map, List.map_map] at bytes
    refine congrArg List.flatten (bytes.trans ?_)
    cases message.rendering with
    | none | some =>
        exact List.map_id _
  refine ⟨fun message inert => (speaks message inert).1, ?_, ?_⟩
  · have rendered : (Message.literal "").rendering = some "" := by
      rw [Message.rendering, Message.render]
      rfl
    rw [(speaks (.literal "") rfl).2, rendered]
    decide +kernel
  · have rendered :
        (Message.rendered [.text "partly", .fails]).rendering = none := by
      decide +kernel
    rw [(speaks (.rendered [.text "partly", .fails]) rfl).2, rendered]
    decide +kernel

end LeveledLog
