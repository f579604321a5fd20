/-
The lines of a run, in the order in which they are written.

All that destinations accept during a run is put together from pieces: lines,
each begun on the logger that the rendering of its message has left, and other
writes.  Among the pieces stands every setting of the clock, so that they tell
what the clock shows when a line begins.  Whatever sinks do, a line is accepted
from its first write on, as far as it is accepted at all.
-/

import LeveledLog.Proofs.Nesting
import LeveledLog.Proofs.PrefixHistory

namespace LeveledLog

/-! ### What is left alone -/

namespace World

def clock (world : World) : ClockTime :=
  world.surroundings.clock

private theorem ChangedBySinks.clock {before after : World}
    (changed : before.ChangedBySinks after) : after.clock = before.clock := by
  obtain ⟨_, sinks, same⟩ := changed
  rw [same]
  rfl

private theorem SamePeriphery.clock {before after : World}
    (same : before.SamePeriphery after) : after.clock = before.clock := by
  obtain ⟨_, _, surroundings⟩ := same.surroundings
  rw [World.clock, surroundings]
  rfl

end World

/-! ### Writes that are accepted up to a panic -/

namespace Logger

open Script

variable {world : World} {destination : Destination} {writes : List Bytes}

theorem writeAll_accepted (free : world.configLock.holder = none)
    (nonempty : ∀ bytes ∈ writes, bytes ≠ []) :
    ((writeAll destination writes).run world).accepted <+:
      writes.map (world.surroundings.delivery destination) := by
  induction writes generalizing world with
  | nil =>
      exact List.nil_prefix
  | cons bytes writes inductionHypothesis =>
      have called := world.afterCall_changed destination
      have first : bytes ≠ [] := nonempty bytes List.mem_cons_self
      rw [writeAll, run_bind]
      cases reacts : world.reactionAt destination 0 with
      | accept changes =>
          have freeStill : (world.afterCall destination).configLock.holder =
              none := by
            rw [called.configLock]
            exact free
          have later := inductionHypothesis freeStill fun other member =>
            nonempty other (List.mem_cons_of_mem _ member)
          rw [funext (called.delivery destination)] at later
          rw [run_write_of_accept first free reacts]
          exact List.cons_prefix_cons.mpr ⟨rfl, later⟩
      | panic text =>
          rw [run_write_of_panic first reacts]
          exact List.nil_prefix

theorem writeLine_clock_accepted (rest : world.AtRest) (entry : Entry)
    (message : String) :
    ((writeLine entry message).run world).world.clock = world.clock ∧
      ((writeLine entry message).run world).accepted <+:
        (world.lineWrites entry message).map world.delivers := by
  by_cases stamps : world.Stamps
  · have nonempty := Fragment.writes_nonempty world.colored
      (world.lineFragments entry message)
    rw [run_writeLine_of_stamps rest stamps]
    exact ⟨(writeAll_changed rest.configFree nonempty).clock,
      writeAll_accepted rest.configFree nonempty⟩
  · obtain ⟨fault, on, reads, _⟩ := World.of_not_stamps stamps
    obtain ⟨_, fails⟩ := run_writeLine_of_fault rest on reads entry message
    rw [fails]
    exact ⟨rfl, List.nil_prefix⟩

private theorem writeRendered_clock (rest : world.AtRest) (entry : Entry)
    (rendered : Option String) :
    ((writeRendered entry rendered).run world).world.clock = world.clock := by
  cases rendered with
  | none =>
      have nonempty := world.renderedWrites_nonempty entry none
      rw [writeRendered, writeText, run_writeRaw]
      exact (writeAll_changed rest.configFree nonempty).clock
  | some text =>
      rw [writeRendered]
      split
      · rfl
      · exact (writeLine_clock_accepted rest entry text).1

end Logger

/-! ### Pieces -/

inductive Piece where
  | line (start : World) (entry : Entry) (message : String)
  | other (deliveries : List Delivery)
  | clock (time : ClockTime)

namespace Piece

def accepted : Piece → List Delivery
  | .line start entry message =>
      ((Logger.writeLine entry message).run start).accepted
  | .other deliveries => deliveries
  | .clock _ => []

/-- The piece that is written for a message that has been rendered, or could
not be. -/
def ofRendered (world : World) (entry : Entry) (rendered : Option String) :
    Piece :=
  match rendered with
  | none => .other ((Logger.writeText formatErrorLine).run world).accepted
  | some text => if text = "" then .other [] else .line world entry text

private theorem accepted_ofRendered (world : World) (entry : Entry)
    (rendered : Option String) :
    (ofRendered world entry rendered).accepted =
      ((Logger.writeRendered entry rendered).run world).accepted := by
  cases rendered with
  | none =>
      rfl
  | some text =>
      rw [ofRendered, Logger.writeRendered]
      split <;> rfl

def Rests : Piece → Prop
  | .line start _ _ => start.AtRest
  | .other _ | .clock _ => True

def time? : Piece → Option ClockTime
  | .clock time => some time
  | .line _ _ _ | .other _ => none

end Piece

/-- The clock goes from one time to another during the listed pieces, and a
line begins at the time to which the clock has been set last. -/
def ClockRuns : ClockTime → List Piece → ClockTime → Prop
  | now, [], last => last = now
  | now, .line start _ _ :: pieces, last =>
      start.clock = now ∧ ClockRuns now pieces last
  | now, .other _ :: pieces, last => ClockRuns now pieces last
  | _, .clock time :: pieces, last => ClockRuns time pieces last

private theorem ClockRuns.append {now between last : ClockTime}
    {earlier later : List Piece} (first : ClockRuns now earlier between)
    (second : ClockRuns between later last) :
    ClockRuns now (earlier ++ later) last := by
  induction earlier generalizing now with
  | nil =>
      cases first
      exact second
  | cons piece pieces inductionHypothesis =>
      cases piece with
      | line start entry message =>
          exact ⟨first.1, inductionHypothesis first.2⟩
      | other deliveries =>
          have rest : ClockRuns now pieces between := first
          exact inductionHypothesis rest
      | clock time =>
          have rest : ClockRuns time pieces between := first
          exact inductionHypothesis rest

/-! ### The pieces of a call -/

def Outcome.pieces {α : Type} (outcome : Outcome α)
    (later : α → World → List Piece) : List Piece :=
  match outcome.ending with
  | .returned value => later value outcome.world
  | .panicked _ | .waiting => []

/-- The pieces of a call to log: those of its message, and then its own. -/
def World.piecesLogged (world : World) (entry : Entry)
    (render : Script (Option String)) (inner : World → List Piece) :
    List Piece :=
  ((Logger.wouldLog entry.level entry.moduleName).run world).pieces
    fun passes start =>
      if passes then
        inner start ++ (render.run start).pieces fun rendered during =>
          [.ofRendered during entry rendered]
      else
        []

mutual

def Command.pieces : Command → World → List Piece
  | .setClock time, _ => [.clock time]
  | .log entry message, world =>
      world.piecesLogged entry message.render fun start =>
        message.pieces start
  | .facadeLog record message, world =>
      world.piecesLogged record.entry (Facade.endLine message.render)
        fun start => message.pieces start
  | command, world => [.other (command.script.run world).accepted]

def Message.pieces : Message → World → List Piece
  | .literal _, _ => []
  | .rendered parts, world => Part.piecesAll parts world

def Part.pieces : Part → World → List Piece
  | .calls command, world => command.pieces world
  | .text _, _ | .fails, _ | .panics _, _ => []

/-- What happens while parts are rendered, up to the first that fails. -/
def Part.piecesAll : List Part → World → List Piece
  | [], _ => []
  | part :: parts, world =>
      part.pieces world ++
        (part.render.run world).pieces fun rendered after =>
          match rendered with
          | none => []
          | some _ => Part.piecesAll parts after

end

def World.pieces (world : World) : List Command → List Piece
  | [] => []
  | command :: commands =>
      command.pieces world ++
        (command.script.run world).world.pieces commands

/-! ### Scripts and their pieces -/

structure Script.HasPieces {α : Type} (script : Script α) (world : World)
    (pieces : List Piece) : Prop where
  accepted : (script.run world).accepted = pieces.flatMap Piece.accepted
  clock : ClockRuns world.clock pieces (script.run world).world.clock
  rests : ∀ piece ∈ pieces, piece.Rests

namespace Script.HasPieces

variable {α β : Type} {script : Script α} {world : World}
variable {pieces : List Piece}

theorem pure (value : α) (world : World) :
    (Pure.pure value : Script α).HasPieces world [] :=
  ⟨rfl, rfl, fun _ impossible => by cases impossible⟩

theorem panic (text : String) (world : World) :
    (Script.panic text : Script α).HasPieces world [] :=
  ⟨rfl, rfl, fun _ impossible => by cases impossible⟩

theorem map (has : script.HasPieces world pieces) (function : α → β) :
    (function <$> script).HasPieces world pieces := by
  obtain ⟨accepted, clock, rests⟩ := has
  refine ⟨?_, ?_, rests⟩
  · rw [run_map]
    exact accepted
  · rw [run_map]
    exact clock

theorem attempt (has : script.HasPieces world pieces) :
    script.attempt.HasPieces world pieces := by
  obtain ⟨accepted, clock, rests⟩ := has
  refine ⟨?_, ?_, rests⟩
  · rw [run_attempt]
    exact accepted
  · rw [run_attempt]
    exact clock

theorem bind (has : script.HasPieces world pieces)
    {continuation : α → Script β} {later : α → World → List Piece}
    (hasLater : ∀ value, (script.run world).ending = .returned value →
      (continuation value).HasPieces (script.run world).world
        (later value (script.run world).world)) :
    (script >>= continuation).HasPieces world
      (pieces ++ (script.run world).pieces later) := by
  obtain ⟨accepted, clock, rests⟩ := has
  have runs := run_bind script continuation world
  unfold Outcome.andThen at runs
  unfold Outcome.pieces
  cases ending : (script.run world).ending with
  | returned value =>
      rw [ending] at runs
      obtain ⟨acceptedLater, clockLater, restsLater⟩ :=
        hasLater value ending
      refine ⟨?_, ?_, ?_⟩
      · rw [runs, List.flatMap_append, ← accepted, ← acceptedLater]
        rfl
      · rw [runs]
        exact clock.append clockLater
      · intro piece member
        rcases List.mem_append.mp member with now | afterwards
        · exact rests piece now
        · exact restsLater piece afterwards
  | panicked | waiting =>
      rw [ending] at runs
      rw [List.append_nil]
      refine ⟨?_, ?_, rests⟩
      · rw [runs]
        exact accepted
      · rw [runs]
        exact clock

private theorem bindSilent (has : script.HasPieces world pieces)
    {continuation : α → Script β}
    (silent : ∀ value,
      (continuation value).HasPieces (script.run world).world []) :
    (script >>= continuation).HasPieces world pieces := by
  have both : (script >>= continuation).HasPieces world
      (pieces ++ (script.run world).pieces fun _ _ => []) :=
    has.bind fun value _ => silent value
  have none : (script.run world).pieces (fun _ _ => []) = [] := by
    unfold Outcome.pieces
    split <;> rfl
  rw [none, List.append_nil] at both
  exact both

end Script.HasPieces

namespace Logger

variable {world : World}

private theorem wouldLog_accepted (rest : world.AtRest) (level : Level)
    (moduleName : Option String) :
    ((wouldLog level moduleName).run world).accepted = [] := by
  have gated := run_gates (world.ready_atRest rest).configFree level
    moduleName
  rw [wouldLog_eq, Script.run_bind]
  rcases initOnce_ends rest with runs | ⟨text, runs⟩
  · rw [runs]
    exact congrArg Outcome.accepted gated
  · rw [runs]
    rfl

private theorem writeRendered_hasPieces (rest : world.AtRest) (entry : Entry)
    (rendered : Option String) :
    (writeRendered entry rendered).HasPieces world
      [.ofRendered world entry rendered] := by
  have clock := writeRendered_clock rest entry rendered
  refine ⟨?_, ?_, ?_⟩
  · rw [List.flatMap_singleton, Piece.accepted_ofRendered]
  · rw [clock]
    cases rendered with
    | none =>
        rfl
    | some text =>
        rw [Piece.ofRendered]
        split
        · rfl
        · exact ⟨rfl, rfl⟩
  · intro piece member
    rw [List.mem_singleton.mp member]
    cases rendered with
    | none =>
        trivial
    | some text =>
        rw [Piece.ofRendered]
        split
        · trivial
        · exact rest

private theorem log_hasPieces (reachable : world.Reachable) (entry : Entry)
    {render : Script (Option String)} {inner : World → List Piece}
    (rests : ∀ {start : World}, start.Reachable →
      (render.run start).world.AtRest)
    (renders : ∀ {start : World}, start.Reachable →
      render.HasPieces start (inner start)) :
    (log entry render).HasPieces world
      (world.piecesLogged entry render inner) := by
  have rest := reachable.atRest
  have asks : (wouldLog entry.level entry.moduleName).HasPieces world [] := by
    refine ⟨wouldLog_accepted rest _ _, ?_,
      fun _ impossible => by cases impossible⟩
    · rw [wouldLog_world rest]
      exact (world.ready_periphery rest).clock
  rw [log, World.piecesLogged, ← List.nil_append (Outcome.pieces _ _)]
  apply asks.bind
  intro passes _
  rw [wouldLog_world rest]
  have start := reachable.initOnce
  cases passes with
  | false =>
      exact .pure () _
  | true =>
      exact (renders start).bind fun rendered _ =>
        writeRendered_hasPieces (rests start) entry rendered

end Logger

namespace Command

private theorem stored_clock {command : Command}
    (other : ∀ time, command ≠ .setClock time) (world : World) :
    (command.stored world).clock = world.clock := by
  cases command with
  | setClock time =>
      exact absurd rfl (other time)
  | setPrefix text =>
      exact congrArg Surroundings.clock (world.set_surroundings _ _)
  | _ =>
      rfl

private theorem rest_clock {command : Command} (plain : command.logs = false)
    (other : ∀ time, command ≠ .setClock time) {world : World}
    (free : world.configLock.holder = none) :
    (command.rest.run world).world.clock = world.clock := by
  obtain ⟨value, runs⟩ := run_rest plain free
  have freeStored : (command.stored world).configLock.holder = none := by
    rw [(command.stored_frame world).1]
    exact free
  have sent : (command.stored world).ChangedBySinks
      ((Logger.writeAll (world.get .destination) (command.sent world)).run
        (command.stored world)).world :=
    Logger.writeAll_changed freeStored (command.sent_nonempty world)
  rw [runs]
  exact sent.clock.trans (stored_clock other world)

private theorem clock_of_plain {command : Command}
    (plain : command.logs = false)
    (other : ∀ time, command ≠ .setClock time) {world : World}
    (rest : world.AtRest) :
    (command.script.run world).world.clock = world.clock := by
  have played := (command.role.script_periphery rest).clock
  have restAfter := (command.role.played rest).atRest rest
  rw [script_eq, Script.run_bind]
  unfold Outcome.andThen
  cases (command.role.script.run world).ending with
  | panicked | waiting =>
      exact played
  | returned =>
      exact (rest_clock plain other restAfter.configFree).trans played

private theorem hasPieces_of_plain {command : Command}
    (plain : command.logs = false)
    (other : ∀ time, command ≠ .setClock time) {world : World}
    (rest : world.AtRest) :
    command.script.HasPieces world
      [.other (command.script.run world).accepted] := by
  refine ⟨(List.append_nil _).symm, clock_of_plain plain other rest, ?_⟩
  intro piece member
  rw [List.mem_singleton.mp member]
  trivial

end Command

/-! ### Calls and their pieces -/

mutual

theorem Command.hasPieces (command : Command) {world : World}
    (reachable : world.Reachable) :
    command.script.HasPieces world (command.pieces world) := by
  cases command with
  | log entry message =>
      rw [Command.script, Command.pieces]
      refine .map (Logger.log_hasPieces reachable entry ?_ ?_) _
      · intro start startReachable
        exact (startReachable.message message).atRest
      · intro start startReachable
        exact Message.hasPieces message startReachable
  | facadeLog record message =>
      rw [Command.script, Command.pieces]
      refine .map (Logger.log_hasPieces reachable record.entry ?_ ?_) _
      · intro start startReachable
        rw [Facade.endLine, ← map_eq_pure_bind, Script.run_map]
        exact (startReachable.message message).atRest
      · intro start startReachable
        exact (Message.hasPieces message startReachable).bindSilent
          fun _ => .pure _ _
  | setClock time =>
      refine ⟨rfl, rfl, ?_⟩
      intro piece member
      rw [List.mem_singleton.mp member]
      trivial
  | _ =>
      refine Command.hasPieces_of_plain rfl ?_ reachable.atRest
      intro time impossible
      cases impossible

theorem Message.hasPieces :
    (message : Message) → {world : World} → world.Reachable →
      message.render.HasPieces world (message.pieces world)
  | .literal _, world, _ => by
      rw [Message.render, Message.pieces]
      exact .pure _ world
  | .rendered parts, world, reachable => by
      rw [Message.render, Message.pieces]
      refine (Part.hasPieces_all parts reachable).attempt.bindSilent ?_
      intro result
      cases result with
      | ok | error =>
          exact .pure _ _

theorem Part.hasPieces :
    (part : Part) → {world : World} → world.Reachable →
      part.render.HasPieces world (part.pieces world)
  | .text _, world, _ => by
      rw [Part.render, Part.pieces]
      exact .pure _ world
  | .fails, world, _ => by
      rw [Part.render, Part.pieces]
      exact .pure _ world
  | .panics text, world, _ => by
      rw [Part.render, Part.pieces]
      exact .panic text world
  | .calls command, _, reachable => by
      rw [Part.render, Part.pieces]
      exact (Command.hasPieces command reachable).bindSilent
        fun _ => .pure _ _

theorem Part.hasPieces_all :
    (parts : List Part) → {world : World} → world.Reachable →
      (Part.renderAll parts).HasPieces world (Part.piecesAll parts world)
  | [], world, _ => by
      rw [Part.renderAll, Part.piecesAll]
      exact .pure _ world
  | part :: parts, _, reachable => by
      rw [Part.renderAll, Part.piecesAll]
      apply (Part.hasPieces part reachable).bind
      intro rendered _
      cases rendered with
      | none =>
          exact .pure _ _
      | some first =>
          exact (Part.hasPieces_all parts
            (reachable.part part)).bindSilent fun _ => .pure _ _

end

/-! ### Runs and their pieces -/

namespace World.Reachable

variable {world : World}

/-- All that is accepted during a run comes from its pieces, which tell what
the clock shows. -/
theorem hasPieces (reachable : world.Reachable) (commands : List Command) :
    world.acceptedAll commands =
        (world.pieces commands).flatMap Piece.accepted ∧
      ClockRuns world.clock (world.pieces commands)
        (world.afterAll commands).clock ∧
      ∀ piece ∈ world.pieces commands, piece.Rests := by
  induction commands generalizing world with
  | nil =>
      exact ⟨rfl, rfl, fun _ impossible => by cases impossible⟩
  | cons command commands inductionHypothesis =>
      obtain ⟨accepted, clock, rests⟩ := command.hasPieces reachable
      obtain ⟨acceptedLater, clockLater, restsLater⟩ :=
        inductionHypothesis (reachable.call command)
      refine ⟨?_, clock.append clockLater, ?_⟩
      · rw [World.acceptedAll, World.pieces, List.flatMap_append, accepted,
          acceptedLater]
      · intro piece member
        rcases List.mem_append.mp member with now | later
        · exact rests piece now
        · exact restsLater piece later

end World.Reachable

end LeveledLog
