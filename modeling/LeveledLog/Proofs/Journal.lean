/-
The journal of a sequence of calls.

Calls made one after the other, and the calls that messages make while they
are rendered, are listed in the order in which they begin, each with the
logger as it finds it.  An invariant of loggers and of the calls made so far
that every role keeps, and that the rest of a logger has no part in, holds
whenever one of these calls begins and when the last one has ended.  No call
waits.
-/

import LeveledLog.Proofs.Roles

namespace LeveledLog

structure Call where
  command : Command
  world : World

namespace Call

def outcome (call : Call) : Outcome Value :=
  call.command.script.run call.world

def role (call : Call) : Role :=
  call.command.role

end Call

def Outcome.onward {α : Type} (outcome : Outcome α)
    (calls : α → World → List Call) : List Call :=
  match outcome.ending with
  | .returned value => calls value outcome.world
  | .panicked _ | .waiting => []

def Command.callsWith (command : Command) (inner : World → List Call)
    (world : World) : List Call :=
  { command := command, world := world } ::
    (command.role.script.run world).onward fun _ after => inner after

mutual

/-- The calls that a command makes after playing its role: those of its
message, if the message passes. -/
def Command.inner : Command → World → List Call
  | .log entry message, world =>
      ((Logger.gates entry.level entry.moduleName).run world).onward
        fun passes after => if passes then message.inner after else []
  | .facadeLog record message, world =>
      ((Logger.gates record.entry.level record.entry.moduleName).run
        world).onward
        fun passes after => if passes then message.inner after else []
  | _, _ => []

def Message.inner : Message → World → List Call
  | .literal _, _ => []
  | .rendered parts, world => Part.innerAll parts world

def Part.inner : Part → World → List Call
  | .calls command, world => command.callsWith command.inner world
  | .text _, _ | .fails, _ | .panics _, _ => []

/-- The calls that parts make, up to the first that fails. -/
def Part.innerAll : List Part → World → List Call
  | [], _ => []
  | part :: parts, world =>
      part.inner world ++
        (part.render.run world).onward fun rendered after =>
          match rendered with
          | none => []
          | some _ => Part.innerAll parts after

end

def Command.calls (command : Command) (world : World) : List Call :=
  command.callsWith command.inner world

def journal (world : World) : List Command → List Call
  | [] => []
  | command :: commands =>
      command.calls world ++ journal (command.script.run world).world commands

/-- The logger after a sequence of commands; a command that panics does not
keep the later ones from being made. -/
def World.afterAll (world : World) (commands : List Command) : World :=
  commands.foldl (fun current command => (command.script.run current).world)
    world

/-! ### Assertions along a list of calls -/

section Along

variable {assertion : List Call → World → Prop}
variable {earlier first second : List Call} {between final : World}

/-- An assertion about the calls made so far and the logger holds whenever one
of the listed calls begins, and at the end. -/
def Along (assertion : List Call → World → Prop) (earlier : List Call) :
    List Call → World → Prop
  | [], final => assertion earlier final
  | call :: calls, final =>
      assertion earlier call.world ∧
        Along assertion (earlier ++ [call]) calls final

private theorem Along.append (before : Along assertion earlier first between)
    (after : Along assertion (earlier ++ first) second final) :
    Along assertion earlier (first ++ second) final := by
  induction first generalizing earlier with
  | nil =>
      simpa using after
  | cons call calls inductionHypothesis =>
      refine ⟨before.1, inductionHypothesis before.2 ?_⟩
      simpa using after

theorem Along.at_end (along : Along assertion earlier first final) :
    assertion (earlier ++ first) final := by
  induction first generalizing earlier with
  | nil =>
      simpa [Along] using along
  | cons call calls inductionHypothesis =>
      simpa using inductionHypothesis along.2

private theorem Along.at_call {before after : List Call} {call : Call}
    (along : Along assertion earlier (before ++ call :: after) final) :
    assertion (earlier ++ before) call.world := by
  induction before generalizing earlier with
  | nil =>
      simpa using along.1
  | cons first calls inductionHypothesis =>
      simpa using inductionHypothesis along.2

end Along

/-! ### Invariants -/

/-- An invariant of the calls made so far and the core of the logger, which
every role keeps. -/
structure Invariant (invariant : List Call → World → Prop) : Prop where
  frame : ∀ {calls before after}, before.SameCore after →
    invariant calls before → invariant calls after
  plays : ∀ {calls} (call : Call) {outcome}, call.world.AtRest →
    invariant calls call.world → call.role.script.run call.world = outcome →
    call.role.Played call.world outcome →
    invariant (calls ++ [call]) outcome.world

structure Steady (invariant : List Call → World → Prop) (calls : List Call)
    (world : World) : Prop where
  rest : world.AtRest
  holds : invariant calls world

structure RunsAlong {α : Type} (invariant : List Call → World → Prop)
    (earlier calls : List Call) (script : Script α) (world : World) :
    Prop where
  along : Along (Steady invariant) earlier calls (script.run world).world
  ends : (script.run world).ending ≠ .waiting

namespace RunsAlong

variable {α β : Type} {invariant : List Call → World → Prop}
variable {earlier calls : List Call} {script : Script α} {world : World}

private theorem peripheral (valid : Invariant invariant)
    (steady : Steady invariant earlier world)
    (peripheral : script.Peripheral false) :
    RunsAlong invariant earlier [] script world := by
  obtain ⟨rest, core, ends⟩ := peripheral.run steady.rest
  exact ⟨⟨rest, valid.frame core steady.holds⟩, ends⟩

theorem bind (first : RunsAlong invariant earlier calls script world)
    {continuation : α → Script β} {later : α → World → List Call}
    (second : ∀ value after, Steady invariant (earlier ++ calls) after →
      RunsAlong invariant (earlier ++ calls) (later value after)
        (continuation value) after) :
    RunsAlong invariant earlier (calls ++ (script.run world).onward later)
      (script >>= continuation) world := by
  obtain ⟨along, ends⟩ := first
  have steady := along.at_end
  have runs := Script.run_bind script continuation world
  unfold Outcome.andThen at runs
  unfold Outcome.onward
  cases ending : (script.run world).ending with
  | returned value =>
      simp only [ending] at runs
      obtain ⟨onward, endsToo⟩ := second value _ steady
      constructor
      · rw [runs]
        exact along.append onward
      · rw [runs]
        exact endsToo
  | panicked text =>
      simp only [ending] at runs
      constructor
      · rw [runs, List.append_nil]
        exact along
      · rw [runs]
        intro impossible
        cases impossible
  | waiting =>
      exact absurd ending ends

theorem bindPeripheral (valid : Invariant invariant)
    (first : RunsAlong invariant earlier calls script world)
    {continuation : α → Script β}
    (second : ∀ value, (continuation value).Peripheral false) :
    RunsAlong invariant earlier calls (script >>= continuation) world := by
  have both : RunsAlong invariant earlier
      (calls ++ (script.run world).onward fun _ _ => [])
      (script >>= continuation) world :=
    first.bind fun value after steady =>
      peripheral valid steady (second value)
  have none : (script.run world).onward (fun _ _ => []) = [] := by
    unfold Outcome.onward
    split <;> rfl
  rw [none, List.append_nil] at both
  exact both

theorem map (function : α → β)
    (runs : RunsAlong invariant earlier calls script world) :
    RunsAlong invariant earlier calls (function <$> script) world := by
  obtain ⟨along, ends⟩ := runs
  constructor
  · rw [Script.run_map]
    exact along
  · rw [Script.run_map]
    unfold Outcome.map
    cases ending : (script.run world).ending with
    | returned | panicked =>
        intro impossible
        cases impossible
    | waiting =>
        exact absurd ending ends

theorem attempt (runs : RunsAlong invariant earlier calls script world) :
    RunsAlong invariant earlier calls script.attempt world := by
  obtain ⟨along, ends⟩ := runs
  constructor
  · rw [Script.run_attempt]
    exact along
  · rw [Script.run_attempt]
    unfold Outcome.caught
    cases ending : (script.run world).ending with
    | returned | panicked =>
        intro impossible
        cases impossible
    | waiting =>
        exact absurd ending ends

end RunsAlong

namespace Invariant

variable {invariant : List Call → World → Prop} {earlier : List Call}
variable {world : World}

private theorem logPassing (valid : Invariant invariant)
    {render : Script (Option String)} {calls : World → List Call}
    (renders : ∀ {after}, Steady invariant earlier after →
      RunsAlong invariant earlier (calls after) render after)
    (steady : Steady invariant earlier world) (entry : Entry) :
    RunsAlong invariant earlier
      (((Logger.gates entry.level entry.moduleName).run world).onward
        fun passes after => if passes then calls after else [])
      (Logger.logPassing entry render) world := by
  have gated : RunsAlong invariant earlier []
      (Logger.gates entry.level entry.moduleName) world :=
    .peripheral valid steady (Logger.gates_peripheral _ _)
  rw [Logger.logPassing, ← List.nil_append (Outcome.onward _ _)]
  apply gated.bind
  intro passes after steadyAfter
  rw [List.append_nil] at steadyAfter ⊢
  cases passes with
  | false =>
      exact .peripheral valid steadyAfter (.value ())
  | true =>
      exact (renders steadyAfter).bindPeripheral valid
        fun rendered => Logger.writeRendered_peripheral entry rendered

private theorem callsWith (valid : Invariant invariant) {command : Command}
    {inner : World → List Call}
    (goesOn : ∀ {calls after}, Steady invariant calls after →
      RunsAlong invariant calls (inner after) command.rest after)
    (steady : Steady invariant earlier world) :
    RunsAlong invariant earlier (command.callsWith inner world)
      command.script world := by
  obtain ⟨rest, holds⟩ := steady
  have played := command.role.played rest
  have plays : RunsAlong invariant
      (earlier ++ [{ command := command, world := world }]) []
      command.role.script world := by
    refine ⟨⟨played.atRest rest, ?_⟩, ?_⟩
    · exact valid.plays { command := command, world := world } rest holds rfl
        played
    · generalize command.role.script.run world = outcome at played
      cases played with
      | outside | settled | applied | failed =>
          intro impossible
          cases impossible
  have both := plays.bind fun _ after steadyAfter => by
    rw [List.append_nil] at steadyAfter ⊢
    exact goesOn steadyAfter
  rw [← Command.script_eq] at both
  exact ⟨⟨⟨rest, holds⟩, both.along⟩, both.ends⟩

end Invariant

mutual

theorem Command.rest_along {invariant : List Call → World → Prop}
    (valid : Invariant invariant) (command : Command) {earlier : List Call}
    {world : World} (steady : Steady invariant earlier world) :
    RunsAlong invariant earlier (command.inner world) command.rest world := by
  cases command with
  | log entry message =>
      rw [Command.inner]
      exact .map _ (valid.logPassing (Message.along valid message) steady
        entry)
  | facadeLog record message =>
      rw [Command.inner]
      refine .map _ (valid.logPassing ?_ steady record.entry)
      intro after steadyAfter
      exact (Message.along valid message steadyAfter).bindPeripheral valid
        fun _ => .value _
  | _ =>
      exact .peripheral valid steady (Command.rest_peripheral rfl)

theorem Message.along {invariant : List Call → World → Prop}
    (valid : Invariant invariant) :
    (message : Message) → {earlier : List Call} → {world : World} →
      Steady invariant earlier world →
      RunsAlong invariant earlier (message.inner world) message.render world
  | .literal _, _, _, steady => by
      rw [Message.inner]
      exact .peripheral valid steady (.value _)
  | .rendered parts, _, _, steady => by
      rw [Message.inner, Message.render]
      refine (Part.along_all valid parts steady).attempt.bindPeripheral valid
        ?_
      intro result
      cases result with
      | ok | error =>
          exact .value _

theorem Part.along {invariant : List Call → World → Prop}
    (valid : Invariant invariant) :
    (part : Part) → {earlier : List Call} → {world : World} →
      Steady invariant earlier world →
      RunsAlong invariant earlier (part.inner world) part.render world
  | .text _, _, _, steady => by
      rw [Part.inner]
      exact .peripheral valid steady (.value _)
  | .fails, _, _, steady => by
      rw [Part.inner]
      exact .peripheral valid steady (.value _)
  | .panics _, _, _, steady => by
      rw [Part.inner]
      exact .peripheral valid steady (.panic _)
  | .calls command, _, _, steady => by
      rw [Part.inner, Part.render]
      refine RunsAlong.bindPeripheral valid ?_ fun _ => .value _
      exact valid.callsWith (Command.rest_along valid command) steady

theorem Part.along_all {invariant : List Call → World → Prop}
    (valid : Invariant invariant) :
    (parts : List Part) → {earlier : List Call} → {world : World} →
      Steady invariant earlier world →
      RunsAlong invariant earlier (Part.innerAll parts world)
        (Part.renderAll parts) world
  | [], _, _, steady => by
      rw [Part.innerAll]
      exact .peripheral valid steady (.value _)
  | part :: parts, _, _, steady => by
      rw [Part.innerAll, Part.renderAll]
      apply (Part.along valid part steady).bind
      intro rendered after steadyAfter
      cases rendered with
      | none =>
          exact .peripheral valid steadyAfter (.value none)
      | some first =>
          exact (Part.along_all valid parts steadyAfter).bindPeripheral valid
            fun _ => .value _

end

namespace Invariant

variable {invariant : List Call → World → Prop} {earlier : List Call}
variable {world : World}

theorem runs (valid : Invariant invariant) (command : Command)
    (steady : Steady invariant earlier world) :
    RunsAlong invariant earlier (command.calls world) command.script world :=
  valid.callsWith (Command.rest_along valid command) steady

private theorem along_journal (valid : Invariant invariant)
    (commands : List Command) (steady : Steady invariant earlier world) :
    Along (Steady invariant) earlier (journal world commands)
      (world.afterAll commands) := by
  induction commands generalizing earlier world with
  | nil =>
      exact steady
  | cons command commands inductionHypothesis =>
      have first := (valid.runs command steady).along
      exact first.append (inductionHypothesis first.at_end)

theorem at_call (valid : Invariant invariant) {commands : List Command}
    (steady : Steady invariant [] world) {before after : List Call}
    {call : Call}
    (made : journal world commands = before ++ call :: after) :
    Steady invariant before call.world := by
  have along := valid.along_journal commands steady
  rw [made] at along
  exact along.at_call

theorem at_end (valid : Invariant invariant) (commands : List Command)
    (steady : Steady invariant [] world) :
    Steady invariant (journal world commands) (world.afterAll commands) :=
  (valid.along_journal commands steady).at_end

end Invariant

/-- The moments of a run: a call begins, or the run has ended.  Each has the
calls begun before it. -/
inductive Moment (start : World) (commands : List Command) :
    List Call → World → Prop
  | begins {before after : List Call} {call : Call}
      (made : journal start commands = before ++ call :: after) :
      Moment start commands before call.world
  | ends :
      Moment start commands (journal start commands) (start.afterAll commands)

theorem Invariant.at_moment {invariant : List Call → World → Prop}
    (valid : Invariant invariant) {start world : World}
    {commands : List Command} {calls : List Call}
    (steady : Steady invariant [] start)
    (moment : Moment start commands calls world) :
    Steady invariant calls world := by
  cases moment with
  | begins made =>
      exact valid.at_call steady made
  | ends =>
      exact valid.at_end commands steady

/-! ### The outcome of a call, from that of its role -/

namespace Call

variable {call : Call} {after : World} {text : String}

theorem outcome_of_returned
    (runs : call.role.script.run call.world =
      { ending := .returned (), world := after, accepted := [] }) :
    call.outcome = call.command.rest.run after := by
  unfold outcome
  rw [Command.script_eq, Script.run_bind]
  change (call.role.script.run call.world).andThen _ = _
  rw [runs]
  rfl

theorem outcome_of_panicked
    (runs : call.role.script.run call.world =
      { ending := .panicked text, world := after, accepted := [] }) :
    call.outcome =
      { ending := .panicked text, world := after, accepted := [] } := by
  unfold outcome
  rw [Command.script_eq, Script.run_bind]
  change (call.role.script.run call.world).andThen _ = _
  rw [runs]
  rfl

theorem calls_of_panicked
    (runs : call.role.script.run call.world =
      { ending := .panicked text, world := after, accepted := [] }) :
    call.command.calls call.world = [call] := by
  unfold Command.calls Command.callsWith
  change call :: (call.role.script.run call.world).onward _ = _
  rw [runs]
  rfl

end Call

end LeveledLog
