/-
The line prefix along every run.

A run sets the line prefix by its calls, by the calls that messages make, and
by the changes that sinks make while they are called.  The line prefix that a
logger has is cut from the last of the texts that it has been set to.
-/

import LeveledLog.Proofs.Effects
import LeveledLog.Proofs.Logging

namespace LeveledLog

/-! ### Setting the prefix time and again -/

def prefixAfter (start : LinePrefix) (texts : List String) : LinePrefix :=
  texts.foldl (fun _ text => InlineText.truncating text) start

private theorem prefixAfter_append (start : LinePrefix)
    (earlier later : List String) :
    prefixAfter start (earlier ++ later) =
      prefixAfter (prefixAfter start earlier) later :=
  List.foldl_append

private theorem prefixAfter_cons (start : LinePrefix) (text : String)
    (texts : List String) :
    prefixAfter start (text :: texts) =
      prefixAfter (InlineText.truncating text) texts := by
  unfold prefixAfter
  rw [List.foldl_cons]

theorem prefixAfter_eq (first : String) (texts : List String) :
    prefixAfter (InlineText.truncating first) texts =
      InlineText.truncating (texts.getLast?.getD first) := by
  induction texts generalizing first with
  | nil =>
      rfl
  | cons text texts inductionHypothesis =>
      rw [prefixAfter_cons, inductionHypothesis, List.getLast?_cons,
        Option.getD_some]

def Change.prefixText? : Change → Option String
  | .linePrefix text => some text
  | .destination _ | .colorMode _ | .rearm _ _ => none

private theorem Settings.changeAll_linePrefix (settings : Settings)
    (changes : List Change) :
    (settings.changeAll changes).get .linePrefix =
      prefixAfter (settings.get .linePrefix)
        (changes.filterMap Change.prefixText?) := by
  induction changes generalizing settings with
  | nil =>
      rfl
  | cons change changes inductionHypothesis =>
      rw [Settings.changeAll, List.foldl_cons, ← Settings.changeAll,
        inductionHypothesis, List.filterMap_cons]
      cases change with
      | linePrefix text =>
          simp only [Change.prefixText?, prefixAfter_cons, Settings.change,
            Settings.get_set_same]
      | destination | colorMode | rearm =>
          rfl

def World.prefixTextsSent (world : World) (writes : List Bytes) :
    List String :=
  (world.changesMade (world.get .destination) writes.length).filterMap
    Change.prefixText?

/-! ### The texts of a call -/

def Outcome.prefixTexts {α : Type} (outcome : Outcome α)
    (later : α → World → List String) : List String :=
  match outcome.ending with
  | .returned value => later value outcome.world
  | .panicked _ | .waiting => []

/-- The texts that a call to log sets the prefix to: what its message sets,
and what the destination sets while it is called. -/
def World.prefixTextsLogged (world : World) (entry : Entry)
    (render : Script (Option String)) (inner : World → List String) :
    List String :=
  ((Logger.wouldLog entry.level entry.moduleName).run world).prefixTexts
    fun passes start =>
      if passes then
        inner start ++ (render.run start).prefixTexts fun rendered during =>
          during.prefixTextsSent (during.renderedWrites entry rendered)
      else
        []

mutual

def Command.prefixTexts : Command → World → List String
  | .setPrefix text, _ => [text]
  | .log entry message, world =>
      world.prefixTextsLogged entry message.render fun start =>
        message.prefixTexts start
  | .facadeLog record message, world =>
      world.prefixTextsLogged record.entry (Facade.endLine message.render)
        fun start => message.prefixTexts start
  | command, world => world.prefixTextsSent (command.sent world)

def Message.prefixTexts : Message → World → List String
  | .literal _, _ => []
  | .rendered parts, world => Part.prefixTextsAll parts world

def Part.prefixTexts : Part → World → List String
  | .calls command, world => command.prefixTexts world
  | .text _, _ | .fails, _ | .panics _, _ => []

/-- The texts that parts set the prefix to, up to the first that fails. -/
def Part.prefixTextsAll : List Part → World → List String
  | [], _ => []
  | part :: parts, world =>
      part.prefixTexts world ++
        (part.render.run world).prefixTexts fun rendered after =>
          match rendered with
          | none => []
          | some _ => Part.prefixTextsAll parts after

end

def World.prefixTexts (world : World) : List Command → List String
  | [] => []
  | command :: commands =>
      command.prefixTexts world ++
        (command.script.run world).world.prefixTexts commands

/-! ### The prefix after a script -/

def Script.SetsPrefix {α : Type} (script : Script α) (world : World)
    (texts : List String) : Prop :=
  (script.run world).world.get .linePrefix =
    prefixAfter (world.get .linePrefix) texts

namespace Script.SetsPrefix

variable {α β : Type} {script : Script α} {world : World}
variable {texts : List String}

theorem pure (value : α) (world : World) :
    (Pure.pure value : Script α).SetsPrefix world [] := rfl

theorem map (sets : script.SetsPrefix world texts) (function : α → β) :
    (function <$> script).SetsPrefix world texts := by
  unfold SetsPrefix
  rw [run_map]
  exact sets

theorem attempt (sets : script.SetsPrefix world texts) :
    script.attempt.SetsPrefix world texts := by
  unfold SetsPrefix
  rw [run_attempt]
  exact sets

theorem bind (sets : script.SetsPrefix world texts)
    {continuation : α → Script β} {later : α → World → List String}
    (setsLater : ∀ value, (script.run world).ending = .returned value →
      (continuation value).SetsPrefix (script.run world).world
        (later value (script.run world).world)) :
    (script >>= continuation).SetsPrefix world
      (texts ++ (script.run world).prefixTexts later) := by
  unfold SetsPrefix at sets setsLater ⊢
  rw [run_bind, prefixAfter_append, ← sets]
  unfold Outcome.andThen Outcome.prefixTexts
  cases ending : (script.run world).ending with
  | returned value =>
      exact setsLater value ending
  | panicked | waiting =>
      rfl

/-- What follows may leave the prefix alone. -/
private theorem bindSilent (sets : script.SetsPrefix world texts)
    {continuation : α → Script β}
    (silent : ∀ value,
      (continuation value).SetsPrefix (script.run world).world []) :
    (script >>= continuation).SetsPrefix world texts := by
  have both : (script >>= continuation).SetsPrefix world
      (texts ++ (script.run world).prefixTexts fun _ _ => []) :=
    sets.bind fun value _ => silent value
  have none : (script.run world).prefixTexts (fun _ _ => []) = [] := by
    unfold Outcome.prefixTexts
    split <;> rfl
  rw [none, List.append_nil] at both
  exact both

end Script.SetsPrefix

namespace Logger

variable {world : World}

private theorem writeRendered_setsPrefix (rest : world.AtRest) (entry : Entry)
    (rendered : Option String) :
    (writeRendered entry rendered).SetsPrefix world
      (world.prefixTextsSent (world.renderedWrites entry rendered)) := by
  unfold Script.SetsPrefix World.prefixTextsSent
  have settings : ((writeRendered entry rendered).run world).world.settings =
      world.settings.changeAll
        (world.changesMade (world.get .destination)
          (world.renderedWrites entry rendered).length) := by
    cases rendered with
    | none =>
        have nonempty := world.renderedWrites_nonempty entry none
        rw [writeRendered, writeText, run_writeRaw]
        exact writeAll_settings rest.configFree nonempty
    | some text =>
        by_cases empty : text = ""
        · rw [writeRendered, World.renderedWrites, if_pos empty,
            if_pos empty]
          rfl
        · rw [writeRendered, World.renderedWrites, if_neg empty,
            if_neg empty]
          exact writeLine_settings rest entry text
  change ((writeRendered entry rendered).run world).world.settings.get _ = _
  rw [settings]
  exact Settings.changeAll_linePrefix _ _

private theorem log_setsPrefix (reachable : world.Reachable) (entry : Entry)
    {render : Script (Option String)} {inner : World → List String}
    (rests : ∀ {start : World}, start.Reachable →
      (render.run start).world.AtRest)
    (renders : ∀ {start : World}, start.Reachable →
      render.SetsPrefix start (inner start)) :
    (log entry render).SetsPrefix world
      (world.prefixTextsLogged entry render inner) := by
  have rest := reachable.atRest
  have asks : (wouldLog entry.level entry.moduleName).SetsPrefix world
      [] := by
    unfold Script.SetsPrefix
    rw [wouldLog_world rest]
    exact (world.ready_periphery rest).cells .linePrefix rfl
  rw [log, World.prefixTextsLogged, ← List.nil_append (Outcome.prefixTexts _ _)]
  apply asks.bind
  intro passes _
  rw [wouldLog_world rest]
  have start := reachable.initOnce
  cases passes with
  | false =>
      exact .pure () _
  | true =>
      exact (renders start).bind fun rendered _ =>
        writeRendered_setsPrefix (rests start) entry rendered

end Logger

/-! ### The prefix after a call -/

private theorem Role.script_setsPrefix (role : Role) {world : World}
    (rest : world.AtRest) : role.script.SetsPrefix world [] := by
  have claimed : (role.claim world).get .linePrefix =
      world.get .linePrefix :=
    role.claim_get world (fun same => by cases same)
      (fun same => by cases same)
  have effect (after : World) :
      (role.effect after).get .linePrefix = after.get .linePrefix := by
    cases role <;> rfl
  have attempted {outcome : Outcome Unit}
      (attempt : (role.claim world).Attempt outcome) :
      outcome.world.get .linePrefix = world.get .linePrefix :=
    (attempt.others .linePrefix (fun same => by cases same)
      (fun same => by cases same) (fun same => by cases same)).trans claimed
  have played := role.played rest
  unfold Script.SetsPrefix
  generalize role.script.run world = outcome at played
  cases played with
  | outside =>
      rfl
  | settled =>
      exact (effect _).trans claimed
  | applied _ _ attempt =>
      exact (effect _).trans (attempted attempt)
  | failed _ _ attempt =>
      have kept := attempted attempt
      exact kept

namespace Command

private theorem stored_linePrefix {command : Command}
    (other : ∀ text, command ≠ .setPrefix text) (world : World) :
    (command.stored world).get .linePrefix = world.get .linePrefix := by
  cases command with
  | setPrefix text =>
      exact absurd rfl (other text)
  | _ =>
      rfl

private theorem sent_or_stored (command : Command) (world : World) :
    command.sent world = [] ∨ command.stored world = world := by
  cases command with
  | writeRaw | writeText | writeDecimal | writeHexadecimal
  | writeHeading =>
      exact .inr rfl
  | _ =>
      exact .inl rfl

private theorem rest_setsPrefix {command : Command}
    (plain : command.logs = false)
    (other : ∀ text, command ≠ .setPrefix text) {world : World}
    (free : world.configLock.holder = none) :
    command.rest.SetsPrefix world
      (world.prefixTextsSent (command.sent world)) := by
  obtain ⟨value, runs⟩ := run_rest plain free
  unfold Script.SetsPrefix
  rw [runs]
  rcases command.sent_or_stored world with none | same
  · rw [none]
    exact stored_linePrefix other world
  · rw [same]
    have settings : ((Logger.writeAll (world.get .destination)
        (command.sent world)).run world).world.settings = _ :=
      Logger.writeAll_settings free (command.sent_nonempty world)
    refine (congrArg (fun settings => settings.get .linePrefix)
      settings).trans ?_
    exact Settings.changeAll_linePrefix _ _

/-- A command that plays a role writes nothing but what a message needs. -/
private theorem sent_of_initialising {command : Command}
    (initialising : command.role.initialising = true) (world : World) :
    command.sent world = [] := by
  cases command with
  | writeRaw | writeText | writeDecimal | writeHexadecimal
  | writeHeading =>
      cases initialising
  | _ =>
      rfl

private theorem setsPrefix_of_plain {command : Command}
    (plain : command.logs = false)
    (other : ∀ text, command ≠ .setPrefix text) {world : World}
    (rest : world.AtRest) :
    command.script.SetsPrefix world
      (world.prefixTextsSent (command.sent world)) := by
  cases initialising : command.role.initialising with
  | true =>
      have after := (command.role.played rest).atRest rest
      rw [script_eq, sent_of_initialising initialising]
      refine (command.role.script_setsPrefix rest).bindSilent ?_
      intro _
      have silent := rest_setsPrefix plain other after.configFree
      rw [sent_of_initialising initialising] at silent
      exact silent
  | false =>
      have peripheral : command.role = .peripheral := by
        cases role : command.role with
        | peripheral =>
            rfl
        | initialises | setsLevel | changesModules =>
            rw [role] at initialising
            cases initialising
      rw [script_eq, peripheral]
      exact rest_setsPrefix plain other rest.configFree

end Command

mutual

theorem Command.setsPrefix (command : Command) {world : World}
    (reachable : world.Reachable) :
    command.script.SetsPrefix world (command.prefixTexts world) := by
  cases command with
  | log entry message =>
      rw [Command.script, Command.prefixTexts]
      refine .map (Logger.log_setsPrefix reachable entry ?_ ?_) _
      · intro start startReachable
        exact (startReachable.message message).atRest
      · intro start startReachable
        exact Message.setsPrefix message startReachable
  | facadeLog record message =>
      rw [Command.script, Command.prefixTexts]
      refine .map (Logger.log_setsPrefix reachable record.entry ?_ ?_) _
      · intro start startReachable
        rw [Facade.endLine, ← map_eq_pure_bind, Script.run_map]
        exact (startReachable.message message).atRest
      · intro start startReachable
        exact (Message.setsPrefix message startReachable).bindSilent
          fun _ => .pure _ _
  | setPrefix text =>
      rw [Command.script, Command.prefixTexts]
      refine .map ?_ _
      unfold Script.SetsPrefix
      rw [Logger.run_setPrefix reachable.atRest.configFree]
      exact World.get_set_same _ _ _
  | _ =>
      refine Command.setsPrefix_of_plain rfl ?_ reachable.atRest
      intro text impossible
      cases impossible

theorem Message.setsPrefix :
    (message : Message) → {world : World} → world.Reachable →
      message.render.SetsPrefix world (message.prefixTexts world)
  | .literal _, world, _ => by
      rw [Message.render, Message.prefixTexts]
      exact .pure _ world
  | .rendered parts, world, reachable => by
      rw [Message.render, Message.prefixTexts]
      refine (Part.setsPrefix_all parts reachable).attempt.bindSilent ?_
      intro result
      cases result with
      | ok | error =>
          exact .pure _ _

theorem Part.setsPrefix :
    (part : Part) → {world : World} → world.Reachable →
      part.render.SetsPrefix world (part.prefixTexts world)
  | .text _, world, _ => by
      rw [Part.render, Part.prefixTexts]
      exact .pure _ world
  | .fails, world, _ => by
      rw [Part.render, Part.prefixTexts]
      exact .pure _ world
  | .panics _, _, _ => by
      rw [Part.render, Part.prefixTexts]
      rfl
  | .calls command, _, reachable => by
      rw [Part.render, Part.prefixTexts]
      exact (Command.setsPrefix command reachable).bindSilent
        fun _ => .pure _ _

theorem Part.setsPrefix_all :
    (parts : List Part) → {world : World} → world.Reachable →
      (Part.renderAll parts).SetsPrefix world (Part.prefixTextsAll parts world)
  | [], world, _ => by
      rw [Part.renderAll, Part.prefixTextsAll]
      exact .pure _ world
  | part :: parts, _, reachable => by
      rw [Part.renderAll, Part.prefixTextsAll]
      apply (Part.setsPrefix part reachable).bind
      intro rendered _
      cases rendered with
      | none =>
          exact .pure _ _
      | some first =>
          exact (Part.setsPrefix_all parts
            (reachable.part part)).bindSilent fun _ => .pure _ _

end

private theorem World.Reachable.linePrefix_afterAll {world : World}
    (reachable : world.Reachable) (commands : List Command) :
    (world.afterAll commands).get .linePrefix =
      prefixAfter (world.get .linePrefix) (world.prefixTexts commands) := by
  induction commands generalizing world with
  | nil =>
      rfl
  | cons command commands inductionHypothesis =>
      rw [World.prefixTexts, prefixAfter_append,
        ← command.setsPrefix reachable]
      exact inductionHypothesis (reachable.call command)

theorem World.linePrefix_of_fresh (surroundings : Surroundings)
    (commands : List Command) :
    ((fresh surroundings).afterAll commands).get .linePrefix =
      InlineText.truncating
        (((fresh surroundings).prefixTexts commands).getLast?.getD
          defaultPrefix) := by
  rw [← prefixAfter_eq]
  exact (Reachable.fresh surroundings).linePrefix_afterAll commands

end LeveledLog
