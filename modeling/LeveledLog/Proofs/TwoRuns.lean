/-
Two runs side by side, which differ in what sinks do.

In the first run every sink accepts everything; in the second one sinks may
panic.  A script is secluded from panics if nothing but the output lock is
changed once a destination has been called, and if a panic of a destination
goes straight through the script, which gives up the output lock on its way.
Such a script leaves the same logger in both runs, whatever panics there are,
and what it has delivered in the second run is where the first one begins.
-/

import LeveledLog.Proofs.LineLayout

namespace LeveledLog

/-! ### The calls of destinations -/

/-- A call of a destination, and how the destination reacted to it. -/
structure SinkCall where
  delivery : Delivery
  reaction : Reaction

namespace SinkCall

def panic? (call : SinkCall) : Option String :=
  match call.reaction with
  | .panic text => some text
  | .accept _ => none

def accepted (calls : List SinkCall) : List Delivery :=
  (calls.filter fun call => call.panic?.isNone).map delivery

private theorem accepted_append (earlier later : List SinkCall) :
    accepted (earlier ++ later) = accepted earlier ++ accepted later := by
  unfold accepted
  rw [List.filter_append, List.map_append]

end SinkCall

def Action.sinkCalls (world : World) :
    (action : Action) → action.Result → List SinkCall
  | .deliver destination bytes, reaction =>
      [{ delivery := world.surroundings.delivery destination bytes
         reaction := reaction }]
  | _, _ => []

variable {α β : Type}

def Script.sinkCalls : Script α → World → List SinkCall
  | .done _, _ | .panic _, _ => []
  | .step action next, world =>
      match action.perform 0 world with
      | none => []
      | some performed =>
          action.sinkCalls world performed.result ++
            (next performed.result).sinkCalls performed.world

private theorem Action.perform_accepted {action : Action} {thread : Nat}
    {world : World} {performed : Performed action.Result}
    (performs : action.perform thread world = some performed) :
    performed.accepted =
      SinkCall.accepted (action.sinkCalls world performed.result) := by
  cases action with
  | deliver destination bytes =>
      rw [perform_deliver_eq] at performs
      cases performs
      unfold sinkCalls SinkCall.accepted SinkCall.panic?
      cases world.reactionAt destination 0 with
      | accept | panic =>
          rfl
  | acquire name =>
      rw [(perform_acquire_eq performs).2]
      rfl
  | beginInitialisation =>
      rcases perform_begin_eq performs with ⟨_, same⟩ | ⟨_, same⟩
      · rw [same]
        rfl
      · rw [same]
        rfl
  | _ =>
      cases performs
      rfl

/-- What is accepted during a script is what the calls in which no destination
panics have brought. -/
theorem Script.accepted_eq (script : Script α) (world : World) :
    (script.run world).accepted =
      SinkCall.accepted (script.sinkCalls world) := by
  induction script generalizing world with
  | done | panic =>
      rfl
  | step action next inductionHypothesis =>
      cases performs : action.perform 0 world with
      | none =>
          simp only [run, sinkCalls, performs]
          rfl
      | some performed =>
          simp only [run, sinkCalls, performs, SinkCall.accepted_append]
          rw [← inductionHypothesis, ← Action.perform_accepted performs]
          rfl

def Action.isApart : Action → Bool
  | .deliver _ _ | .arm _ _ => false
  | _ => true

theorem Action.sinkCalls_apart {action : Action}
    (apart : action.isApart = true) (world : World)
    (result : action.Result) : action.sinkCalls world result = [] := by
  cases action with
  | deliver | arm =>
      cases apart
  | _ =>
      rfl

namespace World

/-- The logger with sinks that react as noted, and with an output lock that is
poisoned or not. -/
def reacting (world : World) (sinks : List (SinkName × Tape Reaction))
    (poisoned : Bool) : World :=
  { world with
    outputLock := { world.outputLock with poisoned := poisoned }
    surroundings := { world.surroundings with sinks := sinks } }

private theorem lock_reacting (world : World)
    (sinks : List (SinkName × Tape Reaction)) (poisoned : Bool)
    (name : LockName) :
    ((world.reacting sinks poisoned).lock name).holder =
      (world.lock name).holder := by
  cases name <;> rfl

end World

/-- An action that has nothing to do with sinks does the same however they
react. -/
theorem Action.perform_reacting {action : Action}
    (apart : action.isApart = true) (thread : Nat) (world : World)
    (sinks : List (SinkName × Tape Reaction)) (poisoned : Bool) :
    action.perform thread world = none ∧
        action.perform thread (world.reacting sinks poisoned) = none ∨
      ∃ result after later,
        action.perform thread world = some (.silent result after) ∧
          action.perform thread (world.reacting sinks poisoned) =
            some (.silent result (after.reacting sinks later)) ∧
          after.surroundings.sinks = world.surroundings.sinks := by
  cases action with
  | deliver | arm =>
      cases apart
  | store cell value =>
      exact .inr ⟨_, _, poisoned, rfl, rfl, rfl⟩
  | acquire name =>
      have same := world.lock_reacting sinks poisoned name
      cases holder : (world.lock name).holder with
      | some other =>
          rw [holder] at same
          exact .inl ⟨by simp only [perform, holder],
            by simp only [perform, same]⟩
      | none =>
          refine .inr ⟨(), _, poisoned, perform_acquire holder thread, ?_, ?_⟩
          · rw [perform_acquire (same.trans holder)]
            cases name <;> rfl
          · cases name <;> rfl
  | release name panicked =>
      cases name with
      | config =>
          exact .inr ⟨_, _, poisoned, rfl, rfl, rfl⟩
      | output =>
          exact .inr ⟨_, _, poisoned || panicked, rfl, rfl, rfl⟩
  | beginInitialisation =>
      cases state : world.initialisation with
      | running =>
          exact .inl ⟨by simp only [perform, state],
            by simp only [perform, World.reacting, state]⟩
      | pending =>
          exact .inr ⟨true, { world with initialisation := .running },
            poisoned, by simp only [perform, state],
            by simp only [perform, World.reacting, state], rfl⟩
      | complete =>
          have reacting :
              (world.reacting sinks poisoned).initialisation = .complete :=
            state
          exact .inr ⟨false, world, poisoned,
            perform_begin_of_complete state thread,
            perform_begin_of_complete reacting thread, rfl⟩
  | _ =>
      exact .inr ⟨_, _, poisoned, rfl, rfl, rfl⟩

/-! ### Loggers side by side -/

private theorem Surroundings.reactions_call_of_ne (surroundings : Surroundings)
    {called name : SinkName} (different : name ≠ called) :
    (surroundings.call called).2.reactions name =
      surroundings.reactions name := by
  simp only [call]
  split
  · rfl
  · exact reactions_arm_of_ne _ _ different

namespace World

def besidesSinks (world : World) : World :=
  world.reacting [] false

/-- The loggers differ at most in how their sinks react and in whether their
output locks are poisoned. -/
def Alike (first second : World) : Prop :=
  first.besidesSinks = second.besidesSinks

def SinksCapture (world : World) : Prop :=
  ∀ name, world.surroundings.reactions name = Reaction.capturing

/-- Sinks may panic, but make no changes to the logger. -/
def SinksSpare (world : World) : Prop :=
  ∀ destination call, (world.reactionAt destination call).changes = []

/-- A logger whose sinks capture everything, and beside it the same logger
with sinks that may panic. -/
structure Beside (first second : World) : Prop where
  alike : first.Alike second
  captures : first.SinksCapture
  spares : second.SinksSpare

variable {first second : World}

theorem alike_reacting (world : World)
    (sinks : List (SinkName × Tape Reaction)) (poisoned : Bool) :
    world.Alike (world.reacting sinks poisoned) := rfl

namespace Alike

theorem refl (world : World) : world.Alike world := rfl

/-- What a logger is like, its sinks and its output lock apart, leaves nothing
open but these. -/
theorem exists_reacting (alike : first.Alike second) :
    ∃ sinks poisoned, second = first.reacting sinks poisoned := by
  refine ⟨second.surroundings.sinks, second.outputLock.poisoned, ?_⟩
  calc
    second = second.besidesSinks.reacting second.surroundings.sinks
        second.outputLock.poisoned := rfl
    _ = first.besidesSinks.reacting second.surroundings.sinks
        second.outputLock.poisoned := by rw [alike]
    _ = first.reacting second.surroundings.sinks
        second.outputLock.poisoned := rfl

theorem atRest (alike : first.Alike second) (rest : first.AtRest) :
    second.AtRest := by
  obtain ⟨sinks, poisoned, same⟩ := alike.exists_reacting
  rw [same]
  exact ⟨rest.configFree, rest.outputFree, rest.settled⟩

private theorem delivery (alike : first.Alike second)
    (destination : Destination) (bytes : Bytes) :
    second.surroundings.delivery destination bytes =
      first.surroundings.delivery destination bytes := by
  obtain ⟨sinks, poisoned, same⟩ := alike.exists_reacting
  rw [same]
  rfl

private theorem called (alike : first.Alike second)
    (destination : Destination) : first.Alike (second.called destination) := by
  refine Eq.trans alike ?_
  cases destination with
  | standard =>
      rfl
  | sink name =>
      obtain ⟨sinks, same⟩ := second.surroundings.call_eq name
      have reacts : second.called (.sink name) =
          second.reacting sinks second.outputLock.poisoned := by
        simp only [World.called, same]
        rfl
      rw [reacts]
      rfl

end Alike

theorem SinksCapture.of_sinks {world after : World}
    (captures : world.SinksCapture)
    (same : after.surroundings.sinks = world.surroundings.sinks) :
    after.SinksCapture := by
  intro name
  unfold Surroundings.reactions
  rw [same]
  exact captures name

private theorem SinksCapture.perform_deliver {world : World}
    (captures : world.SinksCapture) (destination : Destination)
    (bytes : Bytes) (thread : Nat) :
    (Action.deliver destination bytes).perform thread world =
      some
        { result := .accept [], world := world
          accepted := [world.surroundings.delivery destination bytes] } := by
  rw [Action.perform_deliver_eq]
  cases destination with
  | standard =>
      rfl
  | sink name =>
      simp only [reactionAt, called, Surroundings.call, captures name]
      rfl

private theorem SinksSpare.of_sinks {world after : World}
    (spares : world.SinksSpare)
    (same : after.surroundings.sinks = world.surroundings.sinks) :
    after.SinksSpare := by
  intro destination call
  cases destination with
  | standard =>
      rfl
  | sink name =>
      have before := spares (.sink name) call
      unfold reactionAt Surroundings.reactions at before ⊢
      rw [same]
      exact before

private theorem SinksSpare.called {world : World} (spares : world.SinksSpare)
    (destination : Destination) :
    (world.called destination).SinksSpare := by
  cases destination with
  | standard =>
      exact spares
  | sink name =>
      intro other call
      cases other with
      | standard =>
          rfl
      | sink asked =>
          by_cases same : asked = name
          · subst same
            simp only [reactionAt, World.called,
              Surroundings.reactions_call]
            exact spares (.sink asked) (call + 1)
          · simp only [reactionAt, World.called,
              Surroundings.reactions_call_of_ne _ same]
            exact spares (.sink asked) call

/-- An action apart from sinks keeps two loggers side by side. -/
theorem Beside.perform (beside : first.Beside second) {action : Action}
    (apart : action.isApart = true) (thread : Nat) :
    action.perform thread first = none ∧
        action.perform thread second = none ∨
      ∃ result after later,
        action.perform thread first = some (.silent result after) ∧
          action.perform thread second = some (.silent result later) ∧
          after.Beside later := by
  obtain ⟨alike, captures, spares⟩ := beside
  obtain ⟨sinks, poisoned, same⟩ := alike.exists_reacting
  subst same
  rcases Action.perform_reacting apart thread first sinks poisoned with
    waits | ⟨result, after, later, performs, performsReacting, kept⟩
  · exact .inl waits
  · exact .inr ⟨result, after, _, performs, performsReacting,
      after.alike_reacting sinks later, captures.of_sinks kept,
      spares.of_sinks rfl⟩

/-- The logger when a call has left the output lock, if it held it. -/
def leaving (world : World) : Bool → World
  | true => world.givingOutputUp false
  | false => world

private theorem Alike.leaving (alike : first.Alike second) (held : Bool) :
    (first.leaving held).Alike (second.leaving held) := by
  obtain ⟨sinks, poisoned, same⟩ := alike.exists_reacting
  subst same
  cases held with
  | false | true =>
      rfl

end World

/-! ### Scripts that are secluded from panics -/

/-- How far a script has come with its destinations. -/
inductive SinkStage where
  | preparing
  /-- Destinations are called and the logger is not changed any more; `held`
  tells whether the output lock is held meanwhile. -/
  | writing (held : Bool)
  | failing (text : String) (held : Bool)

namespace SinkStage

inductive Writes : SinkStage → Bool → Prop
  | first : Writes .preparing false
  | next (held : Bool) : Writes (.writing held) held

def Ends : SinkStage → Prop
  | .preparing | .writing false => True
  | .writing true | .failing _ _ => False

end SinkStage

def Action.isQuestion : Action → Bool
  | .load _ | .readClock | .readHost => true
  | _ => false

inductive SinkMove :
    SinkStage → (action : Action) → action.Result → SinkStage → Prop
  | prepare (action : Action) (result : action.Result)
      (apart : action.isApart = true) :
      SinkMove .preparing action result .preparing
  | lock : SinkMove .preparing (.acquire .output) () (.writing true)
  | ask {stage : SinkStage} {held : Bool} (writes : stage.Writes held)
      (action : Action) (result : action.Result)
      (question : action.isQuestion = true) :
      SinkMove stage action result (.writing held)
  | accept {stage : SinkStage} {held : Bool} (writes : stage.Writes held)
      (destination : Destination) (bytes : Bytes) :
      SinkMove stage (.deliver destination bytes) (.accept [])
        (.writing held)
  | panic {stage : SinkStage} {held : Bool} (writes : stage.Writes held)
      (destination : Destination) (bytes : Bytes) (text : String) :
      SinkMove stage (.deliver destination bytes) (.panic text)
        (.failing text held)
  | unlock (panicked : Bool) :
      SinkMove (.writing true) (.release .output panicked) ()
        (.writing false)
  | giveUp (text : String) :
      SinkMove (.failing text true) (.release .output true) ()
        (.failing text false)

def Discipline.secluded : Discipline SinkStage where
  expects _ action result :=
    match action, result with
    | .deliver _ _, reaction => reaction.changes = []
    | _, _ => True
  allows := SinkMove

def Script.Secluded (stage : SinkStage) (script : Script α) : Prop :=
  script.Follows Discipline.secluded (fun _ last => last.Ends)
    (fun text last => last.Ends ∨ last = .failing text false) stage

theorem Discipline.secluded_answerable (stage : SinkStage) (action : Action)
    (world : World) :
    ∃ result, Discipline.secluded.expects stage action result := by
  cases action with
  | load cell =>
      exact ⟨world.get cell, trivial⟩
  | deliver =>
      exact ⟨.plain, rfl⟩
  | readClock =>
      exact ⟨world.surroundings.clock, trivial⟩
  | readHost =>
      exact ⟨world.surroundings.host, trivial⟩
  | lookup =>
      exact ⟨.unset, trivial⟩
  | beginInitialisation | takeFacade =>
      exact ⟨true, trivial⟩
  | store | acquire | release | endInitialisation | setClock | arm
  | collect =>
      exact ⟨(), trivial⟩

theorem Discipline.secluded_expects (stage : SinkStage) {action : Action}
    (apart : action.isApart = true) (result : action.Result) :
    Discipline.secluded.expects stage action result := by
  cases action with
  | deliver =>
      cases apart
  | _ =>
      exact trivial

/-- While sinks capture everything, a script that has begun to write leaves
the logger as it is, but for the output lock. -/
theorem Discipline.secluded_keeps (start : World) (held : Bool) :
    Discipline.secluded.Keeps fun stage now _ =>
      now.SinksCapture ∧ ∃ still, stage = .writing still ∧
        (start.leaving held).Alike (now.leaving still) := by
  intro stage action now _ ⟨captures, still, writing, alike⟩ possible
  subst writing
  cases action with
  | load | readClock | readHost =>
      refine ⟨_, rfl, trivial, ?_⟩
      intro later move
      cases move with
      | ask writes =>
          cases writes
          exact ⟨captures, still, rfl, alike⟩
  | deliver destination bytes =>
      refine ⟨_, captures.perform_deliver destination bytes 0, rfl, ?_⟩
      intro later move
      cases move with
      | ask _ _ _ question =>
          cases question
      | accept writes =>
          cases writes
          exact ⟨captures, still, rfl, alike⟩
  | release name panicked =>
      refine ⟨_, rfl, trivial, ?_⟩
      intro later move
      cases move with
      | ask _ _ _ question =>
          cases question
      | unlock =>
          exact ⟨captures.of_sinks rfl, false, rfl, alike.trans rfl⟩
  | _ =>
      obtain ⟨result, expected⟩ :=
        Discipline.secluded_answerable (.writing still) _ now
      obtain ⟨later, move⟩ := possible result expected
      cases move with
      | ask _ _ _ question =>
          cases question

theorem SinkStage.Writes.unique {stage : SinkStage} {held other : Bool}
    (writes : stage.Writes held) (also : stage.Writes other) :
    held = other := by
  cases writes with
  | first | next =>
      cases also
      rfl

namespace Script.Secluded

variable {script : Script α} {world : World}

private theorem run_writing {held : Bool}
    (secluded : script.Secluded (.writing held))
    (captures : world.SinksCapture) :
    (script.run world).world.SinksCapture ∧
      (world.leaving held).Alike (script.run world).world := by
  obtain ⟨last, ⟨capturesLast, still, writing, alike⟩, right⟩ :=
    Follows.run (Discipline.secluded_keeps world held) secluded []
      ⟨captures, held, rfl, .refl _⟩
  subst writing
  -- A script that begins to write ends in a stage without the output lock.
  have given : still = false := by
    revert right
    cases (script.run world).ending with
    | returned value =>
        cases still with
        | false =>
            exact fun _ => rfl
        | true =>
            exact False.elim
    | panicked text =>
        cases still with
        | false =>
            exact fun _ => rfl
        | true =>
            rintro (impossible | impossible)
            · exact impossible.elim
            · cases impossible
    | waiting =>
        exact False.elim
  subst given
  exact ⟨capturesLast, alike⟩

private theorem run_failing {text : String} {held : Bool}
    (secluded : script.Secluded (.failing text held)) (world : World) :
    script.run world =
        { ending := .panicked text
          world := if held then world.givingOutputUp true else world
          accepted := [] } ∧
      script.sinkCalls world = [] := by
  induction script generalizing held world with
  | done value =>
      exact secluded.elim
  | panic other =>
      rcases secluded with impossible | same
      · exact impossible.elim
      · cases same
        exact ⟨rfl, rfl⟩
  | step action next inductionHypothesis =>
      obtain ⟨result, expected⟩ :=
        Discipline.secluded_answerable (.failing text held) action world
      obtain ⟨later, move, rest⟩ := secluded result expected
      cases move with
      | ask writes | accept writes | panic writes =>
          cases writes
      | giveUp =>
          obtain ⟨runs, calls⟩ :=
            inductionHypothesis () rest (world.givingOutputUp true)
          constructor
          · exact congrArg (fun outcome => outcome.after []) runs
          · exact congrArg ([] ++ ·) calls

end Script.Secluded

/-! ### The runs of a secluded script -/

/-- The outcome of a run with sinks that may panic, and the calls of
destinations in it, beside the outcome of a run in which sinks capture
everything. -/
structure Outcome.Beside (expected actual : Outcome α)
    (calls : List SinkCall) : Prop where
  world : expected.world.Beside actual.world
  accepted : actual.accepted <+: expected.accepted
  undisturbed : (∀ call ∈ calls, call.panic? = none) →
    actual.accepted = expected.accepted ∧ actual.ending = expected.ending
  disturbed : ∀ call ∈ calls, ∀ text, call.panic? = some text →
    actual.ending = .panicked text

namespace Outcome.Beside

variable {expected actual : Outcome α} {calls : List SinkCall}

private theorem of_ending {first second : World} (beside : first.Beside second)
    (ending : Ending α) :
    Outcome.Beside
      { ending := ending, world := first, accepted := [] }
      { ending := ending, world := second, accepted := [] } [] where
  world := beside
  accepted := List.prefix_rfl
  undisturbed _ := ⟨rfl, rfl⟩
  disturbed := by
    intro call impossible
    cases impossible

private theorem after (beside : Outcome.Beside expected actual calls)
    (earlier : List Delivery) {before : List SinkCall}
    (accepts : ∀ call ∈ before, call.panic? = none) :
    Outcome.Beside (expected.after earlier) (actual.after earlier)
      (before ++ calls) where
  world := beside.world
  accepted := (List.prefix_append_right_inj earlier).mpr beside.accepted
  undisturbed calm := by
    obtain ⟨accepted, ending⟩ := beside.undisturbed fun call member =>
      calm call (List.mem_append_right before member)
    exact ⟨congrArg (earlier ++ ·) accepted, ending⟩
  disturbed := by
    intro call member text panicked
    rcases List.mem_append.mp member with early | late
    · rw [accepts call early] at panicked
      cases panicked
    · exact beside.disturbed call late text panicked

theorem ends (beside : Outcome.Beside expected actual calls) :
    actual.ending = expected.ending ∨
      ∃ call ∈ calls, ∃ text, call.panic? = some text ∧
        actual.ending = .panicked text := by
  by_cases calm : ∀ call ∈ calls, call.panic? = none
  · exact .inl (beside.undisturbed calm).2
  · obtain ⟨call, failed⟩ := not_forall.mp calm
    obtain ⟨member, panicked⟩ := Classical.not_imp.mp failed
    obtain ⟨text, thrown⟩ := Option.ne_none_iff_exists'.mp panicked
    exact .inr ⟨call, member, text, thrown,
      beside.disturbed call member text thrown⟩

end Outcome.Beside

def SinkStage.isCalm : SinkStage → Bool
  | .preparing | .writing _ => true
  | .failing _ _ => false

private theorem SinkMove.calm {stage later : SinkStage} {action : Action}
    {result : action.Result} (move : SinkMove stage action result later)
    (apart : action.isApart = true) (calm : stage.isCalm = true) :
    later.isCalm = true := by
  cases move with
  | prepare | lock | ask | unlock =>
      rfl
  | accept | panic =>
      cases apart
  | giveUp =>
      cases calm

namespace Script.Secluded

variable {script : Script α} {stage : SinkStage} {first second : World}

/-- After a call of a destination a script writes on, or gives up if the
destination has panicked. -/
theorem after_deliver {destination : Destination} {bytes : Bytes}
    {next : Reaction → Script α}
    (secluded :
      (Script.step (.deliver destination bytes) next).Secluded stage) :
    ∃ held, (next (.accept [])).Secluded (.writing held) ∧
      ∀ text, (next (.panic text)).Secluded (.failing text held) := by
  obtain ⟨_, move, resumes⟩ := secluded (.accept []) rfl
  cases move with
  | prepare _ _ impossible | ask _ _ _ impossible =>
      cases impossible
  | @accept _ held writes =>
      refine ⟨held, resumes, ?_⟩
      intro text
      obtain ⟨_, movePanic, gives⟩ := secluded (.panic text) rfl
      cases movePanic with
      | prepare _ _ impossible | ask _ _ _ impossible =>
          cases impossible
      | panic also =>
          rw [writes.unique also]
          exact gives

theorem beside_of_panic {resumed given : Script α} {held : Bool}
    {text : String} (resumes : resumed.Secluded (.writing held))
    (gives : given.Secluded (.failing text held))
    (beside : first.Beside second) (earlier : List Delivery)
    {call : SinkCall} (panicked : call.panic? = some text) :
    Outcome.Beside ((resumed.run first).after earlier) (given.run second)
      (call :: given.sinkCalls second) := by
  obtain ⟨captures, alike⟩ := resumes.run_writing beside.captures
  obtain ⟨runs, calls⟩ := gives.run_failing second
  rw [runs, calls]
  refine ⟨⟨?_, captures, ?_⟩, List.nil_prefix, ?_, ?_⟩
  · refine alike.symm.trans ((beside.alike.leaving held).trans ?_)
    cases held with
    | false | true =>
        rfl
  · cases held with
    | false | true =>
        exact beside.spares.of_sinks rfl
  · intro calm
    rw [calm call List.mem_cons_self] at panicked
    cases panicked
  · intro other member message same
    rw [List.mem_singleton.mp member, panicked] at same
    cases same
    rfl

/-- A secluded script beside itself: the two runs go the same way up to the
first panic of a destination, which is the end of the second run. -/
theorem beside (secluded : script.Secluded stage)
    (calm : stage.isCalm = true) (beside : first.Beside second) :
    Outcome.Beside (script.run first) (script.run second)
      (script.sinkCalls second) := by
  induction script generalizing stage first second with
  | done value =>
      exact .of_ending beside (.returned value)
  | panic text =>
      exact .of_ending beside (.panicked text)
  | step action next inductionHypothesis =>
      by_cases apart : action.isApart = true
      · rcases beside.perform apart 0 with ⟨waits, waitsBeside⟩ |
          ⟨result, after, later, performs, performsBeside, besideAfter⟩
        · simp only [run, sinkCalls, waits, waitsBeside]
          exact .of_ending beside .waiting
        · obtain ⟨stageAfter, move, rest⟩ := secluded result
            (Discipline.secluded_expects stage apart result)
          have onward := inductionHypothesis result rest
            (move.calm apart calm) besideAfter
          simp only [run, sinkCalls, performs, performsBeside,
            Action.sinkCalls_apart apart]
          exact onward.after [] (fun call impossible => by cases impossible)
      -- Only a call of a destination can tell the two runs apart.
      · cases action with
        | arm =>
            obtain ⟨_, move, _⟩ := secluded () trivial
            cases move with
            | prepare _ _ impossible | ask _ _ _ impossible =>
                cases impossible
        | deliver destination bytes =>
            have performs :=
              beside.captures.perform_deliver destination bytes 0
            have performsBeside :=
              Action.perform_deliver_eq second destination bytes 0
            have spared := beside.spares destination 0
            have besideCalled : first.Beside (second.called destination) :=
              ⟨beside.alike.called destination, beside.captures,
                beside.spares.called destination⟩
            obtain ⟨held, resumes, gives⟩ := secluded.after_deliver
            cases reacts : second.reactionAt destination 0 with
            | accept changes =>
                rw [reacts] at performsBeside spared
                cases spared
                have onward := inductionHypothesis (.accept []) resumes rfl
                  besideCalled
                simp only [run, sinkCalls, performs, performsBeside,
                  Action.sinkCalls, beside.alike.delivery]
                refine onward.after _ ?_
                intro call member
                rw [List.mem_singleton.mp member]
                rfl
            | panic text =>
                rw [reacts] at performsBeside
                simp only [run, sinkCalls, performs, performsBeside,
                  Action.sinkCalls, Outcome.after_nil]
                exact beside_of_panic resumes (gives text) besideCalled _ rfl
        | _ =>
            exact absurd rfl apart

end Script.Secluded

end LeveledLog
