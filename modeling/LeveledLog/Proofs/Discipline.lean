/-
Disciplines: what a script may do, stage by stage, and what it may expect.

A discipline says in which stage of a thread which actions are allowed, and in
which stages the thread may go on after them.  It also says which results an
action may be expected to have, so that a script need not be prepared for the
others.  A script that follows a discipline may be taken apart along its
binds, and an assertion about stage and world that every allowed action keeps
holds of the whole run of a script.
-/

import LeveledLog.Logger.Run

namespace LeveledLog

/-- The results that an action may have in a stage, and the stages that may
come after it. -/
structure Discipline (Stage : Type) where
  expects : Stage → (action : Action) → action.Result → Prop
  allows : Stage → (action : Action) → action.Result → Stage → Prop

variable {Stage Other α β : Type}

namespace Script

/-- A script follows a discipline from a stage if it performs allowed actions
only, whatever their expected results, and ends in a stage that is right for
its value or for its panic. -/
def Follows (discipline : Discipline Stage) (returns : α → Stage → Prop)
    (panics : String → Stage → Prop) : Script α → Stage → Prop
  | .done value, stage => returns value stage
  | .panic text, stage => panics text stage
  | .step action next, stage =>
      ∀ result, discipline.expects stage action result →
        ∃ later, discipline.allows stage action result later ∧
          (next result).Follows discipline returns panics later

section Follows

variable {discipline : Discipline Stage} {stage : Stage}
variable {returns : α → Stage → Prop} {panics : String → Stage → Prop}

@[simp] theorem follows_pure (value : α) :
    (pure value : Script α).Follows discipline returns panics stage ↔
      returns value stage := Iff.rfl

@[simp] theorem follows_panic (text : String) :
    (Script.panic text : Script α).Follows discipline returns panics stage ↔
      panics text stage := Iff.rfl

theorem follows_perform_bind {action : Action}
    {continuation : action.Result → Script α} :
    (perform action >>= continuation).Follows discipline returns panics
        stage ↔
      ∀ result, discipline.expects stage action result →
        ∃ later, discipline.allows stage action result later ∧
          (continuation result).Follows discipline returns panics later :=
  Iff.rfl

theorem Follows.weaken {script : Script α}
    {returns' : α → Stage → Prop} {panics' : String → Stage → Prop}
    (follows : script.Follows discipline returns panics stage)
    (returned : ∀ value stage, returns value stage → returns' value stage)
    (panicked : ∀ text stage, panics text stage → panics' text stage) :
    script.Follows discipline returns' panics' stage := by
  induction script generalizing stage with
  | done value =>
      exact returned value stage follows
  | panic text =>
      exact panicked text stage follows
  | step action next inductionHypothesis =>
      intro result expected
      obtain ⟨later, allowed, rest⟩ := follows result expected
      exact ⟨later, allowed, inductionHypothesis result rest⟩

theorem follows_bind {script : Script α} {continuation : α → Script β}
    {returns : β → Stage → Prop} :
    (script >>= continuation).Follows discipline returns panics stage ↔
      script.Follows discipline
        (fun value later =>
          (continuation value).Follows discipline returns panics later)
        panics stage := by
  change (script.bind continuation).Follows _ _ _ _ ↔ _
  induction script generalizing stage with
  | done value =>
      exact Iff.rfl
  | panic text =>
      exact Iff.rfl
  | step action next inductionHypothesis =>
      constructor
      · intro follows result expected
        obtain ⟨later, allowed, rest⟩ := follows result expected
        exact ⟨later, allowed, (inductionHypothesis result).mp rest⟩
      · intro follows result expected
        obtain ⟨later, allowed, rest⟩ := follows result expected
        exact ⟨later, allowed, (inductionHypothesis result).mpr rest⟩

theorem Follows.followedBy {script : Script α} {continuation : α → Script β}
    {returns : β → Stage → Prop} {later : Stage}
    (first : script.Follows discipline (fun _ last => last = later) panics
      stage)
    (second : ∀ value,
      (continuation value).Follows discipline returns panics later) :
    (script >>= continuation).Follows discipline returns panics stage := by
  rw [follows_bind]
  refine first.weaken ?_ (fun _ _ same => same)
  intro value last same
  subst same
  exact second value

theorem follows_map {script : Script α} {function : α → β}
    {returns : β → Stage → Prop} :
    (function <$> script).Follows discipline returns panics stage ↔
      script.Follows discipline
        (fun value later => returns (function value) later)
        panics stage := by
  rw [map_eq_pure_bind, follows_bind]
  exact Iff.rfl

theorem follows_attempt {script : Script α}
    {returns : Except String α → Stage → Prop} :
    script.attempt.Follows discipline returns panics stage ↔
      script.Follows discipline
        (fun value later => returns (.ok value) later)
        (fun text later => returns (.error text) later) stage := by
  induction script generalizing stage with
  | done value =>
      exact Iff.rfl
  | panic text =>
      exact Iff.rfl
  | step action next inductionHypothesis =>
      constructor
      · intro follows result expected
        obtain ⟨later, allowed, rest⟩ := follows result expected
        exact ⟨later, allowed, (inductionHypothesis result).mp rest⟩
      · intro follows result expected
        obtain ⟨later, allowed, rest⟩ := follows result expected
        exact ⟨later, allowed, (inductionHypothesis result).mpr rest⟩

/-- A script that follows one discipline follows every discipline in which its
moves can be matched. -/
theorem Follows.transfer {other : Discipline Other}
    (related : Stage → Other → Prop) {script : Script α}
    {returns' : α → Other → Prop} {panics' : String → Other → Prop}
    (follows : script.Follows discipline returns panics stage)
    (expected : ∀ {stage place action result}, related stage place →
      other.expects place action result →
        discipline.expects stage action result)
    (matched : ∀ {stage place action result later}, related stage place →
      discipline.allows stage action result later →
        ∃ there, other.allows place action result there ∧
          related later there)
    (returned : ∀ value stage place, related stage place →
      returns value stage → returns' value place)
    (panicked : ∀ text stage place, related stage place →
      panics text stage → panics' text place)
    {place : Other} (start : related stage place) :
    script.Follows other returns' panics' place := by
  induction script generalizing stage place with
  | done value =>
      exact returned value stage place start follows
  | panic text =>
      exact panicked text stage place start follows
  | step action next inductionHypothesis =>
      intro result expectedThere
      obtain ⟨later, allowed, rest⟩ :=
        follows result (expected start expectedThere)
      obtain ⟨there, allowedThere, relatedLater⟩ := matched start allowed
      exact ⟨there, allowedThere,
        inductionHypothesis result rest relatedLater⟩

end Follows

end Script

def Ending.Right (returns : α → Prop) (panics : String → Prop) :
    Ending α → Prop
  | .returned value => returns value
  | .panicked text => panics text
  | .waiting => False

/-- An assertion about the stage of the only thread, the world and what was
accepted so far, which all allowed actions keep.  An allowed action can be
performed, and its result is an expected one. -/
def Discipline.Keeps (discipline : Discipline Stage)
    (assertion : Stage → World → List Delivery → Prop) : Prop :=
  ∀ stage action world accepted, assertion stage world accepted →
    (∀ result, discipline.expects stage action result →
      ∃ later, discipline.allows stage action result later) →
    ∃ performed, action.perform 0 world = some performed ∧
      discipline.expects stage action performed.result ∧
      ∀ later, discipline.allows stage action performed.result later →
        assertion later performed.world (accepted ++ performed.accepted)

theorem Script.Follows.run {discipline : Discipline Stage}
    {assertion : Stage → World → List Delivery → Prop}
    (keeps : discipline.Keeps assertion) {script : Script α} {stage : Stage}
    {returns : α → Stage → Prop} {panics : String → Stage → Prop}
    (follows : script.Follows discipline returns panics stage)
    {world : World} (earlier : List Delivery)
    (start : assertion stage world earlier) :
    ∃ later,
      assertion later (script.run world).world
        (earlier ++ (script.run world).accepted) ∧
      (script.run world).ending.Right (fun value => returns value later)
        (fun text => panics text later) := by
  induction script generalizing stage world earlier with
  | done value =>
      exact ⟨stage, by simpa [Script.run] using start, follows⟩
  | panic text =>
      exact ⟨stage, by simpa [Script.run] using start, follows⟩
  | step action next inductionHypothesis =>
      have possible : ∀ result, discipline.expects stage action result →
          ∃ later, discipline.allows stage action result later := by
        intro result expected
        obtain ⟨later, allowed, _⟩ := follows result expected
        exact ⟨later, allowed⟩
      obtain ⟨performed, performs, expected, kept⟩ :=
        keeps stage action world earlier start possible
      obtain ⟨later, allowed, rest⟩ := follows performed.result expected
      obtain ⟨last, atEnd, right⟩ :=
        inductionHypothesis performed.result rest _ (kept later allowed)
      refine ⟨last, ?_, ?_⟩
      · simpa [Script.run, performs, Outcome.after] using atEnd
      · simpa [Script.run, performs, Outcome.after] using right

end LeveledLog
