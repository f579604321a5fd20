/-
Scripts: calls on a logger as sequences of atomic actions.

A script is a finite tree of actions; what it does next may depend on the
result of an action.  It ends with a value or in a panic, and a panic can be
caught.  Scripts form a monad, in which a panic skips what follows it.
-/

import LeveledLog.Logger.Action

namespace LeveledLog

/-- A finite tree of actions, with values or panics at its ends. -/
inductive Script (α : Type) where
  | done (value : α)
  | panic (text : String)
  | step (action : Action) (next : action.Result → Script α)

namespace Script

variable {α β γ : Type}

def perform (action : Action) : Script action.Result :=
  .step action .done

def bind : Script α → (α → Script β) → Script β
  | .done value, continuation => continuation value
  | .panic text, _ => .panic text
  | .step action next, continuation =>
      .step action fun result => (next result).bind continuation

instance : Monad Script where
  pure := .done
  bind := bind

def attempt : Script α → Script (Except String α)
  | .done value => .done (.ok value)
  | .panic text => .done (.error text)
  | .step action next => .step action fun result => (next result).attempt

@[simp] theorem done_bind (value : α) (continuation : α → Script β) :
    (Script.done value).bind continuation = continuation value := rfl

@[simp] theorem panic_bind (text : String) (continuation : α → Script β) :
    (Script.panic text).bind continuation = .panic text := rfl

theorem bind_done (script : Script α) :
    script.bind .done = script := by
  induction script with
  | done value =>
      rfl
  | panic text =>
      rfl
  | step action next inductionHypothesis =>
      simp only [bind]
      congr 1
      funext result
      exact inductionHypothesis result

theorem bind_bind (script : Script α) (first : α → Script β)
    (second : β → Script γ) :
    (script.bind first).bind second =
      script.bind fun value => (first value).bind second := by
  induction script with
  | done value =>
      rfl
  | panic text =>
      rfl
  | step action next inductionHypothesis =>
      simp only [bind]
      congr 1
      funext result
      exact inductionHypothesis result

instance : LawfulMonad Script :=
  LawfulMonad.mk' Script
    (fun script => bind_done script)
    (fun _ _ => rfl)
    bind_bind

end Script

end LeveledLog
