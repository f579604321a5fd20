/-
Where output goes, and how a destination reacts to it.

Output goes to the standard destination or to a sink, which is known by its
name.  A sink is called with the bytes of one write at a time.  It either
accepts them, and may change the destination, the line prefix or the colour
mode of the logger that called it before it returns, or it panics.  What the
calls of a sink lead to, one after the other, stands on a tape: the reactions
to the first calls, and the reaction to every later call.
-/

import LeveledLog.Color
import LeveledLog.Text.Bytes

namespace LeveledLog

structure Repeated (α : Type) where
  answer : α
  more : Nat
deriving DecidableEq

/-- The answers to a sequence of questions: the first ones, with equal answers
in a row taken together, and the answer to every later question. -/
structure Tape (α : Type) where
  recorded : List (Repeated α)
  afterwards : α
deriving DecidableEq

namespace Tape

variable {α : Type}

def constant (answer : α) : Tape α where
  recorded := []
  afterwards := answer

def before (answer : α) (tape : Tape α) : (times : Nat) → Tape α
  | 0 => tape
  | more + 1 =>
      { tape with
        recorded := { answer := answer, more := more } :: tape.recorded }

/-- The answers of a list, the last of which repeats; `default` if the list
is empty. -/
def ofList (default : α) : List α → Tape α
  | [] => constant default
  | [answer] => constant answer
  | answer :: answers => (ofList default answers).before answer 1

def head (tape : Tape α) : α :=
  match tape.recorded with
  | [] => tape.afterwards
  | first :: _ => first.answer

def tail (tape : Tape α) : Tape α :=
  match tape.recorded with
  | [] => tape
  | first :: later =>
      { tape with recorded := later }.before first.answer first.more

@[simp] theorem head_constant (answer : α) :
    (constant answer).head = answer := rfl

@[simp] theorem tail_constant (answer : α) :
    (constant answer).tail = constant answer := rfl

end Tape

abbrev SinkName := String

inductive Destination where
  | standard
  | sink (name : SinkName)
deriving DecidableEq

/-- The bytes of one write, as a destination accepted them.  What a destination
has accepted is collected from time to time; the deliveries between two
collections form a batch, and `batch` is the number of collections before. -/
structure Delivery where
  destination : Destination
  bytes : Bytes
  batch : Nat
deriving DecidableEq

mutual

inductive Change where
  | destination (destination : Destination)
  | linePrefix (text : String)
  | colorMode (mode : ColorMode)
  | rearm (name : SinkName) (reactions : Tape Reaction)

inductive Reaction where
  | accept (changes : List Change)
  | panic (text : String)

end

namespace Reaction

def plain : Reaction := .accept []

def capturing : Tape Reaction :=
  Tape.constant plain

def panickingAfter (accepted : Nat) (text : String) : Tape Reaction :=
  (Tape.constant (.panic text)).before plain accepted

/-- A sink that accepts everything and makes changes in one of its calls,
which are counted from one. -/
def changingAt : (call : Nat) → (changes : List Change) → Tape Reaction
  | 0, _ => capturing
  | earlier + 1, changes =>
      (capturing.before (.accept changes) 1).before plain earlier

end Reaction

end LeveledLog
