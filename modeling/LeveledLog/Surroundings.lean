/-
What surrounds a logger: the process, its environment, the clock, the sinks.

The two environment variables that a logger reads may answer differently each
time they are asked, and asking may itself panic.  Every question is recorded,
in order.
-/

import LeveledLog.Output.Sink
import LeveledLog.Time.Clock

namespace LeveledLog

inductive Variable where
  | level | modules
deriving DecidableEq

namespace Variable

def name : Variable → String
  | .level => "CT_LOG_LEVEL"
  | .modules => "CT_DEBUG"

def ofName? (name : String) : Option Variable :=
  [Variable.level, Variable.modules].find? fun candidate =>
    candidate.name == name

end Variable

inductive Reading where
  | unset
  | text (value : String)
  | panic (text : String)
deriving DecidableEq

/-- The reading of a variable whose value is a byte sequence: one that spells
no text counts as unset. -/
def Reading.ofBytes (bytes : Bytes) : Reading :=
  match Text.text? bytes with
  | some value => .text value
  | none => .unset

abbrev Environment := Variable → Tape Reading

def Environment.empty : Environment :=
  fun _ => Tape.constant .unset

structure Host where
  processId : UInt32
  terminal : Bool
deriving DecidableEq

structure Surroundings where
  host : Host
  clock : ClockTime
  environment : Environment
  lookups : List Variable
  sinks : List (SinkName × Tape Reaction)
  batches : Destination → Nat
  facadeTaken : Bool

namespace Surroundings

/-- Surroundings with the clock at the start of 1970 and sinks that accept
everything. -/
def start (host : Host) (environment : Environment) : Surroundings where
  host := host
  clock := ClockTime.epoch
  environment := environment
  lookups := []
  sinks := []
  batches := fun _ => 0
  facadeTaken := false

def lookup (surroundings : Surroundings) (asked : Variable) :
    Reading × Surroundings :=
  let answers := surroundings.environment asked
  (answers.head,
    { surroundings with
      lookups := surroundings.lookups ++ [asked]
      environment := fun other =>
        if other = asked then answers.tail
        else surroundings.environment other })

/-- How a sink reacts from now on; a sink about which nothing is noted accepts
everything. -/
def reactions (surroundings : Surroundings) (name : SinkName) :
    Tape Reaction :=
  (surroundings.sinks.lookup name).getD Reaction.capturing

def arm (surroundings : Surroundings) (name : SinkName)
    (reactions : Tape Reaction) : Surroundings :=
  { surroundings with
    sinks :=
      (name, reactions) ::
        surroundings.sinks.filter fun entry => entry.1 != name }

@[simp] theorem reactions_arm_same (surroundings : Surroundings)
    (name : SinkName) (tape : Tape Reaction) :
    (surroundings.arm name tape).reactions name = tape := by
  simp [reactions, arm]

theorem reactions_arm_of_ne (surroundings : Surroundings)
    {armed name : SinkName} (tape : Tape Reaction)
    (different : name ≠ armed) :
    (surroundings.arm armed tape).reactions name =
      surroundings.reactions name := by
  unfold reactions arm
  have notArmed : (name == armed) = false := by
    simp [different]
  simp only [List.lookup_cons, notArmed]
  congr 1
  induction surroundings.sinks with
  | nil =>
      rfl
  | cons entry entries inductionHypothesis =>
      rcases entry with ⟨other, reactions⟩
      by_cases same : other = armed
      · simp only [List.filter_cons, same, bne_self_eq_false,
          List.lookup_cons, notArmed, Bool.false_eq_true, if_false]
        exact inductionHypothesis
      · have kept : (other != armed) = true := by
          simp [same]
        simp only [List.filter_cons, kept, if_true, List.lookup_cons]
        rw [inductionHypothesis]

/-- Calls a sink; a sink whose reactions no longer differ stays as it is. -/
def call (surroundings : Surroundings) (name : SinkName) :
    Reaction × Surroundings :=
  let tape := surroundings.reactions name
  (tape.head,
    if tape.recorded.isEmpty then surroundings
    else surroundings.arm name tape.tail)

def delivery (surroundings : Surroundings) (destination : Destination)
    (bytes : Bytes) : Delivery where
  destination := destination
  bytes := bytes
  batch := surroundings.batches destination

/-- Collects what a destination has accepted, so that its next delivery opens
a new batch. -/
def collect (surroundings : Surroundings) (destination : Destination) :
    Surroundings :=
  { surroundings with
    batches := fun other =>
      if other = destination then surroundings.batches other + 1
      else surroundings.batches other }

def uncollected (surroundings : Surroundings) (destination : Destination)
    (deliveries : List Delivery) : List Bytes :=
  (deliveries.filter fun delivery =>
    delivery.destination == destination &&
      delivery.batch == surroundings.batches destination).map Delivery.bytes

end Surroundings

end LeveledLog
