/-
Using a logger step by step, and gathering what it wrote.

A step of a session is one call made alone, or a crowd: threads that each make
a list of calls at the same time.  When all of them are done, what one sink
accepted is collected for the answer: while lines are kept whole, its lines,
sorted; otherwise the numbers of bytes and of newlines, which no interleaving
changes.  A crowd with a thread that panicked panics in turn, and collects
nothing.
-/

import LeveledLog.Concurrent
import LeveledLog.Logger.Run

namespace LeveledLog

namespace Crowd

def newline : UInt8 := 10

def lines : Bytes → List Bytes
  | [] => []
  | byte :: bytes =>
      if byte = newline then
        [byte] :: lines bytes
      else
        match lines bytes with
        | [] => [[byte]]
        | line :: others => (byte :: line) :: others

def sorted (sequences : List Bytes) : List Bytes :=
  sequences.mergeSort fun left right => decide (left ≤ right)

inductive Answer where
  | lines (sorted : List Bytes)
  | totals (bytes newlines : Nat)
deriving DecidableEq

/-- What a crowd with a thread that panicked panics with. -/
def panicText : String := "a scoped thread panicked"

def answer (whole : Bool) (received : List Bytes) : Answer :=
  if whole then .lines (sorted (lines received.flatten))
  else .totals received.flatten.length (received.flatten.count newline)

end Crowd

inductive SessionStep where
  | call (command : Command)
  | crowd (work : List (List Command)) (sink : SinkName)

inductive SessionAnswer where
  | value (value : Value)
  | crowd (answer : Crowd.Answer)
  | panicked (text : String)
  | waiting

structure SessionReport where
  answer : SessionAnswer
  accepted : List Delivery
  world : World

namespace SessionStep

def answerOf : Ending Value → SessionAnswer
  | .returned value => .value value
  | .panicked text => .panicked text
  | .waiting => .waiting

def perform (world : World) : SessionStep → SessionReport
  | .call command =>
      let outcome := command.script.run world
      { answer := answerOf outcome.ending
        accepted := outcome.accepted
        world := outcome.world }
  | .crowd work sink =>
      let pool := (Pool.start world work).playOut
      let after := pool.world
      if pool.panicked then
        { answer := .panicked Crowd.panicText
          accepted := pool.accepted
          world := after }
      else
        { answer :=
            .crowd
              (Crowd.answer (world.get .threadSafe)
                (after.surroundings.uncollected (.sink sink) pool.accepted))
          accepted := pool.accepted
          world :=
            { after with
              surroundings := after.surroundings.collect (.sink sink) } }

def performAll (world : World) : List SessionStep → List SessionReport
  | [] => []
  | step :: steps =>
      let report := step.perform world
      report :: performAll report.world steps

end SessionStep

end LeveledLog
