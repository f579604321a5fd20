/-
Writing through a writer that may take only a part.

A writer answers a write with the number of bytes it accepted, with an
interruption, or with a failure.  `deliver` writes again what was not accepted
yet, and stops when nothing remains, when no byte is accepted, or at a
failure; an interruption accepts nothing and stops nothing.  A writer whose
scripted answers are used up accepts everything.
-/

import LeveledLog.Text.Bytes

namespace LeveledLog.Retry

/-- How a writer answers one write: it accepts the first bytes, up to some
number of them, or it is interrupted, or it fails. -/
inductive Answer where
  | accepts (most : Nat)
  | interrupted
  | fails
deriving DecidableEq

/-- What became of a delivery: the bytes offered in each write, the bytes
accepted in all, and the answers that were not asked for. -/
structure Report where
  offers : List Bytes
  accepted : Bytes
  unused : List Answer
deriving DecidableEq

namespace Report

def idle (unused : List Answer) : Report where
  offers := []
  accepted := []
  unused := unused

def after (report : Report) (offer accepted : Bytes) : Report where
  offers := offer :: report.offers
  accepted := accepted ++ report.accepted
  unused := report.unused

end Report

def deliver : List Answer → Bytes → Report
  | answers, [] => Report.idle answers
  | [], bytes => (Report.idle []).after bytes bytes
  | .accepts most :: answers, bytes =>
      if most = 0 then
        (Report.idle answers).after bytes []
      else
        (deliver answers (bytes.drop most)).after bytes (bytes.take most)
  | .interrupted :: answers, bytes =>
      (deliver answers bytes).after bytes []
  | .fails :: answers, bytes =>
      (Report.idle answers).after bytes []

end LeveledLog.Retry
