/-
Inline texts: short texts held in a fixed number of bytes.

An inline text of a given capacity is that many bytes, of which the first
`length` are in use.  One place stays free, so a text of at most
`capacity - 1` bytes fits.  A longer text is cut, and the cut moves back until
it does not stand inside a character.
-/

import LeveledLog.Text.Bytes

namespace LeveledLog

/-- A short text: `capacity` bytes, of which the first `length` spell it. -/
structure InlineText (capacity : Nat) where
  bytes : Vector UInt8 capacity
  length : Nat
  length_le : length ≤ capacity - 1
deriving DecidableEq

namespace InlineText

variable {capacity : Nat}

def room (capacity : Nat) : Nat :=
  capacity - 1

def blank : InlineText capacity where
  bytes := Vector.replicate capacity 0
  length := 0
  length_le := Nat.zero_le _

/-- Whether a byte continues a character that an earlier byte began: such a
byte has the two high bits `10`. -/
def continues (byte : UInt8) : Bool :=
  byte &&& 0xC0 == 0x80

/-- The nearest place at or before `place` where a character of `source`
begins, or the end of `source`. -/
def boundary (source : Bytes) : Nat → Nat
  | 0 => 0
  | place + 1 =>
      match source[place + 1]? with
      | some byte =>
          if continues byte then boundary source place else place + 1
      | none => place + 1

theorem boundary_le (source : Bytes) (place : Nat) :
    boundary source place ≤ place := by
  induction place with
  | zero =>
      exact Nat.le_refl 0
  | succ place inductionHypothesis =>
      unfold boundary
      split
      · split
        · exact Nat.le_succ_of_le inductionHypothesis
        · exact Nat.le_refl _
      · exact Nat.le_refl _

/-- Holds as much of `text` as fits, cut where a character begins. -/
def truncating (text : String) : InlineText capacity :=
  let source := Text.utf8 text
  let length := boundary source (min source.length (room capacity))
  { bytes := Vector.ofFn fun place =>
      if place.val < length then source.getD place.val 0 else 0
    length := length
    length_le :=
      Nat.le_trans (boundary_le _ _) (Nat.min_le_right _ _) }

def fitting? (text : String) : Option (InlineText capacity) :=
  if Text.size text ≤ room capacity then some (truncating text) else none

def content (held : InlineText capacity) : Bytes :=
  held.bytes.toList.take held.length

def text (held : InlineText capacity) : String :=
  (Text.text? held.content).getD ""

def holds (held : InlineText capacity) (other : String) : Bool :=
  held.content == Text.utf8 other

end InlineText

end LeveledLog
