/-
Spans of time as text.

A span is written in the largest of four units that it reaches: seconds,
milliseconds, microseconds or nanoseconds.  The number before the unit has as
many decimals as the span needs, and none at all if it is whole.
-/

namespace LeveledLog.Span

def lastDigits (value : Nat) : (width : Nat) → List Char
  | 0 => []
  | width + 1 =>
      Char.ofNat (48 + value / 10 ^ width % 10) :: lastDigits value width

/-- The decimals of a number of units of `10 ^ width` nanoseconds, with the
point before them, and nothing if there are none. -/
def decimals (nanoseconds width : Nat) : String :=
  let digits := (lastDigits nanoseconds width).reverse.dropWhile (· == '0')
  match digits with
  | [] => ""
  | _ :: _ => "." ++ String.ofList digits.reverse

def inUnit (nanoseconds width : Nat) (unit : String) : String :=
  toString (nanoseconds / Nat.pow 10 width) ++ decimals nanoseconds width ++ unit

def text (nanoseconds : Nat) : String :=
  if 1000000000 ≤ nanoseconds then
    inUnit nanoseconds 9 "s"
  else if 1000000 ≤ nanoseconds then
    inUnit nanoseconds 6 "ms"
  else if 1000 ≤ nanoseconds then
    inUnit nanoseconds 3 "µs"
  else
    inUnit nanoseconds 0 "ns"

end LeveledLog.Span
