/-
Blank characters, and how a comma-separated list is read.

`isBlank` is the Unicode property White_Space.  `trim` removes blanks from
both ends of a text and nothing from its inside; `segments` splits a text at
every comma, so that a text without a comma is its own single segment.
-/

namespace LeveledLog.Text

/-- The characters of the Unicode property White_Space. -/
def isBlank (character : Char) : Bool :=
  let code := character.toNat
  (9 ≤ code && code ≤ 13) || code == 0x20 || code == 0x85 || code == 0xA0 ||
    code == 0x1680 || (0x2000 ≤ code && code ≤ 0x200A) || code == 0x2028 ||
    code == 0x2029 || code == 0x202F || code == 0x205F || code == 0x3000

def trimmed (characters : List Char) : List Char :=
  ((characters.dropWhile isBlank).reverse.dropWhile isBlank).reverse

def trim (text : String) : String :=
  String.ofList (trimmed text.toList)

def split (separates : Char → Bool) :
    List Char → List Char × List (List Char)
  | [] => ([], [])
  | character :: rest =>
      let (part, parts) := split separates rest
      if separates character then
        ([], part :: parts)
      else
        (character :: part, parts)

/-- The parts between commas; there is one more of them than commas. -/
def commaParts (characters : List Char) : List (List Char) :=
  let (part, parts) := split (· == ',') characters
  part :: parts

def segments (text : String) : List String :=
  (commaParts text.toList).map fun part => String.ofList (trimmed part)

end LeveledLog.Text
