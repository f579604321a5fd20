/-
Severity levels.

There are three levels, ordered by severity.  A level is written as its label
and read from any text that equals the label up to the case of ASCII letters;
no blanks are allowed around it.  A number that stands for no level is taken
for the most severe one.
-/

import LeveledLog.Color
import LeveledLog.Text.Blank

namespace LeveledLog

inductive Level where
  | info | warn | error
deriving DecidableEq

structure UnknownLevel where
  text : String
deriving DecidableEq

def UnknownLevel.message (failure : UnknownLevel) : String :=
  "unrecognized log level `" ++ failure.text ++
    "` (expected info, warn or error)"

namespace Level

def all : List Level :=
  [.info, .warn, .error]

/-- The number of a level; a greater number is more severe. -/
def code : Level → Nat
  | .info => 0
  | .warn => 1
  | .error => 2

def ofCode : Nat → Level
  | 0 => .info
  | 1 => .warn
  | _ => .error

instance : LE Level where
  le left right := left.code ≤ right.code

instance (left right : Level) : Decidable (left ≤ right) :=
  inferInstanceAs (Decidable (left.code ≤ right.code))

def label : Level → String
  | .info => "INFO"
  | .warn => "WARN"
  | .error => "ERROR"

def name : Level → String
  | .info => "Info"
  | .warn => "Warn"
  | .error => "Error"

def color : Level → Color
  | .info => .green
  | .warn => .yellow
  | .error => .red

/-- The characters with each ASCII capital replaced by its small letter. -/
def folded (characters : List Char) : List Char :=
  characters.map Char.toLower

def parse (text : String) : Except UnknownLevel Level :=
  match all.find? fun level =>
      folded level.label.toList == folded text.toList with
  | some level => .ok level
  | none => .error { text := text }

/-- The level that an outside setting asks for: blanks around the label do not
matter, and what names no level asks for the least severe one. -/
def ofSetting (text : String) : Level :=
  match parse (Text.trim text) with
  | .ok level => level
  | .error _ => .info

def passes (level : Level) : List Level :=
  all.filter fun minimum => minimum ≤ level

end Level

end LeveledLog
