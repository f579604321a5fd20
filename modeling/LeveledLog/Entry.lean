/-
Log entries: a level, the place of the call, and an optional module tag.

A call site shows the last segment of its path, which is what follows the last
separator; both slashes separate.  An empty module name is no tag.
-/

import LeveledLog.Defaults

namespace LeveledLog

structure CallSite where
  file : Option String
  line : UInt32
deriving DecidableEq

namespace CallSite

def separates (character : Char) : Bool :=
  character == '/' || character == '\x5c'

def lastSegment (path : List Char) : List Char :=
  (path.reverse.takeWhile fun character => !separates character).reverse

def basename (site : CallSite) : String :=
  match site.file with
  | some path =>
      if path = "" then unknownFile
      else String.ofList (lastSegment path.toList)
  | none => unknownFile

end CallSite

structure Entry where
  level : Level
  site : CallSite
  moduleName : Option String
deriving DecidableEq

namespace Entry

def untagged (level : Level) (site : CallSite) : Entry where
  level := level
  site := site
  moduleName := none

/-- The entry with another module tag; the empty name removes the tag. -/
def withModule (entry : Entry) (name : String) : Entry :=
  { entry with moduleName := if name = "" then none else some name }

end Entry

end LeveledLog
