/-
The fragments of a line, and how they are written.

A line is a sequence of fragments: colours to turn on or off, and bytes.  Each
fragment is one write; without colours a colour is no bytes, and a write of no
bytes is not made.  The destination and the use of colours are settled when
the writing of a line starts and hold to its end, also if a sink changes them
meanwhile.
-/

import LeveledLog.Entry
import LeveledLog.Logger.Configuration
import LeveledLog.Numeral
import LeveledLog.Time.Timestamp

namespace LeveledLog

inductive Fragment where
  | paint (color : Color)
  | raw (bytes : Bytes)
deriving DecidableEq

namespace Fragment

def text (content : String) : Fragment :=
  .raw (Text.utf8 content)

def bytes (colored : Bool) : Fragment → Bytes
  | .paint color => if colored then Text.utf8 color.escape else []
  | .raw bytes => bytes

end Fragment

namespace Line

def processGroup (processId : UInt32) : List Fragment :=
  [.paint .dim, .text "|", .raw (Numeral.decimal processId.toUInt64),
   .text "|", .paint .reset, .text " "]

def prefixGroup (linePrefix : LinePrefix) : List Fragment :=
  [.paint .gray, .paint .italic, .raw linePrefix.content, .text " ",
   .paint .reset]

def levelGroup (level : Level) : List Fragment :=
  [.paint level.color, .text "[", .text level.label, .text "]",
   .paint .reset]

def heading (processId : UInt32) (linePrefix : LinePrefix) (level : Level) :
    List Fragment :=
  processGroup processId ++ prefixGroup linePrefix ++ levelGroup level

def siteGroup (site : CallSite) : List Fragment :=
  [.text " ", .paint .dim, .text site.basename, .text ":",
   .raw (Numeral.decimal site.line.toUInt64), .paint .reset]

def moduleGroup (name : String) : List Fragment :=
  [.text " ", .paint .dim, .text "(", .text name, .text ")",
   .paint .reset]

def messageGroup (message : String) : List Fragment :=
  [.text " ", .text message]

end Line

namespace Logger

open Script

def makeChange : Change → Script Unit
  | .destination destination => setDestination destination
  | .linePrefix text => setPrefix text
  | .colorMode mode => setColorMode mode
  | .rearm name reactions => perform (.arm name reactions)

def makeChanges : List Change → Script Unit
  | [] => pure ()
  | change :: changes => do
      makeChange change
      makeChanges changes

def write (destination : Destination) (bytes : Bytes) : Script Unit :=
  if bytes = [] then
    pure ()
  else do
    match ← perform (.deliver destination bytes) with
    | .accept changes => makeChanges changes
    | .panic text => .panic text

structure LineWriter where
  destination : Destination
  colored : Bool
deriving DecidableEq

def lineWriter : Script LineWriter := do
  let destination ← load .destination
  let colored ← colorEnabled
  pure { destination := destination, colored := colored }

def LineWriter.put (writer : LineWriter) : List Fragment → Script Unit
  | [] => pure ()
  | fragment :: fragments => do
      write writer.destination (fragment.bytes writer.colored)
      writer.put fragments

def writeRaw (bytes : Bytes) : Script Unit := do
  let destination ← load .destination
  write destination bytes

def writeText (text : String) : Script Unit :=
  writeRaw (Text.utf8 text)

def writeDecimal (word : UInt64) : Script Unit :=
  writeRaw (Numeral.decimal word)

def writeHexadecimal (word : UInt64) : Script Unit :=
  writeRaw (Numeral.hexadecimal word)

/-- The heading of a line and a blank, without taking the output lock. -/
def writeHeading (level : Level) : Script Unit := do
  let linePrefix ← prefixSnapshot
  let writer ← lineWriter
  let host ← perform .readHost
  writer.put (Line.heading host.processId linePrefix level ++ [.text " "])

/-- The instant that the clock shows; a clock that cannot be read is a
panic. -/
def currentInstant : Script Instant := do
  let time ← perform .readClock
  match time.read with
  | .ok instant => pure instant
  | .error fault => .panic fault.message

def LineWriter.putTimestamp (writer : LineWriter) : Script Unit := do
  let on ← load .timestamps
  if on then do
    let now ← currentInstant
    writer.put [.raw now.timestamp]
  else
    pure ()

def LineWriter.putSite (writer : LineWriter) (site : CallSite) :
    Script Unit := do
  let on ← load .sourceLocation
  if on then
    writer.put (Line.siteGroup site)
  else
    pure ()

def LineWriter.putModule (writer : LineWriter) : Option String → Script Unit
  | some name => writer.put (Line.moduleGroup name)
  | none => pure ()

def emit (linePrefix : LinePrefix) (entry : Entry) (message : String) :
    Script Unit := do
  let writer ← lineWriter
  writer.putTimestamp
  let host ← perform .readHost
  writer.put (Line.heading host.processId linePrefix entry.level)
  writer.putSite entry.site
  writer.putModule entry.moduleName
  writer.put (Line.messageGroup message)

/-- Performs a script while holding the output lock, which is given up also if
the script panics. -/
def withOutputLock (body : Script Unit) : Script Unit := do
  perform (.acquire .output)
  match ← attempt body with
  | .ok () => perform (.release .output false)
  | .error text => do
      perform (.release .output true)
      .panic text

def writeLine (entry : Entry) (message : String) : Script Unit := do
  let linePrefix ← prefixSnapshot
  let threadSafe ← load .threadSafe
  if threadSafe then
    withOutputLock (emit linePrefix entry message)
  else
    emit linePrefix entry message

end Logger

end LeveledLog
