/-
Logging a message.

A message passes if output is on, its level reaches the minimum level, and its
module, if it has one, is let through.  Only a message that passes is
rendered.  An empty message writes nothing, and a message that cannot be
rendered writes a fixed line in its place.
-/

import LeveledLog.Logger.Line

namespace LeveledLog.Logger

open Script

def wouldLog (level : Level) (moduleName : Option String) : Script Bool := do
  initOnce
  let enabled ← load .enabled
  if enabled then do
    let minimum ← load .minLevel
    if minimum ≤ level then
      match moduleName with
      | some name => if name = "" then pure true else moduleIsEnabled name
      | none => pure true
    else
      pure false
  else
    pure false

def writeRendered (entry : Entry) : Option String → Script Unit
  | none => writeText formatErrorLine
  | some text => if text = "" then pure () else writeLine entry text

/-- Logs a message; `render` is performed only if the entry passes, and ends
without a text if the message cannot be rendered. -/
def log (entry : Entry) (render : Script (Option String)) : Script Unit := do
  let passes ← wouldLog entry.level entry.moduleName
  if passes then do
    let rendered ← render
    writeRendered entry rendered
  else
    pure ()

end LeveledLog.Logger
