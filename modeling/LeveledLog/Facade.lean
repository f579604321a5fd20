/-
Messages that come through a logging facade with five levels.

A record of the facade is logged at the nearest of the three levels, with its
target for a module name, and its message ends in a newline.
-/

import LeveledLog.Logger.Logging

namespace LeveledLog.Facade

inductive Severity where
  | error | warn | info | debug | trace
deriving DecidableEq

def Severity.level : Severity → Level
  | .error => .error
  | .warn => .warn
  | .info | .debug | .trace => .info

structure Record where
  severity : Severity
  target : String
  file : Option String
  line : Option UInt32
deriving DecidableEq

def Record.entry (record : Record) : Entry :=
  (Entry.untagged record.severity.level
    { file := record.file, line := record.line.getD 0 }).withModule
    record.target

def endLine (render : Script (Option String)) : Script (Option String) := do
  let rendered ← render
  pure (rendered.map fun text => text ++ "\n")

def log (record : Record) (render : Script (Option String)) : Script Unit :=
  Logger.log record.entry (endLine render)

def enabled (severity : Severity) (target : String) : Script Bool :=
  Logger.wouldLog severity.level (some target)

inductive InstallError where
  | taken
deriving DecidableEq

def InstallError.message : InstallError → String
  | .taken =>
      "attempted to set a logger after the logging system was already initialized"

/-- Takes the place behind the facade, which only one logger can have. -/
def install : Script (Except InstallError Unit) := do
  let free ← Script.perform .takeFacade
  pure (if free then .ok () else .error .taken)

end LeveledLog.Facade
