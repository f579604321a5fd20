/-
Applying the defaults of the environment, once.

The first call that needs the defaults applies them, and the calls that need
them meanwhile wait.  A setting that a call has claimed is left alone, and its
variable is not asked for.  If asking for a variable panics, the defaults
count as not applied, and the next call that needs them starts again.
-/

import LeveledLog.Logger.Script

namespace LeveledLog

namespace Script

def load (cell : Cell) : Script cell.Value :=
  perform (.load cell)

def store (cell : Cell) (value : cell.Value) : Script Unit :=
  perform (.store cell value)

def lookup (asked : Variable) : Script (Option String) := do
  match ← perform (.lookup asked) with
  | .unset => pure none
  | .text value => pure (some value)
  | .panic text => .panic text

end Script

namespace Logger

open Script

def changeModules (change : ModuleTable → ModuleTable) : Script Unit := do
  perform (.acquire .config)
  let table ← load .modules
  store .modules (change table)
  store .filterActive (change table).isActive
  perform (.release .config false)

def applyLevelDefault : Script Unit := do
  let claimed ← load .levelClaimed
  if claimed then
    pure ()
  else
    match ← lookup .level with
    | some setting => store .minLevel (Level.ofSetting setting)
    | none => pure ()

def applyModulesDefault : Script Unit := do
  let claimed ← load .modulesClaimed
  if claimed then
    pure ()
  else
    match ← lookup .modules with
    | some setting =>
        changeModules fun table => table.enableAll (Text.segments setting)
    | none => pure ()

def applyDefaults : Script Unit := do
  applyLevelDefault
  applyModulesDefault

def finishInitialisation : Except String Unit → Script Unit
  | .ok () => perform (.endInitialisation true)
  | .error text => do
      perform (.endInitialisation false)
      .panic text

/-- Applies the defaults unless that has been done, waiting for a thread that
is doing it. -/
def initOnce : Script Unit := do
  let started ← perform .beginInitialisation
  if started then do
    let result ← attempt applyDefaults
    finishInitialisation result
  else
    pure ()

end Logger

end LeveledLog
