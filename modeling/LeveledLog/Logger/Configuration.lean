/-
Reading and changing the settings of a logger.

Setting the minimum level and changing the module table claim that setting
before the defaults of the environment are applied, and store afterwards, so
that no default ever replaces what a call has set.
-/

import LeveledLog.Logger.Initialisation

namespace LeveledLog.Logger

open Script

def enable : Script Unit :=
  store .enabled true

def disable : Script Unit :=
  store .enabled false

def isEnabled : Script Bool :=
  load .enabled

def setPrefix (text : String) : Script Unit := do
  perform (.acquire .config)
  store .linePrefix (InlineText.truncating text)
  perform (.release .config false)

def prefixSnapshot : Script LinePrefix := do
  perform (.acquire .config)
  let linePrefix ← load .linePrefix
  perform (.release .config false)
  pure linePrefix

def prefixText : Script String := do
  let linePrefix ← prefixSnapshot
  pure linePrefix.text

def setMinLevel (level : Level) : Script Unit := do
  store .levelClaimed true
  initOnce
  store .minLevel level

def minLevel : Script Level :=
  load .minLevel

/-- Makes sure that the module table is not taken from the environment after
this. -/
def claimModules : Script Unit := do
  store .modulesClaimed true
  initOnce

/-- Adds a name to the module table; a name that no table accepts does not
even claim it. -/
def enableModule (name : String) : Script Unit :=
  if ModuleTable.acceptable name then do
    claimModules
    changeModules fun table => table.enable name
  else
    pure ()

def disableModule (name : String) : Script Unit :=
  if name = "" then
    pure ()
  else do
    claimModules
    changeModules fun table => table.disable name

/-- Empties the module table, so that every module passes. -/
def enableAllModules : Script Unit := do
  claimModules
  changeModules fun _ => ModuleTable.empty

/-- Whether a message of the named module passes.  The table is looked at only
if it is noted as letting some modules through and not others. -/
def moduleIsEnabled (name : String) : Script Bool := do
  let active ← load .filterActive
  if active then do
    perform (.acquire .config)
    let table ← load .modules
    perform (.release .config false)
    pure (table.allows name)
  else
    pure true

def enabledModules : Script (List String) := do
  perform (.acquire .config)
  let table ← load .modules
  perform (.release .config false)
  pure table.names

def setThreadSafe (on : Bool) : Script Unit :=
  store .threadSafe on

def isThreadSafe : Script Bool :=
  load .threadSafe

def setTimestamps (on : Bool) : Script Unit :=
  store .timestamps on

def setSourceLocation (on : Bool) : Script Unit :=
  store .sourceLocation on

def setColorMode (mode : ColorMode) : Script Unit :=
  store .colorMode mode

def colorMode : Script ColorMode :=
  load .colorMode

def setDestination (destination : Destination) : Script Unit :=
  store .destination destination

def destination : Script Destination :=
  load .destination

def colorEnabled : Script Bool := do
  let mode ← load .colorMode
  let host ← perform .readHost
  pure (mode.enabled host.terminal)

def colorEscape (color : Color) : Script String := do
  let colored ← colorEnabled
  pure (if colored then color.escape else "")

end LeveledLog.Logger
