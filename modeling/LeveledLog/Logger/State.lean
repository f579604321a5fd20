/-
The state of a logger.

A logger has a number of cells, each of which is read and written in one step;
two locks; and an initialisation that is pending, running or complete.  The
line prefix and the module table are guarded by the configuration lock, and a
whole line is written under the output lock.  A lock remembers which thread
holds it, and whether a holder panicked, which keeps nobody from taking it
later.
-/

import LeveledLog.ModuleTable
import LeveledLog.Surroundings

namespace LeveledLog

inductive Cell where
  | enabled | minLevel | timestamps | sourceLocation | threadSafe | colorMode
  | levelClaimed | modulesClaimed | filterActive
  | destination | linePrefix | modules
deriving DecidableEq

abbrev LinePrefix := InlineText prefixCapacity

@[reducible] def Cell.Value : Cell → Type
  | .minLevel => Level
  | .colorMode => ColorMode
  | .destination => Destination
  | .linePrefix => LinePrefix
  | .modules => ModuleTable
  | .enabled | .timestamps | .sourceLocation | .threadSafe => Bool
  | .levelClaimed | .modulesClaimed | .filterActive => Bool

structure Settings where
  enabled : Bool
  minLevel : Level
  timestamps : Bool
  sourceLocation : Bool
  threadSafe : Bool
  colorMode : ColorMode
  levelClaimed : Bool
  modulesClaimed : Bool
  filterActive : Bool
  destination : Destination
  linePrefix : LinePrefix
  modules : ModuleTable
deriving DecidableEq

namespace Settings

def initial : Settings where
  enabled := false
  minLevel := defaultLevel
  timestamps := false
  sourceLocation := false
  threadSafe := true
  colorMode := ColorMode.standard
  levelClaimed := false
  modulesClaimed := false
  filterActive := false
  destination := .standard
  linePrefix := InlineText.truncating defaultPrefix
  modules := ModuleTable.empty

def get (settings : Settings) : (cell : Cell) → cell.Value
  | .enabled => settings.enabled
  | .minLevel => settings.minLevel
  | .timestamps => settings.timestamps
  | .sourceLocation => settings.sourceLocation
  | .threadSafe => settings.threadSafe
  | .colorMode => settings.colorMode
  | .levelClaimed => settings.levelClaimed
  | .modulesClaimed => settings.modulesClaimed
  | .filterActive => settings.filterActive
  | .destination => settings.destination
  | .linePrefix => settings.linePrefix
  | .modules => settings.modules

def set (settings : Settings) : (cell : Cell) → cell.Value → Settings
  | .enabled, value => { settings with enabled := value }
  | .minLevel, value => { settings with minLevel := value }
  | .timestamps, value => { settings with timestamps := value }
  | .sourceLocation, value => { settings with sourceLocation := value }
  | .threadSafe, value => { settings with threadSafe := value }
  | .colorMode, value => { settings with colorMode := value }
  | .levelClaimed, value => { settings with levelClaimed := value }
  | .modulesClaimed, value => { settings with modulesClaimed := value }
  | .filterActive, value => { settings with filterActive := value }
  | .destination, value => { settings with destination := value }
  | .linePrefix, value => { settings with linePrefix := value }
  | .modules, value => { settings with modules := value }

@[simp] theorem get_set_same (settings : Settings) (cell : Cell)
    (value : cell.Value) :
    (settings.set cell value).get cell = value := by
  cases cell <;> rfl

theorem get_set_of_ne (settings : Settings) {written read : Cell}
    (value : written.Value) (different : read ≠ written) :
    (settings.set written value).get read = settings.get read := by
  cases written <;> cases read <;> first | rfl | exact absurd rfl different

end Settings

inductive LockName where
  | config | output
deriving DecidableEq

structure Lock where
  holder : Option Nat
  poisoned : Bool
deriving DecidableEq

def Lock.free : Lock where
  holder := none
  poisoned := false

inductive Initialisation where
  | pending | running | complete
deriving DecidableEq

structure World where
  settings : Settings
  configLock : Lock
  outputLock : Lock
  initialisation : Initialisation
  surroundings : Surroundings

namespace World

def fresh (surroundings : Surroundings) : World where
  settings := Settings.initial
  configLock := Lock.free
  outputLock := Lock.free
  initialisation := .pending
  surroundings := surroundings

/-- The logger that a process shares: its defaults have been applied and its
level and modules have been set before, and it takes the messages of the log
facade. -/
def shared (surroundings : Surroundings) : World :=
  { fresh { surroundings with facadeTaken := true } with
    settings :=
      { Settings.initial with levelClaimed := true, modulesClaimed := true }
    initialisation := .complete }

def get (world : World) (cell : Cell) : cell.Value :=
  world.settings.get cell

def set (world : World) (cell : Cell) (value : cell.Value) : World :=
  { world with settings := world.settings.set cell value }

@[simp] theorem get_set_same (world : World) (cell : Cell)
    (value : cell.Value) :
    (world.set cell value).get cell = value :=
  Settings.get_set_same world.settings cell value

theorem get_set_of_ne (world : World) {written read : Cell}
    (value : written.Value) (different : read ≠ written) :
    (world.set written value).get read = world.get read :=
  Settings.get_set_of_ne world.settings value different

def lock (world : World) : LockName → Lock
  | .config => world.configLock
  | .output => world.outputLock

def setLock (world : World) (name : LockName) (lock : Lock) : World :=
  match name with
  | .config => { world with configLock := lock }
  | .output => { world with outputLock := lock }

end World

end LeveledLog
