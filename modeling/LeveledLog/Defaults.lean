/-
The fixed limits and initial settings of a logger.
-/

import LeveledLog.Level

namespace LeveledLog

def moduleLimit : Nat := 32

/-- Bytes kept for one module name, one of which stays free. -/
def moduleNameCapacity : Nat := 32

/-- Bytes kept for the line prefix, one of which stays free. -/
def prefixCapacity : Nat := 64

def defaultPrefix : String := "==ct=="

def defaultLevel : Level := .info

def formatErrorLine : String := "coretrace: log format error\n"

def unknownFile : String := "<unknown>"

end LeveledLog
