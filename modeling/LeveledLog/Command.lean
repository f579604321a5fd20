/-
Every call on a logger as data, with the messages that calls carry.

A message is a literal text, or is rendered from parts.  A part adds a text,
fails, panics, or makes a call of its own on the same logger; a failure or a
panic, also one that comes out of such a call, means that the message cannot
be rendered.  Parts are gone through from left to right, up to the first that
fails.

`Command.script` gives the script of a call.  Calls and messages contain each
other to any depth, and so do their scripts.
-/

import LeveledLog.Facade

namespace LeveledLog

inductive Value where
  | nothing
  | truth (value : Bool)
  | text (value : String)
  | level (value : Level)
  | names (value : List String)
  | colorMode (value : ColorMode)
  | destination (value : Destination)
  | installed (result : Except Facade.InstallError Unit)

mutual

inductive Message where
  | literal (text : String)
  | rendered (parts : List Part)

inductive Part where
  | text (text : String)
  | fails
  | panics (text : String)
  | calls (command : Command)

/-- A call on a logger, or a change of its surroundings. -/
inductive Command where
  | initOnce
  | enable
  | disable
  | isEnabled
  | setPrefix (text : String)
  | prefixText
  | setMinLevel (level : Level)
  | minLevel
  | enableModule (name : String)
  | disableModule (name : String)
  | enableAllModules
  | moduleIsEnabled (name : String)
  | enabledModules
  | setThreadSafe (on : Bool)
  | isThreadSafe
  | setTimestamps (on : Bool)
  | setSourceLocation (on : Bool)
  | setColorMode (mode : ColorMode)
  | colorMode
  | setDestination (destination : Destination)
  | destination
  | colorEscape (color : Color)
  | writeRaw (bytes : Bytes)
  | writeText (text : String)
  | writeDecimal (word : UInt64)
  | writeHexadecimal (word : UInt64)
  | writeHeading (level : Level)
  | wouldLog (level : Level) (moduleName : Option String)
  | log (entry : Entry) (message : Message)
  | facadeEnabled (severity : Facade.Severity) (target : String)
  | facadeLog (record : Facade.Record) (message : Message)
  | facadeFlush
  | facadeInstall
  | setClock (time : ClockTime)
  | arm (name : SinkName) (reactions : Tape Reaction)
  | collect (destination : Destination)

end

namespace Value

def ofUnit : Unit → Value :=
  fun _ => .nothing

end Value

mutual

def Command.script : Command → Script Value
  | .initOnce => Value.ofUnit <$> Logger.initOnce
  | .enable => Value.ofUnit <$> Logger.enable
  | .disable => Value.ofUnit <$> Logger.disable
  | .isEnabled => Value.truth <$> Logger.isEnabled
  | .setPrefix text => Value.ofUnit <$> Logger.setPrefix text
  | .prefixText => Value.text <$> Logger.prefixText
  | .setMinLevel level => Value.ofUnit <$> Logger.setMinLevel level
  | .minLevel => Value.level <$> Logger.minLevel
  | .enableModule name => Value.ofUnit <$> Logger.enableModule name
  | .disableModule name => Value.ofUnit <$> Logger.disableModule name
  | .enableAllModules => Value.ofUnit <$> Logger.enableAllModules
  | .moduleIsEnabled name => Value.truth <$> Logger.moduleIsEnabled name
  | .enabledModules => Value.names <$> Logger.enabledModules
  | .setThreadSafe on => Value.ofUnit <$> Logger.setThreadSafe on
  | .isThreadSafe => Value.truth <$> Logger.isThreadSafe
  | .setTimestamps on => Value.ofUnit <$> Logger.setTimestamps on
  | .setSourceLocation on => Value.ofUnit <$> Logger.setSourceLocation on
  | .setColorMode mode => Value.ofUnit <$> Logger.setColorMode mode
  | .colorMode => Value.colorMode <$> Logger.colorMode
  | .setDestination destination =>
      Value.ofUnit <$> Logger.setDestination destination
  | .destination => Value.destination <$> Logger.destination
  | .colorEscape color => Value.text <$> Logger.colorEscape color
  | .writeRaw bytes => Value.ofUnit <$> Logger.writeRaw bytes
  | .writeText text => Value.ofUnit <$> Logger.writeText text
  | .writeDecimal word => Value.ofUnit <$> Logger.writeDecimal word
  | .writeHexadecimal word => Value.ofUnit <$> Logger.writeHexadecimal word
  | .writeHeading level => Value.ofUnit <$> Logger.writeHeading level
  | .wouldLog level moduleName =>
      Value.truth <$> Logger.wouldLog level moduleName
  | .log entry message => Value.ofUnit <$> Logger.log entry message.render
  | .facadeEnabled severity target =>
      Value.truth <$> Facade.enabled severity target
  | .facadeLog record message =>
      Value.ofUnit <$> Facade.log record message.render
  | .facadeFlush => pure .nothing
  | .facadeInstall => Value.installed <$> Facade.install
  | .setClock time => Value.ofUnit <$> Script.perform (.setClock time)
  | .arm name reactions =>
      Value.ofUnit <$> Script.perform (.arm name reactions)
  | .collect destination =>
      Value.ofUnit <$> Script.perform (.collect destination)

/-- The script that renders a message; it ends without a text if the message
cannot be rendered, and never in a panic. -/
def Message.render : Message → Script (Option String)
  | .literal text => pure (some text)
  | .rendered parts => do
      match ← (Part.renderAll parts).attempt with
      | .ok rendered => pure rendered
      | .error _ => pure none

def Part.render : Part → Script (Option String)
  | .text text => pure (some text)
  | .fails => pure none
  | .panics text => .panic text
  | .calls command => do
      let _ ← command.script
      pure (some "")

def Part.renderAll : List Part → Script (Option String)
  | [] => pure (some "")
  | part :: parts => do
      match ← part.render with
      | none => pure none
      | some first => do
          let rest ← Part.renderAll parts
          pure (rest.map fun text => first ++ text)

end

end LeveledLog
