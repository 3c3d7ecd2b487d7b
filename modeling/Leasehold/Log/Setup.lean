import Leasehold.Log.Entry

/-!
# Where the log goes

* `Log.Rotation`: when a log file is followed by the next.
* `Log.Setup`: the console, the files, and their levels.
* `Log.Setup.ofChoices`: the setup that an operator chose.
-/

namespace Leasehold

/-- When a log file is followed by the next. -/
inductive Log.Rotation where
  | daily
  | hourly
  | never
  deriving Repr, DecidableEq, Inhabited

namespace Log.Rotation

/-- The name of a rotation. -/
def name : Rotation → String
  | daily => "Daily"
  | hourly => "Hourly"
  | never => "Never"

/-- The rotations. -/
def all : List Rotation := [daily, hourly, never]

/-- The rotation of a name in any case. -/
def ofText? (text : String) : Option Rotation :=
  all.find? fun rotation => text.toLower == rotation.name.toLower

/-- What is said of a name that no rotation has. -/
def unknownMessage (text : String) : String := s!"unknown log rotation '{text.toLower}'"

end Log.Rotation

/-- Where the log goes: the directory of the files, and for console and files whether
they are written and how detailed. -/
structure Log.Setup where
  directory : String
  console : Bool
  consoleLevel : Log.Level
  files : Bool
  fileLevel : Log.Level
  rotation : Log.Rotation
  deriving Repr, DecidableEq

namespace Log.Setup

/-- The variable that names the directory of the log files. -/
def directoryVariable : String := "CLUSTERLOCK_LOG_DIR"

/-- The directory of the log files in a home directory, or without one. -/
def standardDirectory (home? : Option String) : String :=
  home?.getD "/tmp" ++ "/clusterlock/logs"

/-- The setup without any choices. -/
def standard (home? : Option String) : Setup :=
  { directory := standardDirectory home?
    console := true
    consoleLevel := .info
    files := true
    fileLevel := .info
    rotation := .daily }

/-- What an operator chose. -/
structure Choices where
  directory? : Option String
  console : Bool
  files : Bool
  level : String
  rotation : Log.Rotation
  deriving Repr, DecidableEq

/-- The chosen setup.  A directory in the environment goes before the chosen one, and a
level that is none counts as `info`. -/
def ofChoices (home? override? : Option String) (choices : Choices) : Setup :=
  let level := (Log.Level.ofText? choices.level).getD .info
  { directory := (override?.or choices.directory?).getD (standardDirectory home?)
    console := choices.console
    consoleLevel := level
    files := choices.files
    fileLevel := level
    rotation := choices.rotation }

end Log.Setup

end Leasehold
