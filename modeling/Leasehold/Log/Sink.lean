import Leasehold.Data.Folder
import Leasehold.Log.Filter
import Leasehold.Log.Setup

/-!
# Log sinks

A process sets up its log once.  From then on every entry goes to the console and to
every file whose filter lets it pass.

* `Log.Entry.line`: the line of an entry.
* `Log.Sink`: a filter with the lines that it let pass.
* `Log.Logger`: the sinks of a process, `Log.Logger.start` their beginning.
-/

namespace Leasehold

namespace Log

/-- The line of an entry, without the time. -/
def Entry.line (entry : Entry) : String :=
  let level := entry.level.name
  "".pushn ' ' (5 - level.length) ++ level ++ " main " ++ entry.target ++ ": " ++ entry.message
    ++ String.join (entry.fields.map fun (name, text) => " " ++ name ++ "=" ++ text)

/-- A file that takes the entries of some targets. -/
structure Component where
  file : String
  targets : List String
  deriving Repr, DecidableEq

/-- The file that takes the entries of all targets. -/
def rootFile : String := "clusterlock.log"

/-- The files beside the root file. -/
def components : List Component :=
  [⟨"lock.log", ["clusterlock_core"]⟩,
    ⟨"persistence.log", ["clusterlock_persistence", "sea_orm", "sqlx"]⟩,
    ⟨"job.log", ["clusterlock_server::job"]⟩]

/-- A filter with the lines that it let pass. -/
structure Sink where
  filter : Filter
  lines : List String
  deriving Repr, DecidableEq

/-- Writes an entry if it passes. -/
def Sink.write (entry : Entry) (sink : Sink) : Sink :=
  if sink.filter.passes entry then { sink with lines := sink.lines ++ [entry.line] } else sink

/-- The sinks of a process: a console and files with their names. -/
structure Logger where
  console : Option Sink
  files : List (String × Sink)
  deriving Repr, DecidableEq

/-- Why a log was not set up. -/
inductive SetupError where
  | blocked (obstacle : Folder.Obstacle)
  | repeated
  deriving Repr, DecidableEq

namespace SetupError

/-- The text of an error. -/
def message : SetupError → String
  | blocked obstacle => obstacle.message
  | repeated =>
    "failed to initialize logging: a global default trace dispatcher has already been set"

end SetupError

namespace Logger

/-- Writes an entry wherever it passes. -/
def write (logger : Logger) (entry : Entry) : Logger :=
  { console := logger.console.map (Sink.write entry)
    files := logger.files.map fun (name, sink) => (name, sink.write entry) }

/-- The entry that tells of the files. -/
def filesReady (directory : String) : Entry :=
  { level := .info
    target := "clusterlock_server::startup::logging"
    message :=
      "File logging initialized: " ++ rootFile ++ " (root) + " ++ toString components.length
        ++ " component log files"
    fields := [("log_dir", directory)] }

/-- The filter of the console or the root file: a filter in the environment goes before
the level. -/
def mainFilter (override? : Option String) (level : Level) : Filter :=
  (override?.bind Filter.ofText?).getD (.ofLevel level)

/-- The sinks of a setup. -/
def ofSetup (setup : Setup) (override? : Option String) : Logger :=
  { console :=
      if setup.console then some ⟨mainFilter override? setup.consoleLevel, []⟩ else none
    files :=
      if setup.files then
        (rootFile, ⟨mainFilter override? setup.fileLevel, []⟩)
          :: components.map fun component =>
            (component.file, ⟨.ofTargets component.targets setup.fileLevel, []⟩)
      else [] }

/-- Sets up the log of a process that may have one already: how many files it has, or
why it was not set up, and the log afterwards.  A log is set up once. -/
def start (setup : Setup) (override? : Option String) (obstacle? : Option Folder.Obstacle)
    (logger? : Option Logger) : Except SetupError Nat × Option Logger :=
  match setup.files, obstacle? with
  | true, some obstacle => (.error (.blocked obstacle), logger?)
  | _, _ =>
    match logger? with
    | some logger => (.error .repeated, some logger)
    | none =>
      let logger := ofSetup setup override?
      let ready := if setup.files then logger.write (filesReady setup.directory) else logger
      (.ok logger.files.length, some ready)

end Logger

end Log

end Leasehold
