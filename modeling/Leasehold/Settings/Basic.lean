import Leasehold.Lock.Error
import Leasehold.Log.Setup
import Leasehold.Number.Word
import Leasehold.Settings.Environment
import Leasehold.Settings.File
import Leasehold.Settings.Flags
import Leasehold.Settings.Key

/-!
# Settings

Settings come from a file, from the environment and from the flags, each written over
the ones before it.

* `Settings`: the settings with the variables of the process.
* `Settings.loadWith`: the settings of a process, for any way to load its file.
* `Settings.load`: the settings of a process whose file is loaded in the standard way.
* `Settings.get?`: the value under a key.
* `SettingsError`: what can be wrong with a value, `SettingsError.message` its text.
* `Settings.natural`: the reading of a number that is not negative.
-/

namespace Leasehold

/-- What can be wrong with a value. -/
inductive SettingsError where
  | mismatch (key : Settings.Key) (mismatch : Setting.Mismatch)
  | negative (key : Settings.Key) (n : Int)
  | tooLarge
  | noPlace
  | modeMissing
  | modeUnknown (text : String)
  | nameMissing
  | classUnknown (text : String)
  | commandMissing
  | strategyUnknown (text : String)
  | rotationUnknown (text : String)
  | poolInverted (least most : Nat)
  | addressMissing
  deriving Repr, DecidableEq

namespace SettingsError

/-- The text of an error. -/
def message : SettingsError → String
  | mismatch key found => found.message key.text
  | negative key n => s!"{key.text} must not be negative, got {n}"
  | tooLarge => "number too large to fit in target type"
  | noPlace => s!"{Settings.Key.channelCapacity.text} must be at least 1"
  | modeMissing =>
    s!"{Settings.Key.storageMode.text} is required " ++
      "(--storage external_db, or memory for a single process)"
  | modeUnknown text => StorageMode.unknownMessage text
  | nameMissing => s!"lock name is required (--name or {Settings.Key.jobName.text})"
  | classUnknown text => IntervalClass.unknownMessage text
  | commandMissing =>
    s!"no command given (trailing arguments or {Settings.Key.jobCommand.text})"
  | strategyUnknown text =>
    s!"unknown retry strategy '{text.toLower}', expected 'fixed' or 'exponential'"
  | rotationUnknown text => Log.Rotation.unknownMessage text
  | poolInverted least most =>
    s!"{Settings.Key.minConnections.text} ({least}) exceeds "
      ++ s!"{Settings.Key.maxConnections.text} ({most})"
  | addressMissing => s!"{Settings.Key.databaseUrl.text} is required for external_db storage"

/-- The error as one of the service. -/
def toService (error : SettingsError) : ServiceError := .configuration error.message

end SettingsError

/-- The settings of a process, with its variables. -/
structure Settings where
  root : Setting
  environment : Variables
  deriving Repr

/-- Why there are no settings. -/
inductive Settings.LoadError where
  | usage (stop : Flags.Stop)
  | unreadable (path : String)
  deriving Repr, DecidableEq

namespace Settings

/-- The file that is read unless a flag names another. -/
def standardFile : String := "conf/application.yml"

/-- The variable that takes the place of the flag for the database. -/
def databaseVariable : String := "DATABASE_URL"

/-- The key that a flag sets; the flag for the file sets none. -/
def flagKey? : Flag → Option Key
  | .config => none
  | .name => some .jobName
  | .interval => some .jobClass
  | .identity => some .identity
  | .storage => some .storageMode
  | .databaseUrl => some .databaseUrl

/-- The flags that set keys, in the order in which they are written. -/
def keyedFlags : List Flag := [.name, .interval, .identity, .storage, .databaseUrl]

/-- The value of a flag; a variable may stand for the flag of the database. -/
def flagValue? (flags : Flags) (environment : Variables) (flag : Flag) : Option String :=
  match flag with
  | .databaseUrl => (flags.get? flag).or (environment.get? databaseVariable)
  | flag => flags.get? flag

/-- Writes a value under a key. -/
def writeKey (target : Setting) (key : Key) (value : Setting) : Setting :=
  Setting.assignAt value target (.ofNames key.names)

/-- Writes the entries of a file; a name may be a path. -/
def writeFile (target : Setting) (entries : List (String × Setting)) : Setting :=
  entries.foldl (fun target (name, value) =>
    Setting.assignAt value target (Setting.Path.ofText name)) target

/-- Writes the value of a flag, if it has one. -/
def writeFlag (flags : Flags) (environment : Variables) (target : Setting) (flag : Flag) :
    Setting :=
  match flagKey? flag, flagValue? flags environment flag with
  | some key, some text => writeKey target key (.scalar (.text text) none)
  | _, _ => target

/-- Writes the flags and the command. -/
def writeFlags (flags : Flags) (environment : Variables) (target : Setting) : Setting :=
  let target := keyedFlags.foldl (writeFlag flags environment) target
  if flags.command.isEmpty then target
  else
    writeKey target .jobCommand
      (.list (flags.command.map fun word => .scalar (.text word) none) none)

/-- The path of the file that the flags name. -/
def filePath (flags : Flags) : String := (flags.get? .config).getD standardFile

/-- The settings of flags, a folder and variables. -/
def ofFlags (loader : Loader) (folder : Folder) (environment : Variables) (flags : Flags) :
    Except LoadError Settings :=
  match loader folder (filePath flags) with
  | none => .error (.unreadable (filePath flags))
  | some entries =>
    .ok
      { root :=
          writeFlags flags environment
            (environment.writeTo (writeFile Setting.noEntries entries))
        environment := environment }

/-- The settings of a process with some arguments behind the name of its program. -/
def loadWith (loader : Loader) (folder : Folder) (environment : Variables)
    (arguments : List String) : Except LoadError Settings :=
  match Flags.ofArguments arguments with
  | .error stop => .error (.usage stop)
  | .ok flags => ofFlags loader folder environment flags

/-- The settings of a process whose file is loaded in the standard way. -/
def load (folder : Folder) (environment : Variables) (arguments : List String) :
    Except LoadError Settings :=
  loadWith .standard folder environment arguments

/-- The paths at which the file of the settings may lie. -/
def filePaths (arguments : List String) : List String :=
  match Flags.ofArguments arguments with
  | .error _ => []
  | .ok flags => Folder.candidates (filePath flags)

/-! ## Values under keys -/

/-- The value under a key. -/
def get? (settings : Settings) (key : Key) : Option Setting :=
  settings.root.follow? (.ofNames key.names)

/-- The text under a key, if there is one. -/
def text? (settings : Settings) (key : Key) : Option String :=
  (settings.get? key).bind Setting.toText?

/-- The number under a key, which has to be an integer and not negative; without a value
it is a standard one. -/
def natural (settings : Settings) (key : Key) (standard : Nat) : Except SettingsError Nat :=
  match settings.get? key with
  | none => .ok standard
  | some value =>
    match value.toInt with
    | .error mismatch => .error (.mismatch key mismatch)
    | .ok n => if n < 0 then .error (.negative key n) else .ok n.toNat

/-- A number that has to fit 32 bits. -/
def within32 (n : Nat) : Except SettingsError Nat :=
  if n ≤ Word.maxNat 32 then .ok n else .error .tooLarge

end Settings

end Leasehold
