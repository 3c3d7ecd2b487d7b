import Leasehold.Settings.Reading
import Leasehold.Sql.Address
import Leasehold.Store.Backend

/-!
# The store that the settings choose

* `Settings.databaseAddress`: the address of the database.
* `Settings.openStore`: the store, opened.
* `Settings.databaseFile?`: the file of the database.
-/

namespace Leasehold

namespace Settings

/-- How many seconds a connection may take, unless configured. -/
def standardConnectSeconds : Nat := 30

/-- How many seconds a place in the pool may take, unless configured. -/
def standardAcquireSeconds : Nat := 8

/-- The address of the database; what surrounds it is checked first. -/
def databaseAddress (settings : Settings) : Except SettingsError String :=
  match settings.poolSize with
  | .error e => .error e
  | .ok _ =>
    match settings.natural .connectTimeout standardConnectSeconds with
    | .error e => .error e
    | .ok _ =>
      match settings.natural .acquireTimeout standardAcquireSeconds with
      | .error e => .error e
      | .ok _ =>
        match settings.text? .databaseUrl with
        | some address => .ok address
        | none => .error .addressMissing

/-- The database that the settings name, seen from a folder. -/
def openDatabase (settings : Settings) (folder : Folder) : Except ServiceError RecordStore :=
  match settings.databaseAddress with
  | .error e => .error e.toService
  | .ok address =>
    match Sql.Address.connect folder address with
    | .error fault => .error (.database fault.message)
    | .ok database => .ok (.sqlite database)

/-- The store that the settings choose, seen from a folder. -/
def openStore (settings : Settings) (folder : Folder) : Except ServiceError RecordStore :=
  match settings.storageMode with
  | .error e => .error e.toService
  | .ok .memory => .ok (.memory .empty)
  | .ok .externalDatabase => settings.openDatabase folder

/-- The file of the database, if the settings choose one that has a file. -/
def databaseFile? (settings : Settings) : Option String :=
  match settings.storageMode, settings.databaseAddress with
  | .ok .externalDatabase, .ok address =>
    (Sql.Address.Sqlite.ofAddress address).toOption.bind Sql.Address.Sqlite.file?
  | _, _ => none

end Settings

end Leasehold
