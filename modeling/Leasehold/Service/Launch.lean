import Leasehold.Command.Job
import Leasehold.Log.Sink
import Leasehold.Service.Stop
import Leasehold.Settings.Storage
import Leasehold.Simulation.Operator
import Leasehold.Simulation.Program

/-!
# Launching the service

* `Service.LaunchError`: why the service does not start.
* `Service.Plan`: what the settings ask for, read in the order in which it is needed.
* `Service.Report`: what is seen of the service from outside.
* `Service.Plan.tend`: the heartbeats while the command runs.
* `Service.Plan.report`: what the service stops for, and what is seen of it then.
* `Service.launch`: the service from its arguments to its report, on a simulated
  machine.
-/

namespace Leasehold

/-- Why the service does not start. -/
inductive Service.LaunchError where
  | load (error : Settings.LoadError)
  | settings (error : ServiceError)
  | log (error : Log.SetupError)
  | command (failure : Command.Failure)
  | lock (error : LockError)
  deriving Repr

/-- What is seen of the service from outside. -/
structure Service.Report where
  code : Nat
  output : String
  errorOutput : String
  deriving Repr, DecidableEq

/-- What the settings ask for. -/
structure Service.Plan where
  name : String
  interval : IntervalClass
  command : Command
  store : RecordStore
  databaseFile? : Option String
  capacity : Nat
  options : Manager.Options
  deriving Repr

namespace Service

/-- The text of an error of loading; the details of an unreadable file are left out. -/
def loadMessage : Settings.LoadError → String
  | .usage stop => stop.message?.getD ""
  | .unreadable path => (ServiceError.configuration path).message

/-- The text of an error. -/
def LaunchError.message : LaunchError → String
  | load error => loadMessage error
  | settings error => error.message
  | log error => error.message
  | command failure => failure.message
  | lock error => error.message

/-- What is seen of a service that does not start.  The help is no failure, and a wrong
command line has a code of its own. -/
def LaunchError.report : LaunchError → Report
  | load (.usage .help) => ⟨0, "", ""⟩
  | load (.usage stop) => ⟨2, "", loadMessage (.usage stop) ++ "\n"⟩
  | error => ⟨1, "", "Error: " ++ error.message ++ "\n"⟩

/-- Reads a setting or fails. -/
def required {α : Type} (value : Except SettingsError α) : Except LaunchError α :=
  value.mapError fun e => .settings e.toService

/-- What the settings ask for on a machine with an address. -/
def Plan.ofSettings (settings : Settings) (folder : Folder) (address : String) :
    Except LaunchError Plan := do
  let setup ← required settings.logSetup
  let (started, _) :=
    Log.Logger.start setup (settings.environment.get? "RUST_LOG")
      (folder.obstacle? setup.directory) none
  let _ ← started.mapError .log
  let name ← required settings.lockName
  let interval ← required settings.lockClass
  let words ← required settings.jobCommand
  let command ← (Command.ofWords? words).mapError .command
  let store ← (settings.openStore folder).mapError .settings
  let capacity ← required settings.channelCapacity
  let options ← (settings.managerOptions address).mapError .settings
  pure
    { name := name
      interval := interval
      command := command
      store := store
      databaseFile? := settings.databaseFile?
      capacity := capacity
      options := options }

/-- The world of a plan after its lock was asked for. -/
def Plan.begin (plan : Plan) (start : Instant) : Except LaunchError World := do
  let manager ← (Manager.new plan.options plan.capacity).mapError .lock
  let station := Station.ofManager manager start
  let (prepared, world) := (World.ofStations [station] plan.store).prepare 0 station
  let _ ← prepared.mapError .lock
  let (registered, world) := world.run 0 station plan.name plan.interval ⟨plan.name, .wait⟩
  let _ ← registered.mapError .lock
  pure world

/-- What a call of the store is told once the file of the database was overwritten. -/
def ruined : Fault :=
  { Fault.plain with
    verdict := .fails (DatabaseFault.refused .execution 26 "file is not a database").message }

/-- Whether a file is the one of the database of a plan. -/
def Plan.isDatabase (plan : Plan) (file : String) : Bool :=
  plan.databaseFile?.any (Folder.samePath file)

/-- The world of a plan at a time of its command.  No heartbeat succeeds after the command has
overwritten the file of the database. -/
def Plan.tend (plan : Plan) (process : Process) (world : World) (time : Nat) : World :=
  match (process.overwritings plan.isDatabase).find? (· < time) with
  | none => World.passTime time world.now world
  | some ruin =>
    let world := World.passTime ruin world.now world
    let world := world.enqueue 0 "update" (List.replicate plan.options.maxFailures ruined)
    World.passTime time ruin world

/-- The lost lease that the service hears of in a world, and when its command was killed. -/
def lossIn? (world : World) : Option (Nat × LeaseLoss) :=
  match world.station? 0, world.notes.find? fun note => note.what == "cancelled" with
  | some station, some note =>
    match (world.receive 0 station).1 with
    | .loss loss => some (note.time, loss)
    | _ => none
  | _, _ => none

/-- The signal that asks the service to stop, and when its command sends it. -/
def signalOf? (process : Process) : Option (Stop × Nat) :=
  (process.firstSignal? Process.stopSignals.contains).map fun (time, _) => (.signal, time)

/-- The end of a command for which the service stops. -/
def endOf (process : Process) : Stop × Nat :=
  (.commandEnded (Command.outcome process none), process.duration)

/-- The first of what the service may stop for.  Whatever comes with the end of the command
comes too late. -/
def firstStop (ended : Stop × Nat) (others : List (Stop × Nat)) : Stop × Nat :=
  others.foldl (fun first other => if other.2 < first.2 then other else first) ended

/-- What is seen of a service that stops while its command runs in a world.  The limit of the
wait is read when it is needed. -/
def Plan.reportOf (plan : Plan) (limit : Except SettingsError Span) (process : Process)
    (world : World) (stop : Stop) (time : Nat) : Report :=
  let events := process.before time
  let awaits := ((world.station? 0).map fun station =>
    (leave station.manager plan.name stop).1).getD false
  let failure : Report :=
    match awaits, limit with
    | true, .error e => (LaunchError.settings e.toService).report
    | _, _ => ⟨stop.code, "", ""⟩
  ⟨failure.code, Process.outputOf events, Process.errorOutputOf events ++ failure.errorOutput⟩

/-- What is seen of a service whose lock was asked for. -/
def Plan.report (plan : Plan) (limit : Except SettingsError Span) (process? : Option Process)
    (world : World) : Report :=
  match process? with
  | none => ⟨(Stop.commandEnded (.completed none)).code, "", ""⟩
  | some process =>
    -- A lease is lost by the time of another stop, or it does not matter.
    let (stop, time) := firstStop (endOf process) (signalOf? process).toList
    let lost? := (lossIn? (plan.tend process world time)).map fun (time, loss) =>
      (Stop.leaseLost loss, time)
    let (stop, time) := firstStop (stop, time) lost?.toList
    plan.reportOf limit process (plan.tend process world time) stop time

/-- The moment at which a simulated machine starts; no answer depends on it. -/
def epoch : Instant := ⟨0, 0⟩

/-- The service on a machine with some files, variables and an address. -/
def launch (folder : Folder) (environment : Variables) (address : String)
    (arguments : List String) : Report :=
  let begun : Except LaunchError (Settings × Plan × World) := do
    let settings ← (Settings.load folder environment arguments).mapError .load
    let plan ← Plan.ofSettings settings folder address
    let world ← plan.begin epoch
    pure (settings, plan, world)
  match begun with
  | .error e => e.report
  | .ok (settings, plan, world) =>
    plan.report settings.shutdownTimeout
      (Program.start folder environment Program.deepest plan.command.words) world

end Service

end Leasehold
