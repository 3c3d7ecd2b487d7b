import Leasehold.Log.Setup
import Leasehold.Manager.Options
import Leasehold.Settings.Basic

/-!
# What the settings say

Each question about the service has a key, a reading and a standard answer.

* `Settings.lockName`, `Settings.lockClass`, `Settings.jobCommand`: what to run.
* `Settings.storageMode`, `Settings.poolSize`: where the locks are.
* `Settings.leasePolicies`, `Settings.retryPolicy`, `Settings.maxFailures`: how locks are
  kept.
* `Settings.managerOptions`: the options of the lock manager.
* `Settings.logSetup`: where the log goes.
-/

namespace Leasehold

namespace Settings

/-! ## The node and its job -/

/-- The identity, if one was chosen. -/
def chosenIdentity? (settings : Settings) : Option String := settings.text? .identity

/-- The identity: the chosen one, or the address of the machine. -/
def identity (settings : Settings) (address : String) : String :=
  settings.chosenIdentity?.getD address

/-- The kind of store.  It has to be chosen: a memory store is seen by one process only,
so that every node that fell back to it would believe that it holds the lock. -/
def storageMode (settings : Settings) : Except SettingsError StorageMode :=
  match settings.text? .storageMode with
  | none => .error .modeMissing
  | some text =>
    match StorageMode.ofName? text with
    | some mode => .ok mode
    | none => .error (.modeUnknown text)

/-- The name of the lock. -/
def lockName (settings : Settings) : Except SettingsError String :=
  match settings.text? .jobName with
  | some name => .ok name
  | none => .error .nameMissing

/-- The interval class of the lock. -/
def lockClass (settings : Settings) : Except SettingsError IntervalClass :=
  match settings.text? .jobClass with
  | none => .ok .short
  | some text =>
    match IntervalClass.ofName? text with
    | some interval => .ok interval
    | none => .error (.classUnknown text)

/-- The command to run with its arguments. -/
def jobCommand (settings : Settings) : Except SettingsError (List String) :=
  let command := ((settings.get? .jobCommand).bind Setting.toTexts?).getD []
  if command.isEmpty then .error .commandMissing else .ok command

/-! ## The lock manager -/

/-- The database of the lock table unless configured. -/
def standardDatabase : String := "d_meta"

/-- The lock table unless configured. -/
def standardTable : String := "t_lock"

/-- The database of the lock table. -/
def lockDatabase (settings : Settings) : String :=
  (settings.text? .lockDatabase).getD standardDatabase

/-- The lock table. -/
def lockTable (settings : Settings) : String := (settings.text? .lockTable).getD standardTable

/-- How many heartbeats in a row may fail. -/
def maxFailures (settings : Settings) : Except SettingsError Nat :=
  match settings.natural .maxFailures Manager.Options.standardMaxFailures with
  | .error e => .error e
  | .ok n => within32 n

/-- How many lost leases may be queued, unless configured. -/
def standardCapacity : Nat := 1

/-- How many lost leases may be queued. -/
def channelCapacity (settings : Settings) : Except SettingsError Nat :=
  match settings.natural .channelCapacity standardCapacity with
  | .error e => .error e
  | .ok n => if n = 0 then .error .noPlace else .ok n

/-- How long a shutdown waits for the command, in seconds, unless configured. -/
def standardShutdownSeconds : Nat := 10

/-- How long a shutdown waits for the command. -/
def shutdownTimeout (settings : Settings) : Except SettingsError Span :=
  match settings.natural .shutdownTimeout standardShutdownSeconds with
  | .error e => .error e
  | .ok seconds => .ok (.ofSeconds seconds)

/-- The strategies of waiting between attempts. -/
inductive Strategy where
  | fixed
  | exponential
  deriving Repr, DecidableEq

/-- The name of a strategy. -/
def Strategy.name : Strategy → String
  | fixed => "fixed"
  | exponential => "exponential"

/-- The strategy of a name in any case. -/
def Strategy.ofName? (text : String) : Option Strategy :=
  [fixed, exponential].find? fun strategy => text.toLower == strategy.name

/-- The first ceiling in milliseconds, unless configured. -/
def standardInitialMillis : Nat := 1000

/-- The last ceiling in milliseconds, unless configured. -/
def standardMaxMillis : Nat := 60000

/-- The growth of the ceiling, unless configured. -/
def standardMultiplier : Binary64 := .ofNat 2

/-- The growth of the ceiling; what is no number counts as nothing. -/
def multiplier (settings : Settings) : Binary64 :=
  ((settings.get? .retryMultiplier).bind Setting.toBinary64?).getD standardMultiplier

/-- The ceilings of jittered delays. -/
def jitter (settings : Settings) : Except SettingsError RetryPolicy :=
  match settings.natural .retryInitial standardInitialMillis with
  | .error e => .error e
  | .ok initial =>
    match settings.natural .retryMax standardMaxMillis with
    | .error e => .error e
    | .ok most => .ok (.jittered (.ofMillis initial) (.ofMillis most) settings.multiplier)

/-- How to wait between attempts, before it is checked. -/
def uncheckedRetryPolicy (settings : Settings) : Except SettingsError RetryPolicy :=
  let text := (settings.text? .retryStrategy).getD Strategy.fixed.name
  match Strategy.ofName? text with
  | none => .error (.strategyUnknown text)
  | some .fixed => .ok .fixed
  | some .exponential => settings.jitter

/-- How to wait between attempts. -/
def retryPolicy (settings : Settings) : Except ServiceError RetryPolicy :=
  match settings.uncheckedRetryPolicy with
  | .error e => .error e.toService
  | .ok policy =>
    match policy.validate with
    | .error e => .error e.toService
    | .ok () => .ok policy

/-- The lease policy that the settings give a class, before it is checked. -/
def uncheckedLeasePolicy (settings : Settings) (interval : IntervalClass)
    (current : LeasePolicy) : Except SettingsError LeasePolicy :=
  match settings.natural (.lease interval.name) current.lease.seconds with
  | .error e => .error e
  | .ok lease =>
    match settings.natural (.heartbeat interval.name) current.heartbeat.seconds with
    | .error e => .error e
    | .ok heartbeat => .ok ⟨.ofSeconds lease, .ofSeconds heartbeat⟩

/-- The table with the lease policy that the settings give a class; one that is not
changed is not checked again. -/
def overrideClass (settings : Settings) (table : PolicyTable) (interval : IntervalClass) :
    Except ServiceError PolicyTable :=
  match settings.uncheckedLeasePolicy interval (table.get interval) with
  | .error e => .error e.toService
  | .ok policy =>
    if policy = table.get interval then .ok table
    else
      match table.withPolicy interval policy with
      | .error e => .error e.toService
      | .ok table => .ok table

/-- The standard lease policies with those of the settings written over them. -/
def leasePolicies (settings : Settings) : Except ServiceError PolicyTable :=
  match settings.overrideClass .standard .short with
  | .error e => .error e
  | .ok table => settings.overrideClass table .medium

/-- The options of the lock manager on a machine. -/
def managerOptions (settings : Settings) (address : String) :
    Except ServiceError Manager.Options :=
  match settings.leasePolicies with
  | .error e => .error e
  | .ok policies =>
    match settings.retryPolicy with
    | .error e => .error e
    | .ok retry =>
      match settings.maxFailures with
      | .error e => .error e.toService
      | .ok failures =>
        .ok
          { identity := settings.identity address
            space := lockSpace settings.lockDatabase settings.lockTable
            policies := policies
            retry := retry
            maxFailures := failures }

/-! ## The log -/

/-- When a log file is followed by the next. -/
def logRotation (settings : Settings) : Except SettingsError Log.Rotation :=
  match settings.text? .logRotation with
  | none => .ok .daily
  | some text =>
    match Log.Rotation.ofText? text with
    | some rotation => .ok rotation
    | none => .error (.rotationUnknown text)

/-- The truth value under a key; what is none counts as nothing. -/
def truth (settings : Settings) (key : Key) (standard : Bool) : Bool :=
  ((settings.get? key).bind Setting.toBool?).getD standard

/-- Where the log goes. -/
def logSetup (settings : Settings) : Except SettingsError Log.Setup :=
  match settings.logRotation with
  | .error e => .error e
  | .ok rotation =>
    .ok (Log.Setup.ofChoices (settings.environment.get? "HOME")
      (settings.environment.get? Log.Setup.directoryVariable)
      { directory? := settings.text? .logPath
        console := settings.truth .logConsole true
        files := settings.truth .logFile false
        level := (settings.text? .logLevel).getD "info"
        rotation := rotation })

/-! ## The database -/

/-- A number of connections under a key. -/
def connections (settings : Settings) (key : Key) (standard : Nat) : Except SettingsError Nat :=
  match settings.natural key standard with
  | .error e => .error e
  | .ok n => within32 n

/-- The most and the fewest connections of the pool. -/
def poolSize (settings : Settings) : Except SettingsError (Nat × Nat) :=
  match settings.connections .maxConnections 10 with
  | .error e => .error e
  | .ok most =>
    match settings.connections .minConnections 1 with
    | .error e => .error e
    | .ok least => if most < least then .error (.poolInverted least most) else .ok (most, least)

end Settings

end Leasehold
