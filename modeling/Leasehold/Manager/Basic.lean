import Leasehold.Data.OrderedMap
import Leasehold.Lock.Name
import Leasehold.Manager.Cycle
import Leasehold.Manager.Metrics
import Leasehold.Manager.Options
import Leasehold.Manager.Outbox
import Leasehold.Number.Word

/-!
# Lock managers

A manager keeps a registry of the lock names that it holds or wants, and a cycle for
each.  Everything it does is a step: a call by its user, or one move of one cycle.  A
step is atomic, and steps of different cycles come in any order.

* `Manager`: the registry, the shutdown flag, the signals, the outbox and the cycles.
* `Manager.run`: registers a name.
* `Manager.raiseFlag`, `Manager.cancelRegistered`: the two halves of a shutdown.
* `Manager.step`: one move of one cycle.
* `Effect`: what a step does to the world outside.
-/

namespace Leasehold

/-- What is known of a registered name. -/
structure Registration where
  interval : IntervalClass
  state : LockState
  signal : Option SignalId
  deriving Repr, DecidableEq

/-- What a step does to the world outside: it logs, counts, sets a gauge, or starts the
job of a cycle. -/
inductive Effect where
  | log (entry : Log.Entry)
  | count (metric : Metric)
  | gauge (metric : Metric) (value : Nat)
  | startJob (cycle : Nat) (signal : SignalId)
  deriving Repr

/-- What moves a cycle: nothing but its turn, an answer, a deadline, or a shutdown. -/
inductive Stimulus where
  | turn
  | response (response : Response)
  | deadline
  | shutdown
  deriving Repr

/-- When a step happens, in nanoseconds, and the number that a jittered delay is drawn
from. -/
structure Moment where
  now : Nat
  draw : Nat
  deriving Repr, DecidableEq

/-- A lock manager. -/
structure Manager where
  options : Manager.Options
  registry : OrderedMap String Registration
  shutDown : Bool
  signals : Signals
  outbox : Outbox
  cycles : List Cycle
  deriving Repr

namespace Manager

/-- A manager with nothing registered, if its options are accepted. -/
def new (options : Options) (capacity : Nat) : Except LockError Manager :=
  match options.validate with
  | .error e => .error e
  | .ok () =>
    .ok
      { options := options
        registry := ∅
        shutDown := false
        signals := .none
        outbox := .ofCapacity capacity
        cycles := [] }

/-- The state of a name. -/
def state (manager : Manager) (name : String) : LockState :=
  ((manager.registry.get? name).map Registration.state).getD .unregistered

/-- The registered names with their classes, in the order of the names. -/
def registered (manager : Manager) : List (String × IntervalClass) :=
  manager.registry.entries.map fun (name, registration) => (name, registration.interval)

/-- The lease policy of a class. -/
def policy (manager : Manager) (interval : IntervalClass) : LeasePolicy :=
  manager.options.policies.get interval

/-- Who claims a name. -/
def claimant (manager : Manager) (name : String) : Claimant :=
  ⟨manager.options.space, manager.options.identity, name⟩

/-- An entry of the manager's own log. -/
def entry (level : Log.Level) (message : String) (fields : List (String × String)) : Effect :=
  .log ⟨level, "clusterlock_core::manager", message, fields⟩

/-- An entry of the log of heartbeats. -/
def heartbeatEntry (level : Log.Level) (message : String) (fields : List (String × String)) :
    Effect :=
  .log ⟨level, "clusterlock_core::heartbeat", message, fields⟩

/-- What is logged of a job that came to its end. -/
def jobFinished (name : String) : Log.Entry :=
  ⟨.info, "clusterlock_core::manager", "Job finished", [("lock", name)]⟩

/-- What is logged of a job that failed. -/
def jobFailed (name text : String) : Log.Entry :=
  ⟨.error, "clusterlock_core::manager", "Job failed", [("error", text), ("lock", name)]⟩

/-! ## Calls by the user -/

/-- Registers a name and begins its cycle; whether it was free. -/
def run (manager : Manager) (name : String) (interval : IntervalClass) :
    Except LockError Bool × Manager × List Effect :=
  if manager.shutDown then (.error .shutDown, manager, [])
  else if !Lock.isName name then (.error (.invalidName name), manager, [])
  else if manager.registry.contains name then
    (.ok false, manager,
      [entry .info "Lock already registered in this process, ignoring" [("lock", name)]])
  else
    let cycle := Cycle.start name interval manager.options.retry (manager.policy interval).lease
    (.ok true,
      { manager with
        registry := manager.registry.insert name ⟨interval, .acquiring, none⟩
        cycles := manager.cycles ++ [cycle] },
      [entry .info "Lock registered"
        [("class", interval.name), ("lock", name), ("owner", manager.options.identity)]])

/-- The first half of a shutdown: no cycle makes an attempt or a heartbeat after it has
seen the flag. -/
def raiseFlag (manager : Manager) : Manager := { manager with shutDown := true }

/-- The second half of a shutdown: the signal of every registered name is cancelled. -/
def cancelRegistered (manager : Manager) : Manager :=
  { manager with
    signals := manager.signals.cancelAll (manager.registry.values.filterMap Registration.signal) }

/-- Shuts a manager down; a second time does nothing. -/
def shutdown (manager : Manager) : Manager × List Effect :=
  if manager.shutDown then (manager, [])
  else
    (manager.raiseFlag.cancelRegistered,
      [entry .info "Shutting down lock manager" [("owner", manager.options.identity)]])

/-! ## Moves of cycles -/

/-- The manager with a cycle in another phase. -/
def setPhase (manager : Manager) (id : Nat) (cycle : Cycle) (phase : Cycle.Phase) : Manager :=
  { manager with cycles := manager.cycles.set id { cycle with phase := phase } }

/-- Marks a registered name. -/
def mark (manager : Manager) (name : String) (state : LockState) (signal : Option SignalId) :
    Manager :=
  { manager with
    registry :=
      manager.registry.modify name fun registration =>
        { registration with state := state, signal := signal } }

/-- Takes a name out of the registry. -/
def deregister (manager : Manager) (name : String) : Manager :=
  { manager with registry := manager.registry.erase name }

/-- Cancels a signal. -/
def cancel (manager : Manager) (signal : SignalId) : Manager :=
  { manager with signals := manager.signals.cancel signal }

/-- What is counted and logged of an attempt that did not get the lock. -/
def missed (name : String) : Except LockError Outcome → List Effect
  | .error e =>
    [.count (.attempts name "error"),
      entry .warn "Lock acquisition attempt failed" [("error", e.message), ("lock", name)]]
  | .ok outcome =>
    .count (.attempts name outcome.label) ::
      match outcome with
      | .heldElsewhere owner elapsed =>
        [entry .debug "Lock held by another node"
          [("elapsed_secs", toString elapsed.seconds), ("lock", name), ("owner", owner)]]
      | .lostRace => [entry .debug "Lost acquisition race" [("lock", name)]]
      | .acquired _ => []

/-- After an attempt without success a cycle waits for the next delay. -/
def retryLater (manager : Manager) (id : Nat) (cycle : Cycle) (moment : Moment)
    (result : Except LockError Outcome) : Manager × List Effect :=
  let delay := cycle.backoff.delay moment.draw
  let backoff := cycle.backoff.next
  (manager.setPhase id { cycle with backoff := backoff } (.waiting (moment.now + delay.nanos)),
    missed cycle.name result
      ++ [entry .debug "Retrying lock acquisition"
        [("attempt", toString backoff.attempts),
          ("delay_ms", toString (delay.millis % Word.count 64)), ("lock", cycle.name)]])

/-- The end of an attempt. -/
def concludeAttempt (manager : Manager) (id : Nat) (cycle : Cycle) (moment : Moment)
    (result : Except LockError Outcome) : Manager × List Effect :=
  match result with
  | .ok (.acquired version) =>
    (manager.setPhase id cycle (.acquired version),
      [.count (.attempts cycle.name (Outcome.acquired version).label)])
  | result => manager.retryLater id cycle moment result

/-- Makes a signal for a held lock and marks its name. -/
def markHeld (manager : Manager) (id : Nat) (cycle : Cycle) (version : Int) : Manager :=
  let (signal, signals) := manager.signals.create
  ({ manager with signals := signals }.mark cycle.name .held (some signal)).setPhase id cycle
    (.marked version signal)

/-- A shutdown may have walked the registry before the signal was in it. -/
def lookAtFlag (manager : Manager) (id : Nat) (cycle : Cycle) (version : Int)
    (signal : SignalId) : Manager :=
  (if manager.shutDown then manager.cancel signal else manager).setPhase id cycle
    (.starting version signal)

/-- Starts the job and the heartbeats. -/
def startJob (manager : Manager) (id : Nat) (cycle : Cycle) (moment : Moment) (version : Int)
    (signal : SignalId) : Manager × List Effect :=
  let beat := Heartbeat.start moment.now (manager.policy cycle.interval).heartbeat
  (manager.setPhase id cycle (.beating beat signal),
    [.gauge (.held cycle.name) 1,
      entry .info "Lock acquired, starting job"
        [("lock", cycle.name), ("owner", manager.options.identity), ("version", toString version)],
      .startJob id signal])

/-- What is logged of a heartbeat, given how many had failed before it. -/
def heartbeatRemarks (manager : Manager) (name : String) (failures : Nat) :
    Except LockError Bool → List Effect
  | .ok true =>
    if 0 < failures then
      [heartbeatEntry .info "Heartbeat recovered"
        [("after", toString failures), ("lock", name)]]
    else []
  | .ok false =>
    [heartbeatEntry .warn "Heartbeat matched no row, lock no longer owned"
      [("failures", toString (failures + 1)), ("lock", name),
        ("owner", manager.options.identity)]]
  | .error e =>
    [heartbeatEntry .warn "Heartbeat failed"
      [("error", e.message), ("failures", toString (failures + 1)), ("lock", name)]]

/-- Whether a heartbeat renewed the lock. -/
def renewed : Except LockError Bool → Bool
  | .ok true => true
  | _ => false

/-- The end of a heartbeat: a success starts the count of failures again, and the last
failure that is allowed ends the lease. -/
def concludeRenewal (manager : Manager) (id : Nat) (cycle : Cycle) (beat : Heartbeat)
    (signal : SignalId) (result : Except LockError Bool) : Manager × List Effect :=
  let effects :=
    manager.heartbeatRemarks cycle.name beat.failures result
      ++ [.count (.heartbeats cycle.name (renewed result))]
  -- Only failures in a row count.
  if renewed result then (manager.setPhase id cycle (.beating beat.recover signal), effects)
  else if manager.options.maxFailures ≤ beat.fail.failures then
    (manager.setPhase id cycle (.losing beat.fail.failures signal), effects)
  else (manager.setPhase id cycle (.beating beat.fail signal), effects)

/-- Marks a name as lost and publishes the loss; the name stays reserved for a lease. -/
def demote (manager : Manager) (id : Nat) (cycle : Cycle) (moment : Moment) (failures : Nat) :
    Manager × List Effect :=
  let owner := manager.options.identity
  let (outbox, discarded) := manager.outbox.publish ⟨cycle.name, owner, failures⟩
  let lease := (manager.policy cycle.interval).lease
  (({ manager with outbox := outbox }.mark cycle.name .lost none).setPhase id cycle
      (.cooling (moment.now + lease.nanos)),
    entry .error "Lease lost, job cancelled"
        [("consecutive_failures", toString failures), ("lock", cycle.name), ("owner", owner)]
      :: .count (.losses cycle.name) :: discarded.map .log)

/-- A move of a cycle in a phase that needs nothing. -/
def turn (manager : Manager) (id : Nat) (cycle : Cycle) (moment : Moment) :
    Manager × List Effect :=
  match cycle.phase with
  | .retrying =>
    if manager.shutDown then (manager.setPhase id cycle .leaving, [])
    else
      let lease := (manager.policy cycle.interval).lease
      (manager.setPhase id cycle (.attempting (.start (manager.claimant cycle.name) lease)), [])
  | .attempting attempt =>
    match attempt.result? with
    | some result => manager.concludeAttempt id cycle moment result
    | none => (manager, [])
  | .acquired version => (manager.markHeld id cycle version, [])
  | .marked version signal => (manager.lookAtFlag id cycle version signal, [])
  | .starting version signal => manager.startJob id cycle moment version signal
  | .renewing beat renewal signal =>
    match renewal.result? with
    | some result => manager.concludeRenewal id cycle beat signal result
    | none => (manager, [])
  | .losing failures signal =>
    ((manager.cancel signal).setPhase id cycle (.demoting failures),
      [.gauge (.held cycle.name) 0])
  | .demoting failures => manager.demote id cycle moment failures
  | .departing =>
    ((manager.deregister cycle.name).setPhase id cycle .over,
      [entry .info "Lock deregistered after lease loss" [("lock", cycle.name)]])
  | .stopping signal =>
    ((manager.cancel signal).setPhase id cycle .leaving,
      [.gauge (.held cycle.name) 0,
        entry .info "Heartbeat stopped by shutdown" [("lock", cycle.name)]])
  | .leaving => ((manager.deregister cycle.name).setPhase id cycle .over, [])
  | .waiting _ => (manager, [])
  | .beating _ _ => (manager, [])
  | .cooling _ => (manager, [])
  | .over => (manager, [])

/-- A move of a cycle whose operation was answered. -/
def respond (manager : Manager) (id : Nat) (cycle : Cycle) (response : Response) :
    Manager × List Effect :=
  match cycle.phase with
  | .attempting attempt =>
    (manager.setPhase id cycle (.attempting (attempt.resume response)),
      match attempt.remark? response with
      | some entry => [.log entry]
      | none => [])
  | .renewing beat renewal signal =>
    (manager.setPhase id cycle (.renewing beat (renewal.resume response) signal), [])
  | _ => (manager, [])

/-- A move of a cycle whose deadline has come. -/
def expire (manager : Manager) (id : Nat) (cycle : Cycle) (moment : Moment) : Manager :=
  match cycle.phase with
  | .waiting _ => manager.setPhase id cycle .retrying
  | .beating beat signal =>
    let period := (manager.policy cycle.interval).heartbeat
    manager.setPhase id cycle
      (.renewing (beat.tick moment.now period) (.start (manager.claimant cycle.name)) signal)
  | .cooling _ => manager.setPhase id cycle .departing
  | _ => manager

/-- A move of a cycle that a shutdown wakes. -/
def interrupt (manager : Manager) (id : Nat) (cycle : Cycle) : Manager :=
  match cycle.phase with
  | .waiting _ => manager.setPhase id cycle .leaving
  | .beating _ signal => manager.setPhase id cycle (.stopping signal)
  | .cooling _ => manager.setPhase id cycle .departing
  | _ => manager

/-- One move of one cycle. -/
def step (manager : Manager) (id : Nat) (moment : Moment) (stimulus : Stimulus) :
    Manager × List Effect :=
  match manager.cycles[id]? with
  | none => (manager, [])
  | some cycle =>
    match stimulus with
    | .turn => manager.turn id cycle moment
    | .response response => manager.respond id cycle response
    | .deadline => (manager.expire id cycle moment, [])
    | .shutdown => (manager.interrupt id cycle, [])

end Manager

end Leasehold
