import Leasehold.Simulation.World

/-!
# Operating a world

What the users of the managers do.  After each operation everything runs as far as it
can without letting time pass.

* `World.prepare`, `World.run`, `World.shutdown`: calls on a manager.
* `World.receive`, `World.dropReceiver`: the receiver of lost leases.
* `World.call`, `World.enqueue`: the store behind all managers.
* `World.takeNotes`, `World.takeLandings`, `World.takeLog`: what happened since the
  last look, in the order in which it is listed.
-/

namespace Leasehold

/-- What a receiver of lost leases finds. -/
inductive Inbox where
  | loss (loss : LeaseLoss)
  | empty
  | dropped
  deriving Repr, DecidableEq

namespace Station

/-- A station whose clock reads `base` at the start. -/
def ofManager (manager : Manager) (base : Instant) : Station :=
  { manager := manager, base := base, jobs := [], names := [] }

end Station

namespace World

/-- The station of a node. -/
def station? (world : World) (node : Nat) : Option Station := world.stations[node]?

/-- Creates the lock table of a node if it is missing; the caller waits for the answer. -/
def prepare (world : World) (node : Nat) (station : Station) :
    Except LockError Unit × World :=
  let (flight, site) :=
    world.site.depart node world.now "" (.ensure station.manager.options.space)
  let world := world.withSite site
  let world := passTime flight.due world.now world
  let (reply, site) := world.site.arrive flight world.now
  let world := (world.withSite site).settle
  match reply with
  | .ok _ => (.ok (), world)
  | .error e => (.error (.store e), world)

/-- Registers a lock name at a node, with the job that runs once the lock is had. -/
def run (world : World) (node : Nat) (station : Station) (name : String)
    (interval : IntervalClass) (job : LabelledJob) : Except LockError Bool × World :=
  let (result, manager, effects) := station.manager.run name interval
  let begun := station.manager.cycles.length < manager.cycles.length
  let station :=
    { station with
      jobs := if begun then station.jobs ++ [job] else station.jobs
      names := station.names ++ [name] }
  (result, (world.withManager node station manager effects).settle)

/-- Shuts a node down. -/
def shutdown (world : World) (node : Nat) (station : Station) : World :=
  let (manager, effects) := station.manager.shutdown
  (world.withManager node station manager effects).settle

/-- The receiver of a node looks for a lost lease. -/
def receive (world : World) (node : Nat) (station : Station) : Inbox × World :=
  let manager := station.manager
  if manager.outbox.dropped then (.dropped, world)
  else
    let (loss?, outbox) := manager.outbox.receive
    let world := world.withManager node station { manager with outbox := outbox } []
    match loss? with
    | some loss => (.loss loss, world)
    | none => (.empty, world)

/-- The receiver of a node goes away. -/
def dropReceiver (world : World) (node : Nat) (station : Station) : World :=
  let manager := station.manager
  if manager.outbox.dropped then world
  else
    let (outbox, discarded) := manager.outbox.drop
    world.withManager node station { manager with outbox := outbox } (discarded.map .log)

/-- A call on the store that no node makes. -/
def call (world : World) (call : Call) : Reply × World :=
  let (reply, site) := world.site.perform call
  (reply, (world.withSite site).settle)

/-- Lets faults wait for the calls of a node. -/
def enqueue (world : World) (node : Nat) (call : String) (faults : List Fault) : World :=
  { world with site := world.site.enqueue node call faults }

/-! ## What happened -/

/-- Notes by time, node and label; those that agree in all three stay in place. -/
def listedNotes (notes : List JobNote) : List JobNote :=
  notes.mergeSort fun a b =>
    ((compare a.time b.time).then
      ((compare a.node b.node).then (compare a.label b.label))).isLE

/-- The order of the details of log entries. -/
def compareFields : List (String × String) → List (String × String) → Ordering
  | [], [] => .eq
  | [], _ :: _ => .lt
  | _ :: _, [] => .gt
  | (k, v) :: a, (l, w) :: b =>
    ((compare k l).then (compare v w)).then (compareFields a b)

/-- Entries by time, message, source and details. -/
def listedLog (log : List TimedEntry) : List TimedEntry :=
  log.mergeSort fun a b =>
    ((compare a.time b.time).then
      ((compare a.entry.message b.entry.message).then
        ((compare a.entry.target b.entry.target).then
          (compareFields a.entry.fields b.entry.fields)))).isLE

/-- The notes since the last look. -/
def takeNotes (world : World) : List JobNote × World :=
  (listedNotes world.notes, { world with notes := [] })

/-- The answered calls since the last look. -/
def takeLandings (world : World) : List Landing × World :=
  (Landing.listed world.site.landings, { world with site := { world.site with landings := [] } })

/-- The log since the last look. -/
def takeLog (world : World) : List TimedEntry × World :=
  (listedLog world.log, { world with log := [] })

end World

end Leasehold
