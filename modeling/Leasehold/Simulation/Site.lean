import Leasehold.Store.Backend

/-!
# A shared store with faults

Several nodes share one store, and each node may find a call slow, failed, answered
by someone else, or surrounded by calls that another node makes at the same moment.

* `Fault`: what happens to one call, `Fault.plain` nothing unusual.
* `Flight`: a call that was begun and has not been answered.
* `Site`: the store, the faults that wait for the calls of each node, and a record of
  the calls that were answered.
* `Site.depart`, `Site.arrive`: the two ends of a call.
-/

namespace Leasehold

/-- What becomes of a call: the store serves it, it fails, or it is answered without
the store. -/
inductive Fault.Verdict where
  | served
  | fails (text : String)
  | answered (answer : Answer)
  deriving Repr

/-- What happens to one call: calls of others just before it, a delay in milliseconds,
a verdict, and calls of others just after it. -/
structure Fault where
  before : List Call
  delay : Nat
  verdict : Fault.Verdict
  after : List Call
  deriving Repr

/-- Nothing unusual. -/
def Fault.plain : Fault := ⟨[], 0, .served, []⟩

/-- A call on its way: who made it for which lock, when, and when it is answered. -/
structure Flight where
  node : Nat
  lock : String
  call : Call
  departed : Nat
  due : Nat
  fault : Fault
  deriving Repr

/-- An answered call. -/
structure Landing where
  flight : Flight
  landed : Nat
  reply : Reply
  deriving Repr

/-- The faults that wait for the calls of a node, by the name of the call. -/
structure FaultQueue where
  node : Nat
  call : String
  faults : List Fault
  deriving Repr

/-- A shared store, the waiting faults, the answered calls, and what the store left in
the log. -/
structure Site where
  store : RecordStore
  queues : List FaultQueue
  landings : List Landing
  remarks : List Log.Entry
  deriving Repr

namespace Site

/-- A site with a store and no faults. -/
def ofStore (store : RecordStore) : Site := ⟨store, [], [], []⟩

/-- Performs a call on the store itself. -/
def perform (site : Site) (call : Call) : Reply × Site :=
  let remarks :=
    match site.store.remark? call with
    | some entry => site.remarks ++ [entry]
    | none => site.remarks
  let (reply, store) := site.store.perform call
  (reply, { site with store := store, remarks := remarks })

/-- Performs calls whose answers nobody reads. -/
def performAll (site : Site) (calls : List Call) : Site :=
  calls.foldl (fun site call => (site.perform call).2) site

/-- The faults that wait for a call of a node. -/
def waiting (site : Site) (node : Nat) (call : String) : List Fault :=
  (site.queues.filter fun queue => queue.node == node && queue.call == call).flatMap
    FaultQueue.faults

/-- Lets faults wait for the calls of a node, behind those that wait already. -/
def enqueue (site : Site) (node : Nat) (call : String) (faults : List Fault) : Site :=
  { site with queues := site.queues ++ [⟨node, call, faults⟩] }

/-- Takes the first fault that waits for a call of a node. -/
def takeFault (node : Nat) (call : String) : List FaultQueue → Fault × List FaultQueue
  | [] => (.plain, [])
  | queue :: rest =>
    if queue.node == node && queue.call == call then
      match queue.faults with
      | fault :: faults => (fault, { queue with faults := faults } :: rest)
      -- An empty queue is dropped on the way.
      | [] => takeFault node call rest
    else
      let (fault, rest) := takeFault node call rest
      (fault, queue :: rest)

/-- Begins a call of a node at a time. -/
def depart (site : Site) (node now : Nat) (lock : String) (call : Call) : Flight × Site :=
  let (fault, queues) := takeFault node call.name site.queues
  (⟨node, lock, call, now, now + fault.delay, fault⟩,
    { site with queues := queues }.performAll fault.before)

/-- What a call is answered. -/
def reply (site : Site) (flight : Flight) : Reply × Site :=
  match flight.fault.verdict with
  | .served => site.perform flight.call
  | .fails text => (.error (.reported text), site)
  | .answered answer => (.ok answer, site)

/-- Answers a call at a time and records it. -/
def arrive (site : Site) (flight : Flight) (now : Nat) : Reply × Site :=
  let (reply, site) := site.reply flight
  let site := site.performAll flight.fault.after
  (reply, { site with landings := site.landings ++ [⟨flight, now, reply⟩] })

end Site

/-- Answered calls by time, node and lock; those that agree in all three stay in
place. -/
def Landing.listed (landings : List Landing) : List Landing :=
  landings.mergeSort fun a b =>
    ((compare a.landed b.landed).then
      ((compare a.flight.node b.flight.node).then
        (compare a.flight.lock b.flight.lock))).isLE

end Leasehold
