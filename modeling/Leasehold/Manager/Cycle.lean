import Leasehold.Lock.Attempt
import Leasehold.Lock.Retry
import Leasehold.Signal.Cancellation

/-!
# Cycles

A cycle follows one lock name from its registration until the name is free again.  It
is a list of phases, and between two of them anything may happen elsewhere: other
cycles move, and a shutdown sets its flag or walks the registry.

* `retrying`: about to look at the shutdown flag and to make an attempt.
* `attempting`: an attempt is under way.
* `waiting`: between two attempts, until a time or a shutdown.
* `acquired`: the lock was had, but no one can see it yet.
* `marked`: the name is marked as held, and its signal can be cancelled.
* `starting`: the flag was looked at, and the job is about to start.
* `beating`: the job was started, and the next heartbeat is awaited, or a shutdown.
* `renewing`: a heartbeat is under way.
* `losing`, `demoting`: too many heartbeats failed; the job is cancelled, then the name
  is marked as lost.
* `cooling`, `departing`: the name stays reserved for a lease, or until a shutdown.
* `stopping`, `leaving`: a shutdown ends the cycle.
* `over`: the name is free.

Times are nanoseconds of a clock that only measures how time passes; the readings that
go into lock rows come from elsewhere.
-/

namespace Leasehold

/-- A row of heartbeats: when the next is due, and how many failed in a row. -/
structure Heartbeat where
  due : Nat
  failures : Nat
  deriving Repr, DecidableEq

namespace Heartbeat

/-- How late a heartbeat may be before the schedule moves, in nanoseconds. -/
def tolerance : Nat := 5000000

/-- The heartbeats of a lease that was had at a time. -/
def start (now : Nat) (period : Span) : Heartbeat := ⟨now + period.nanos, 0⟩

/-- The heartbeats after one that began at a time: the next is due a period after this
one was, or after it began if it was late. -/
def tick (beat : Heartbeat) (now : Nat) (period : Span) : Heartbeat :=
  { beat with
    due := if beat.due + tolerance < now then now + period.nanos else beat.due + period.nanos }

/-- The heartbeats after one more that failed. -/
def fail (beat : Heartbeat) : Heartbeat := { beat with failures := beat.failures + 1 }

/-- The heartbeats after one that did not fail. -/
def recover (beat : Heartbeat) : Heartbeat := { beat with failures := 0 }

end Heartbeat

/-- Where a cycle stands. -/
inductive Cycle.Phase where
  | retrying
  | attempting (attempt : Attempt)
  | waiting (due : Nat)
  | acquired (version : Int)
  | marked (version : Int) (signal : SignalId)
  | starting (version : Int) (signal : SignalId)
  | beating (beat : Heartbeat) (signal : SignalId)
  | renewing (beat : Heartbeat) (renewal : Renewal) (signal : SignalId)
  | losing (failures : Nat) (signal : SignalId)
  | demoting (failures : Nat)
  | cooling (due : Nat)
  | departing
  | stopping (signal : SignalId)
  | leaving
  | over
  deriving Repr

/-- A lock name on its way: its class, the waits between its attempts, and where it
stands. -/
structure Cycle where
  name : String
  interval : IntervalClass
  backoff : Backoff
  phase : Cycle.Phase
  deriving Repr

/-- What a cycle needs to move on: nothing, the time, the answer to a call, or the
passing of time up to a deadline; or it does not move any more. -/
inductive Cycle.Need where
  | nothing
  | time
  | answer (call : Call)
  | pause (due : Nat)
  | finished
  deriving Repr

namespace Cycle

/-- What an operation under way needs. -/
def Need.ofRequest : Option Request → Need
  | none => .nothing
  | some .time => .time
  | some (.call call) => .answer call

/-- What a phase needs to move on. -/
def Phase.need : Phase → Need
  | .attempting attempt => .ofRequest attempt.request?
  | .renewing _ renewal _ => .ofRequest renewal.request?
  | .waiting due => .pause due
  | .beating beat _ => .pause beat.due
  | .cooling due => .pause due
  | .over => .finished
  | _ => .nothing

/-- A cycle that begins. -/
def start (name : String) (interval : IntervalClass) (retry : RetryPolicy) (lease : Span) :
    Cycle :=
  { name := name, interval := interval, backoff := .start retry lease, phase := .retrying }

end Cycle

end Leasehold
