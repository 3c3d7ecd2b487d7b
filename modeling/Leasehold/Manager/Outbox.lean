import Leasehold.Lock.Error
import Leasehold.Log.Entry

/-!
# Lost leases and their outbox

A manager tells its user of every lost lease, through a queue of limited length.
What does not fit waits beside the queue, in order, so that a slow receiver delays no
one and misses nothing.

* `LeaseLoss`: the loss of one lease.
* `Outbox`: the queue and what waits for a place in it.
* `Outbox.publish`, `Outbox.receive`, `Outbox.drop`: the operations.
-/

namespace Leasehold

/-- The loss of a lease after some failed heartbeats. -/
structure LeaseLoss where
  name : String
  owner : String
  failures : Nat
  deriving Repr, DecidableEq, Inhabited

namespace LeaseLoss

/-- The text of a loss. -/
def message (loss : LeaseLoss) : String :=
  s!"lock '{loss.name}' lease lost by {loss.owner} after {loss.failures} " ++
    "consecutive heartbeat failures"

/-- A loss as an error of the service. -/
def toService (loss : LeaseLoss) : ServiceError := .leaseLost loss.name

end LeaseLoss

/-- Losses on their way to a receiver. -/
structure Outbox where
  capacity : Nat
  queued : List LeaseLoss
  parked : List LeaseLoss
  dropped : Bool
  deriving Repr, DecidableEq, Inhabited

namespace Outbox

/-- The outbox without losses. -/
def ofCapacity (capacity : Nat) : Outbox := ⟨capacity, [], [], false⟩

/-- What is said of a capacity of zero, with which there is no queue at all. -/
def noRoomMessage : String := "mpsc bounded channel requires buffer > 0"

/-- Every loss that can still be received, in order. -/
def pending (outbox : Outbox) : List LeaseLoss := outbox.queued ++ outbox.parked

/-- What is logged of a loss that nobody will receive. -/
def discarded (loss : LeaseLoss) : Log.Entry :=
  { level := .warn
    target := "clusterlock_core::manager"
    message := "Lease loss receiver dropped, event discarded"
    fields := [("lock", loss.name)] }

/-- Publishes a loss: it is queued if there is room, parked if not, and discarded once
the receiver is gone. -/
def publish (outbox : Outbox) (loss : LeaseLoss) : Outbox × List Log.Entry :=
  if outbox.dropped then (outbox, [discarded loss])
  else if outbox.parked.isEmpty && outbox.queued.length < outbox.capacity then
    ({ outbox with queued := outbox.queued ++ [loss] }, [])
  else ({ outbox with parked := outbox.parked ++ [loss] }, [])

/-- Moves parked losses into the free places of the queue. -/
def refill (outbox : Outbox) : Outbox :=
  let room := outbox.capacity - outbox.queued.length
  { outbox with
    queued := outbox.queued ++ outbox.parked.take room
    parked := outbox.parked.drop room }

/-- Takes the oldest loss. -/
def receive (outbox : Outbox) : Option LeaseLoss × Outbox :=
  match outbox.queued with
  | [] => (none, outbox)
  | loss :: rest => (some loss, { outbox with queued := rest }.refill)

/-- The receiver goes away, and what was parked is discarded. -/
def drop (outbox : Outbox) : Outbox × List Log.Entry :=
  ({ outbox with queued := [], parked := [], dropped := true }, outbox.parked.map discarded)

/-- Moving losses into the queue keeps them all and their order. -/
theorem pending_refill (outbox : Outbox) : outbox.refill.pending = outbox.pending := by
  simp [refill, pending, List.append_assoc]

/-- A published loss comes last. -/
theorem pending_publish (outbox : Outbox) (loss : LeaseLoss) (h : outbox.dropped = false) :
    (outbox.publish loss).1.pending = outbox.pending ++ [loss] := by
  unfold publish
  rw [h]
  by_cases hRoom : (outbox.parked.isEmpty && decide (outbox.queued.length < outbox.capacity)) = true
  · have hParked : outbox.parked = [] := by
      simp only [Bool.and_eq_true, List.isEmpty_iff] at hRoom
      exact hRoom.1
    rw [if_neg Bool.false_ne_true, if_pos hRoom]
    simp [pending, hParked]
  · rw [if_neg Bool.false_ne_true, if_neg hRoom]
    simp [pending]

end Outbox

end Leasehold
