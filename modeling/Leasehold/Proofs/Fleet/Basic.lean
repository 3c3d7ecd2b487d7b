import Leasehold.Proofs.Data.Runs
import Leasehold.Proofs.Lock.RowStep
import Leasehold.Proofs.Manager.Coherence
import Leasehold.Proofs.Time.Elapsed

/-!
# Fleets of lock managers

Several managers share one memory store and one clock.  Calls to the store take no time,
deadlines are met exactly, and time passes only when no cycle can move; among the things
that can happen at one time any may come next, and any call may fail without an effect.
A run is a list of such events.

* `Fleet`: the managers, their store, the time that has passed since the clock showed
  `base`, and the writes that the store has made, with their times.
* `Fleet.step?`, `Fleet.run?`: one event and a list of events.
* `Fleet.cycle?`: the cycle under a number of a node, with the options of the node.
* `Fleet.lastWrite?`: when a node last wrote the row of a name.
* `Fleet.IsLive`: a node holds a name under a signal that is not cancelled.
-/

namespace Leasehold

/-- A write of a node on the row of a name. -/
structure Fleet.Write where
  node : Nat
  name : String
  time : Nat
  deriving Repr, DecidableEq

/-- Lock managers around one store; times are nanoseconds since the clock showed `base`. -/
structure Fleet where
  database : String
  table : String
  base : Instant
  now : Nat
  memory : Memory
  managers : List Manager
  writes : List Fleet.Write
  deriving Repr

/-- What moves a cycle: its turn, with what a jittered delay is drawn from; the clock that
it reads; the store that serves its call, or a failure of the call; its deadline; or a
shutdown. -/
inductive Fleet.Act where
  | turn (draw : Nat)
  | read
  | serve
  | fail (error : StoreError)
  | expire
  | wake
  deriving Repr

/-- What happens next: a node creates the lock table, registers a name, or does one of the
two halves of a shutdown; a cycle moves; or time passes. -/
inductive Fleet.Event where
  | prepare (node : Nat)
  | register (node : Nat) (name : String) (interval : IntervalClass)
  | raiseFlag (node : Nat)
  | cancelRegistered (node : Nat)
  | move (node id : Nat) (act : Fleet.Act)
  | pass (nanos : Nat)
  deriving Repr

namespace Fleet

/-- The lock table of the fleet. -/
def space (fleet : Fleet) : Space := lockSpace fleet.database fleet.table

/-- The row of a lock. -/
def lockRow? (fleet : Fleet) (name : String) : Option LockRow :=
  fleet.memory.lockRow? fleet.space name

/-- What the clock shows. -/
def reading? (fleet : Fleet) : Option Instant := fleet.base.after? fleet.now

/-- The cycle under a number of a node, with the options of the node. -/
def cycle? (fleet : Fleet) (node id : Nat) : Option (Manager.Options × Cycle) :=
  fleet.managers[node]?.bind fun manager =>
    manager.cycles[id]?.map fun cycle => (manager.options, cycle)

/-- When a node last wrote the row of a name. -/
def lastWrite? (fleet : Fleet) (node : Nat) (name : String) : Option Nat :=
  ((fleet.writes.filter fun write => decide (write.node = node ∧ write.name = name)).map
    Write.time).getLast?

/-- A node holds a name under a signal that is not cancelled. -/
def IsLive (fleet : Fleet) (node : Nat) (name : String) : Prop :=
  ∃ manager, fleet.managers[node]? = some manager ∧ manager.IsLive name

instance (fleet : Fleet) (node : Nat) (name : String) : Decidable (fleet.IsLive node name) :=
  decidable_of_iff (fleet.managers[node]?.any (fun manager => decide (manager.IsLive name)) = true)
    <| by simp only [IsLive, Option.any_eq_true, decide_eq_true_eq]

/-- Managers around a store before anything has happened. -/
def around (database table : String) (base : Instant) (memory : Memory)
    (managers : List Manager) : Fleet :=
  ⟨database, table, base, 0, memory, managers, []⟩

/-- The fleet with another manager at a node. -/
def withManager (fleet : Fleet) (node : Nat) (manager : Manager) : Fleet :=
  { fleet with managers := fleet.managers.set node manager }

/-- The fleet after a step of a cycle. -/
def stepped (fleet : Fleet) (node id : Nat) (manager : Manager) (draw : Nat)
    (stimulus : Stimulus) : Fleet :=
  fleet.withManager node (manager.step id ⟨fleet.now, draw⟩ stimulus).1

/-- The fleet after the store has served the call of a cycle. -/
def served (fleet : Fleet) (node id : Nat) (manager : Manager) (cycle : Cycle) (call : Call) :
    Fleet :=
  let outcome := fleet.memory.perform call
  { fleet.stepped node id manager 0 (.response (.reply outcome.1)) with
    memory := outcome.2
    writes :=
      if call.wrote outcome.1 then fleet.writes ++ [⟨node, cycle.name, fleet.now⟩]
      else fleet.writes }

/-- The move of a cycle, if it can happen now. -/
def act? (fleet : Fleet) (node id : Nat) (manager : Manager) (cycle : Cycle) (act : Act) :
    Option Fleet :=
  match act, cycle.phase.need with
  | .turn draw, .nothing => some (fleet.stepped node id manager draw .turn)
  | .read, .time =>
    fleet.reading?.map fun reading =>
      fleet.stepped node id manager 0 (.response (.time reading))
  | .serve, .answer call => some (fleet.served node id manager cycle call)
  | .fail error, .answer _ =>
    some (fleet.stepped node id manager 0 (.response (.reply (.error error))))
  | .expire, .pause due =>
    if due ≤ fleet.now then some (fleet.stepped node id manager 0 .deadline) else none
  | .wake, .pause _ =>
    if manager.shutDown then some (fleet.stepped node id manager 0 .shutdown) else none
  | _, _ => none

/-- Whether a cycle of a manager does not move before some time has passed. -/
def cycleRests (fleet : Fleet) (nanos : Nat) (manager : Manager) (cycle : Cycle) : Bool :=
  match cycle.phase.need with
  | .finished => true
  | .pause due => !manager.shutDown && decide (fleet.now + nanos ≤ due)
  | _ => false

/-- Whether nothing can happen before some time has passed. -/
def rests (fleet : Fleet) (nanos : Nat) : Bool :=
  fleet.managers.all fun manager => manager.cycles.all (fleet.cycleRests nanos manager)

/-- One event; `none` if it cannot happen. -/
def step? (fleet : Fleet) : Event → Option Fleet
  | .prepare node =>
    fleet.managers[node]?.map fun manager =>
      { fleet with memory := fleet.memory.ensure manager.options.space }
  | .register node name interval =>
    fleet.managers[node]?.map fun manager =>
      fleet.withManager node (manager.run name interval).2.1
  | .raiseFlag node =>
    match fleet.managers[node]? with
    | some manager =>
      if manager.shutDown then none else some (fleet.withManager node manager.raiseFlag)
    | none => none
  | .cancelRegistered node =>
    match fleet.managers[node]? with
    | some manager =>
      if manager.shutDown then some (fleet.withManager node manager.cancelRegistered) else none
    | none => none
  | .move node id act =>
    match fleet.managers[node]? with
    | some manager =>
      match manager.cycles[id]? with
      | some cycle => fleet.act? node id manager cycle act
      | none => none
    | none => none
  | .pass nanos =>
    if fleet.rests nanos then some { fleet with now := fleet.now + nanos } else none

/-- A run of events. -/
def run? (fleet : Fleet) (events : List Event) : Option Fleet := runs? step? fleet events

/-! ## What an event needs and leaves -/

/-- The events by what they need and what they leave. -/
inductive Step (fleet : Fleet) : Event → Fleet → Prop where
  | prepare {node : Nat} {manager : Manager} (hManager : fleet.managers[node]? = some manager) :
      Step fleet (.prepare node)
        { fleet with memory := fleet.memory.ensure manager.options.space }
  | register {node : Nat} {manager : Manager} (name : String) (interval : IntervalClass)
      (hManager : fleet.managers[node]? = some manager) :
      Step fleet (.register node name interval)
        (fleet.withManager node (manager.run name interval).2.1)
  | raiseFlag {node : Nat} {manager : Manager} (hManager : fleet.managers[node]? = some manager) :
      Step fleet (.raiseFlag node) (fleet.withManager node manager.raiseFlag)
  | cancelRegistered {node : Nat} {manager : Manager}
      (hManager : fleet.managers[node]? = some manager) :
      Step fleet (.cancelRegistered node) (fleet.withManager node manager.cancelRegistered)
  | turn {node id : Nat} {manager : Manager} {cycle : Cycle} (draw : Nat)
      (hManager : fleet.managers[node]? = some manager)
      (hCycle : manager.cycles[id]? = some cycle) :
      Step fleet (.move node id (.turn draw)) (fleet.stepped node id manager draw .turn)
  | read {node id : Nat} {manager : Manager} {cycle : Cycle} {reading : Instant}
      (hManager : fleet.managers[node]? = some manager)
      (hCycle : manager.cycles[id]? = some cycle) (hNeed : cycle.phase.need = .time)
      (hReading : fleet.reading? = some reading) :
      Step fleet (.move node id .read)
        (fleet.stepped node id manager 0 (.response (.time reading)))
  | serve {node id : Nat} {manager : Manager} {cycle : Cycle} {call : Call}
      (hManager : fleet.managers[node]? = some manager)
      (hCycle : manager.cycles[id]? = some cycle) (hNeed : cycle.phase.need = .answer call) :
      Step fleet (.move node id .serve) (fleet.served node id manager cycle call)
  | fail {node id : Nat} {manager : Manager} {cycle : Cycle} {call : Call} (error : StoreError)
      (hManager : fleet.managers[node]? = some manager)
      (hCycle : manager.cycles[id]? = some cycle) (hNeed : cycle.phase.need = .answer call) :
      Step fleet (.move node id (.fail error))
        (fleet.stepped node id manager 0 (.response (.reply (.error error))))
  | expire {node id : Nat} {manager : Manager} {cycle : Cycle} {due : Nat}
      (hManager : fleet.managers[node]? = some manager)
      (hCycle : manager.cycles[id]? = some cycle) (hNeed : cycle.phase.need = .pause due)
      (hDue : due ≤ fleet.now) :
      Step fleet (.move node id .expire) (fleet.stepped node id manager 0 .deadline)
  | wake {node id : Nat} {manager : Manager} {cycle : Cycle}
      (hManager : fleet.managers[node]? = some manager)
      (hCycle : manager.cycles[id]? = some cycle) :
      Step fleet (.move node id .wake) (fleet.stepped node id manager 0 .shutdown)
  | pass (nanos : Nat) (hRests : fleet.rests nanos = true) :
      Step fleet (.pass nanos) { fleet with now := fleet.now + nanos }

theorem step_of_act? {fleet next : Fleet} {node id : Nat} {manager : Manager} {cycle : Cycle}
    {act : Act} (hManager : fleet.managers[node]? = some manager)
    (hCycle : manager.cycles[id]? = some cycle)
    (h : fleet.act? node id manager cycle act = some next) :
    Step fleet (.move node id act) next := by
  unfold act? at h
  split at h
  · obtain rfl := Option.some.inj h
    exact .turn _ hManager hCycle
  · next hNeed =>
    obtain ⟨reading, hReading, rfl⟩ := Option.map_eq_some_iff.mp h
    exact .read hManager hCycle hNeed hReading
  · next call hNeed =>
    obtain rfl := Option.some.inj h
    exact .serve hManager hCycle hNeed
  · next error call hNeed =>
    obtain rfl := Option.some.inj h
    exact .fail error hManager hCycle hNeed
  · next due hNeed =>
    split at h
    · next hDue =>
      obtain rfl := Option.some.inj h
      exact .expire hManager hCycle hNeed hDue
    · cases h
  · split at h
    · obtain rfl := Option.some.inj h
      exact .wake hManager hCycle
    · cases h
  · cases h

theorem step_of_step? {fleet next : Fleet} {event : Event} (h : fleet.step? event = some next) :
    Step fleet event next := by
  cases event with
  | prepare node =>
      obtain ⟨manager, hManager, rfl⟩ := Option.map_eq_some_iff.mp h
      exact .prepare hManager
  | register node name interval =>
      obtain ⟨manager, hManager, rfl⟩ := Option.map_eq_some_iff.mp h
      exact .register name interval hManager
  | raiseFlag node =>
      simp only [step?] at h
      split at h
      · next manager hManager =>
        split at h
        · cases h
        · obtain rfl := Option.some.inj h
          exact .raiseFlag hManager
      · cases h
  | cancelRegistered node =>
      simp only [step?] at h
      split at h
      · next manager hManager =>
        split at h
        · obtain rfl := Option.some.inj h
          exact .cancelRegistered hManager
        · cases h
      · cases h
  | move node id act =>
      simp only [step?] at h
      split at h
      · next manager hManager =>
        split at h
        · next cycle hCycle => exact step_of_act? hManager hCycle h
        · cases h
      · cases h
  | pass nanos =>
      simp only [step?] at h
      split at h
      · next hRests =>
        obtain rfl := Option.some.inj h
        exact .pass nanos hRests
      · cases h

/-! ## The views of a fleet -/

theorem cycle?_eq_some_iff {fleet : Fleet} {node id : Nat} {options : Manager.Options}
    {cycle : Cycle} :
    fleet.cycle? node id = some (options, cycle) ↔
      ∃ manager, fleet.managers[node]? = some manager ∧ manager.options = options ∧
        manager.cycles[id]? = some cycle := by
  simp only [cycle?, Option.bind_eq_some_iff, Option.map_eq_some_iff, Prod.mk.injEq]
  constructor
  · rintro ⟨manager, hManager, found, hCycle, rfl, rfl⟩
    exact ⟨manager, hManager, rfl, hCycle⟩
  · rintro ⟨manager, hManager, rfl, hCycle⟩
    exact ⟨manager, hManager, cycle, hCycle, rfl, rfl⟩

theorem cycle?_withManager_of_ne {fleet : Fleet} {node other : Nat} (manager : Manager)
    (h : other ≠ node) (id : Nat) :
    (fleet.withManager node manager).cycle? other id = fleet.cycle? other id := by
  rw [cycle?, withManager, List.getElem?_set_ne h.symm, cycle?]

theorem cycle?_withManager_self {fleet : Fleet} {node : Nat} {old : Manager}
    (hOld : fleet.managers[node]? = some old) (manager : Manager) (id : Nat) :
    (fleet.withManager node manager).cycle? node id
      = manager.cycles[id]?.map fun cycle => (manager.options, cycle) := by
  obtain ⟨hBound, -⟩ := List.getElem?_eq_some_iff.mp hOld
  rw [cycle?, withManager, List.getElem?_set_self hBound]
  rfl

/-- The last write of a node after one more write. -/
theorem lastWrite?_append {fleet next : Fleet} {write : Write}
    (h : next.writes = fleet.writes ++ [write]) (node : Nat) (name : String) :
    next.lastWrite? node name
      = if write.node = node ∧ write.name = name then some write.time
        else fleet.lastWrite? node name := by
  rw [lastWrite?, h, List.filter_append, List.map_append, lastWrite?]
  by_cases hWrite : write.node = node ∧ write.name = name
  · rw [if_pos hWrite]
    simp [hWrite]
  · rw [if_neg hWrite]
    simp [hWrite]

theorem lastWrite?_of_writes_eq {fleet next : Fleet} (h : next.writes = fleet.writes)
    (node : Nat) (name : String) : next.lastWrite? node name = fleet.lastWrite? node name := by
  rw [lastWrite?, h, lastWrite?]

end Fleet
end Leasehold
