import Leasehold.Lock.Error

/-!
# Lease policies

* `LeasePolicy`: a lease and the heartbeat period that keeps it.
* `LeasePolicy.validate`: what a policy has to satisfy.
* `PolicyTable`: a policy for each interval class.
-/

namespace Leasehold

/-- A lease and the period of the heartbeats that keep it. -/
structure LeasePolicy where
  lease : Span
  heartbeat : Span
  deriving Repr, DecidableEq, Inhabited

namespace LeasePolicy

/-- Whether heartbeats can keep the lease: both are positive and a heartbeat falls
within the lease. -/
def IsValid (policy : LeasePolicy) : Prop :=
  0 < policy.heartbeat.nanos ∧ policy.heartbeat < policy.lease

instance (policy : LeasePolicy) : Decidable policy.IsValid :=
  inferInstanceAs (Decidable (_ ∧ _))

/-- The first thing that is wrong with a policy. -/
def fault? (policy : LeasePolicy) : Option PolicyFault :=
  if policy.lease.nanos = 0 then some .emptyLease
  else if policy.heartbeat.nanos = 0 then some .emptyPeriod
  else if policy.lease ≤ policy.heartbeat then some .periodNotShorter
  else none

/-- Checks a policy for an interval class. -/
def validate (policy : LeasePolicy) (interval : IntervalClass) : Except LockError Unit :=
  match policy.fault? with
  | some fault => .error (.invalidPolicy interval fault)
  | none => .ok ()

theorem fault?_eq_none_iff (policy : LeasePolicy) : policy.fault? = none ↔ policy.IsValid := by
  simp only [fault?, IsValid, Span.lt_iff_nanos_lt, Span.le_iff_nanos_le]
  split
  · simp; omega
  · split
    · simp; omega
    · split <;> simp <;> omega

end LeasePolicy

/-- A policy for each interval class. -/
structure PolicyTable where
  short : LeasePolicy
  medium : LeasePolicy
  deriving Repr, DecidableEq

namespace PolicyTable

/-- Ten minutes with a heartbeat every minute, and an hour with one every ten minutes. -/
def standard : PolicyTable :=
  { short := ⟨.ofSeconds 600, .ofSeconds 60⟩
    medium := ⟨.ofSeconds 3600, .ofSeconds 600⟩ }

instance : Inhabited PolicyTable := ⟨standard⟩

/-- The policy of a class. -/
def get (table : PolicyTable) : IntervalClass → LeasePolicy
  | .short => table.short
  | .medium => table.medium

/-- The table with another policy for a class, checked or not. -/
def set (table : PolicyTable) (interval : IntervalClass) (policy : LeasePolicy) : PolicyTable :=
  match interval with
  | .short => { table with short := policy }
  | .medium => { table with medium := policy }

/-- The table with another valid policy for a class. -/
def withPolicy (table : PolicyTable) (interval : IntervalClass) (policy : LeasePolicy) :
    Except LockError PolicyTable :=
  match policy.validate interval with
  | .error e => .error e
  | .ok () => .ok (table.set interval policy)

/-- Checks the policy of every class in order. -/
def validate (table : PolicyTable) : Except LockError Unit :=
  match table.short.validate .short with
  | .error e => .error e
  | .ok () => table.medium.validate .medium

@[simp]
theorem get_set_self (table : PolicyTable) (interval : IntervalClass) (policy : LeasePolicy) :
    (table.set interval policy).get interval = policy := by
  cases interval <;> rfl

theorem get_set_of_ne (table : PolicyTable) {interval other : IntervalClass}
    (policy : LeasePolicy) (h : other ≠ interval) :
    (table.set interval policy).get other = table.get other := by
  cases interval <;> cases other <;> simp_all [set, get]

end PolicyTable

end Leasehold
