import Leasehold.Data.OrderedMap
import Leasehold.Log.Entry

/-!
# Metrics

* `Metric`: what is measured, by lock name.
* `Metrics`: the measured values.
* `Metrics.report`: all of them, in the order of their texts.
* `Metric.descriptions`: what each metric means.
-/

namespace Leasehold

/-- What is measured of a lock: attempts by outcome, heartbeats by success, lost
leases, and whether the lock is held. -/
inductive Metric where
  | attempts (lock outcome : String)
  | heartbeats (lock : String) (renewed : Bool)
  | losses (lock : String)
  | held (lock : String)
  deriving Repr, DecidableEq

namespace Metric

/-- The metric with its labels. -/
def text : Metric → String
  | attempts lock outcome =>
    "lock_acquire_attempts_total\x7block=" ++ lock ++ ",outcome=" ++ outcome ++ "\x7d"
  | heartbeats lock renewed =>
    "lock_heartbeats_total\x7block=" ++ lock ++ ",outcome="
      ++ (if renewed then "ok" else "failed") ++ "\x7d"
  | losses lock => "lock_lease_lost_total\x7block=" ++ lock ++ "\x7d"
  | held lock => "lock_held\x7block=" ++ lock ++ "\x7d"

/-- Whether a metric counts up or is set. -/
inductive Shape where
  | counter
  | gauge
  deriving Repr, DecidableEq

/-- The name of a shape. -/
def Shape.name : Shape → String
  | counter => "counter"
  | gauge => "gauge"

/-- The metrics with their meanings, in the order in which they are described. -/
def descriptions : List (Shape × String × String) :=
  [(.counter, "lock_acquire_attempts_total",
      "Total number of lock acquisition attempts, by outcome"),
    (.counter, "lock_heartbeats_total", "Total number of lease renewals, by outcome"),
    (.counter, "lock_lease_lost_total",
      "Total number of leases given up after repeated heartbeat failures"),
    (.gauge, "lock_held", "Whether this process currently holds the lock")]

/-- What is logged when the metrics have been described. -/
def described : Log.Entry :=
  { level := .info
    target := "clusterlock_core::metrics"
    message := "Metrics initialized"
    fields := [] }

end Metric

/-- The measured values, by the text of the metric. -/
structure Metrics where
  values : OrderedMap String Nat
  deriving Repr, DecidableEq

namespace Metrics

/-- Nothing measured yet. -/
def empty : Metrics := ⟨∅⟩

instance : Inhabited Metrics := ⟨empty⟩

/-- The value of a metric; one that was never touched is zero. -/
def value (metrics : Metrics) (metric : Metric) : Nat :=
  (metrics.values.get? metric.text).getD 0

/-- Sets a metric. -/
def set (metrics : Metrics) (metric : Metric) (value : Nat) : Metrics :=
  ⟨metrics.values.insert metric.text value⟩

/-- Counts one more. -/
def count (metrics : Metrics) (metric : Metric) : Metrics :=
  metrics.set metric (metrics.value metric + 1)

/-- All measured values in the order of their texts. -/
def report (metrics : Metrics) : List (String × Nat) := metrics.values.entries

end Metrics

end Leasehold
