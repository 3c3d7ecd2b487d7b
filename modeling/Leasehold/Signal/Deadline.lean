import Leasehold.Log.Entry
import Leasehold.Time.Span

/-!
# Deadlines

* `Span.timerMillis`: when a timer fires.
* `Deadline.await`: waits for something, but not longer than a span.
-/

namespace Leasehold

/-- The milliseconds after which a timer fires: a span rounded up. -/
def Span.timerMillis (span : Span) : Nat :=
  (span.nanos + (Span.nanosPerMilli - 1)) / Span.nanosPerMilli

namespace Deadline

/-- What is logged when a wait takes too long. -/
def expired (limit : Span) (what : String) : Log.Entry :=
  { level := .warn
    target := "clusterlock_server::startup::shutdown"
    message := "Timed out after " ++ limit.toText ++ " waiting for " ++ what
    fields := [] }

/-- Waits for something that is ready after some milliseconds, or never: whether it was
ready in time, and when the wait was over.  A tie is in time. -/
def await (ready? : Option Nat) (limit : Span) : Bool × Nat :=
  match ready? with
  | some ready =>
    if ready ≤ limit.timerMillis then (true, ready) else (false, limit.timerMillis)
  | none => (false, limit.timerMillis)

end Deadline

end Leasehold
