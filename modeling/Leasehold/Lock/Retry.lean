import Leasehold.Lock.Error
import Leasehold.Number.Word

/-!
# Retry delays

A node that does not get a lock tries again.  Either it waits one lease each time, or
it draws a delay below a ceiling that grows with every attempt.

* `RetryPolicy`: the two ways to wait, `RetryPolicy.validate` the accepted ones.
* `Backoff`: the delays of one wait for a lock.
* `Backoff.ceiling`: the upper bound of the next delay.
* `Backoff.next`: the next delay, given a number to draw it from.
-/

namespace Leasehold

/-- How a node waits between attempts. -/
inductive RetryPolicy where
  | fixed
  | jittered (initial ceiling : Span) (multiplier : Binary64)
  deriving Repr, DecidableEq, Inhabited

namespace RetryPolicy

/-- The first thing that is wrong with a policy. -/
def fault? : RetryPolicy → Option OptionFault
  | fixed => none
  | jittered initial ceiling multiplier =>
    if initial.nanos = 0 then some .emptyDelay
    else if ceiling < initial then some (.ceilingBelowDelay ceiling initial)
    else if !multiplier.isFinite || multiplier.lt .one then
      some (.multiplierRefused multiplier)
    else none

/-- Checks a policy. -/
def validate (policy : RetryPolicy) : Except LockError Unit :=
  match policy.fault? with
  | some fault => .error (.invalidOption fault)
  | none => .ok ()

/-- Whether delays are drawn at random. -/
def isJittered : RetryPolicy → Bool
  | fixed => false
  | jittered _ _ _ => true

end RetryPolicy

/-- The seconds of a span as a binary64 number: whole seconds and the fraction are
rounded on their own and then added. -/
def Span.toBinary64 (span : Span) : Binary64 :=
  (Binary64.ofNat span.seconds).add
    ((Binary64.ofNat span.subsecondNanos).div (Binary64.ofNat Span.nanosPerSecond))

/-- The delays of one wait for a lock: the policy, the lease that is waited for, and
how often was waited already. -/
structure Backoff where
  policy : RetryPolicy
  lease : Span
  attempts : Nat
  deriving Repr, DecidableEq

namespace Backoff

/-- The delays of a wait that begins. -/
def start (policy : RetryPolicy) (lease : Span) : Backoff := ⟨policy, lease, 0⟩

/-- From this attempt on the ceiling grows no further. -/
def lastGrowth : Nat := 64

/-- The largest number of attempts that is counted. -/
def maxAttempts : Nat := Word.maxNat 32

/-- The most milliseconds that a delay can have. -/
def maxMillis : Nat := Word.maxNat 64

/-- The growing delay of an attempt, cut off at the ceiling of the policy. -/
def grown (initial ceiling : Span) (multiplier : Binary64) (attempts : Nat) : Span :=
  let growth := multiplier.powNat (Nat.min attempts lastGrowth)
  let seconds := (initial.toBinary64.mul growth).min ceiling.toBinary64
  match seconds.toNanos? with
  | some nanos => ⟨nanos⟩
  -- Negative and too long delays are cut off as well.
  | none => ceiling

/-- The upper bound of the next delay. -/
def ceiling (backoff : Backoff) : Span :=
  match backoff.policy with
  | .fixed => backoff.lease
  | .jittered initial ceiling multiplier => grown initial ceiling multiplier backoff.attempts

/-- The whole milliseconds that a jittered delay may have at most. -/
def ceilingMillis (backoff : Backoff) : Nat := Nat.min backoff.ceiling.millis maxMillis

/-- The next delay under a draw: the ceiling itself under a fixed policy, the drawn
number of milliseconds up to the ceiling otherwise. -/
def delay (backoff : Backoff) (draw : Nat) : Span :=
  match backoff.policy with
  | .fixed => backoff.ceiling
  | .jittered _ _ _ => .ofMillis (draw % (backoff.ceilingMillis + 1))

/-- The wait after one delay more. -/
def next (backoff : Backoff) : Backoff :=
  { backoff with attempts := Nat.min (backoff.attempts + 1) maxAttempts }

/-- The wait as if it began. -/
def reset (backoff : Backoff) : Backoff := { backoff with attempts := 0 }

/-- Each delay is at most its ceiling. -/
theorem delay_le_ceiling (backoff : Backoff) (draw : Nat) :
    backoff.delay draw ≤ backoff.ceiling := by
  unfold delay
  split
  · exact Nat.le_refl _
  · have hDraw : draw % (backoff.ceilingMillis + 1) ≤ backoff.ceilingMillis :=
      Nat.le_of_lt_succ (Nat.mod_lt _ (Nat.succ_pos _))
    have hMillis : backoff.ceilingMillis ≤ backoff.ceiling.nanos / Span.nanosPerMilli :=
      Nat.min_le_left _ _
    show draw % (backoff.ceilingMillis + 1) * Span.nanosPerMilli ≤ backoff.ceiling.nanos
    calc
      draw % (backoff.ceilingMillis + 1) * Span.nanosPerMilli
          ≤ backoff.ceiling.nanos / Span.nanosPerMilli * Span.nanosPerMilli :=
        Nat.mul_le_mul_right _ (Nat.le_trans hDraw hMillis)
      _ ≤ backoff.ceiling.nanos := Nat.div_mul_le_self _ _

end Backoff

end Leasehold
