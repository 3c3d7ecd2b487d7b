import Leasehold.Time.Calendar
import Leasehold.Time.Span

/-!
# Clock readings

An instant is a second since 1970-01-01 UTC and the nanoseconds past it.  A leap
second has no count of its own: it is the last second of a minute with a billion
nanoseconds more, which prints as second 60.

* `Instant`: a clock reading, `Instant.isValid` the supported ones.
* `Instant.since`: the gap from one reading to another.
* `Instant.plus?`: the reading a gap later, if it is supported.
-/

namespace Leasehold

/-- A reading of a clock. -/
structure Instant where
  seconds : Int
  nanos : Nat
  deriving Repr, DecidableEq, Inhabited

namespace Instant

/-- Seconds in a day. -/
def secondsPerDay : Int := 86400

/-- The day of a reading, counted from 1970-01-01. -/
def day (instant : Instant) : Int := instant.seconds / secondsPerDay

/-- The second within the day. -/
def secondOfDay (instant : Instant) : Int := instant.seconds % secondsPerDay

/-- Whether a reading lies in a leap second. -/
def inLeapSecond (instant : Instant) : Bool := Span.nanosPerSecond ≤ instant.nanos

/-- The readings that exist: a supported day, less than two seconds' worth of
nanoseconds, and leap seconds only at the end of a minute. -/
def isValid (instant : Instant) : Bool :=
  Date.firstDay ≤ instant.day && instant.day ≤ Date.lastDay
    && instant.nanos < 2 * Span.nanosPerSecond
    && (!instant.inLeapSecond || instant.seconds % 60 = 59)

/-- The order of readings: by second, then by nanosecond. -/
def order (a b : Instant) : Ordering :=
  (compare a.seconds b.seconds).then (compare a.nanos b.nanos)

instance : Ord Instant := ⟨order⟩

/-- A leap second between the two readings counts when the reading in it has the
earlier time of day (first case) or the later one (second case). -/
def leapCorrection (later earlier : Instant) : Int :=
  if earlier.secondOfDay < later.secondOfDay && earlier.inLeapSecond then 1
  else if later.secondOfDay < earlier.secondOfDay && later.inLeapSecond then -1
  else 0

/-- The gap from `earlier` to `later`. -/
def since (later earlier : Instant) : Gap :=
  ⟨(later.seconds - earlier.seconds + leapCorrection later earlier) * Span.nanosPerSecond
    + ((later.nanos : Int) - earlier.nanos)⟩

/-- The reading without its leap second, before whole seconds are added: a step that
leaves it forward counts on from the second itself, one backward from the next. -/
def leaveLeapSecond (instant : Instant) (gap : Gap) : Instant :=
  if instant.inLeapSecond then
    if gap.nanos < 0 then ⟨instant.seconds + 1, instant.nanos - Span.nanosPerSecond⟩
    else ⟨instant.seconds, instant.nanos - Span.nanosPerSecond⟩
  else instant

/-- Whether a step from a leap second ends within it or the second before. -/
def staysInLeapSecond (instant : Instant) (gap : Gap) : Bool :=
  instant.inLeapSecond && gap.seconds = 0
    && (instant.nanos : Int) + gap.nanos < 2 * Span.nanosPerSecond

/-- The reading a gap later, by the count of seconds alone. -/
def shift (instant : Instant) (gap : Gap) : Instant :=
  if instant.staysInLeapSecond gap then
    ⟨instant.seconds, ((instant.nanos : Int) + gap.nanos).toNat⟩
  else
    let start := instant.leaveLeapSecond gap
    let total := (start.nanos : Int) + gap.nanos
    ⟨start.seconds + total / Span.nanosPerSecond, (total % Span.nanosPerSecond).toNat⟩

/-- The reading a gap later; `none` if its day is not supported. -/
def plus? (instant : Instant) (gap : Gap) : Option Instant :=
  let moved := instant.shift gap
  if Date.firstDay ≤ moved.day && moved.day ≤ Date.lastDay then some moved else none

/-- What is said of a reading whose day is not supported. -/
def overflowMessage : String := "`DateTime + TimeDelta` overflowed"

/-- Nothing lies between a reading and itself. -/
@[simp]
theorem since_self (instant : Instant) : instant.since instant = ⟨0⟩ := by
  simp [since, leapCorrection]

/-- Away from leap seconds a gap is the difference of the nanosecond counts. -/
theorem since_nanos_of_not_leap (later earlier : Instant)
    (hLater : later.inLeapSecond = false) (hEarlier : earlier.inLeapSecond = false) :
    (later.since earlier).nanos =
      (later.seconds * Span.nanosPerSecond + later.nanos)
        - (earlier.seconds * Span.nanosPerSecond + earlier.nanos) := by
  simp only [since, leapCorrection, hLater, hEarlier, Bool.and_false, Bool.false_eq_true,
    if_false]
  simp only [Span.nanosPerSecond]
  omega

end Instant

end Leasehold
