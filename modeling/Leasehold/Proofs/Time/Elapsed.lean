import Leasehold.Lock.Row

/-!
# Time that has passed

A lease is judged by the gap between two clock readings.  Away from leap seconds that gap
grows with the later reading; on a clock that only moves forward from a first reading it
is never more than the time that has passed, leap seconds or not, so that no lease is
found expired too early.

* `Instant.since_le_since`: a later reading is further away.
* `LockRow.isExpired_of_isLE`: what has expired stays expired.
* `Instant.after?`: the reading of a clock some time after its first one.
* `Instant.since_after?_le`: readings are no further apart than their times.
* `LockRow.lt_of_isExpired_after?`: an expired lease is over.
* `LockRow.isExpired_after?_iff`: away from leap seconds, a lease that is over is expired.
* `LockRow.isExpired_iff`: between supported readings no lease is cut off.
-/

namespace Leasehold
namespace Instant

/-- Nanoseconds from the first second on, leap seconds not counted. -/
def count (instant : Instant) : Int :=
  instant.seconds * Span.nanosPerSecond + instant.nanos

theorem count_le_count {now later : Instant} (h : (compare now later).isLE = true)
    (hNow : now.inLeapSecond = false) : now.count ≤ later.count := by
  have hOrder : now.seconds < later.seconds ∨
      now.seconds = later.seconds ∧ now.nanos ≤ later.nanos := by
    have hLE : (order now later).isLE = true := h
    rw [order, Ordering.isLE_then_iff_or] at hLE
    rcases hLE with hSeconds | ⟨hSeconds, hNanos⟩
    · exact .inl (Int.compare_eq_lt.mp hSeconds)
    · exact .inr ⟨Int.compare_eq_eq.mp hSeconds, Nat.isLE_compare.mp hNanos⟩
  simp only [inLeapSecond, decide_eq_false_iff_not] at hNow
  simp only [count, Span.nanosPerSecond] at *
  rcases hOrder with hSeconds | ⟨hSeconds, hNanos⟩ <;> omega

/-- Away from leap seconds, a later reading is further away from an earlier one. -/
theorem since_le_since {earlier now later : Instant} (h : (compare now later).isLE = true)
    (hEarlier : earlier.inLeapSecond = false) (hNow : now.inLeapSecond = false)
    (hLater : later.inLeapSecond = false) :
    (now.since earlier).nanos ≤ (later.since earlier).nanos := by
  have hCount := count_le_count h hNow
  rw [since_nanos_of_not_leap now earlier hNow hEarlier,
    since_nanos_of_not_leap later earlier hLater hEarlier]
  simp only [count] at hCount
  omega

end Instant

/-- Away from leap seconds, a row that has expired stays expired. -/
theorem LockRow.isExpired_of_isLE {row : LockRow} {now later : Instant} {lease : Span}
    (hExpired : row.isExpired now lease = true) (h : (compare now later).isLE = true)
    (hRow : row.updateTime.inLeapSecond = false) (hNow : now.inLeapSecond = false)
    (hLater : later.inLeapSecond = false) : row.isExpired later lease = true := by
  simp only [isExpired, elapsed, decide_eq_true_eq, Gap.lt_iff_nanos_lt] at *
  have hLater := Instant.since_le_since h hRow hNow hLater
  omega

/-! ## A clock that moves forward -/

namespace Instant

/-- The reading of a clock some time after its first one, in nanoseconds; `none` once the
calendar has ended. -/
def after? (base : Instant) (now : Nat) : Option Instant := base.plus? (Span.mk now).toGap

theorem after?_eq_some {base reading : Instant} {now : Nat} (h : base.after? now = some reading) :
    base.shift (Span.mk now).toGap = reading := by
  simp only [after?, plus?] at h
  split at h
  · exact Option.some.inj h
  · cases h

/-- A step within a leap second. -/
theorem shift_of_stays {base : Instant} {gap : Gap} (h : base.staysInLeapSecond gap = true) :
    base.shift gap = ⟨base.seconds, ((base.nanos : Int) + gap.nanos).toNat⟩ := by
  simp [shift, h]

/-- A step forward that does not end in a leap second; one that begins in it leaves a
second behind that is not counted. -/
theorem shift_of_moves {base : Instant} {gap : Gap} (hGap : 0 ≤ gap.nanos)
    (h : base.staysInLeapSecond gap = false) :
    (base.shift gap).inLeapSecond = false ∧
      (base.shift gap).count
        = base.count + gap.nanos - if base.inLeapSecond then Span.nanosPerSecond else 0 := by
  have hBack : ¬ gap.nanos < 0 := by omega
  simp only [shift, h, Bool.false_eq_true, if_false, leaveLeapSecond, hBack]
  by_cases hLeap : base.inLeapSecond = true
  · have hNanos : Span.nanosPerSecond ≤ base.nanos := of_decide_eq_true hLeap
    rw [if_pos hLeap, if_pos hLeap]
    simp only [inLeapSecond, count, decide_eq_false_iff_not]
    simp only [Span.nanosPerSecond] at *
    omega
  · rw [if_neg hLeap, if_neg hLeap]
    simp only [inLeapSecond, count, decide_eq_false_iff_not]
    simp only [Span.nanosPerSecond] at *
    omega

/-- The gap between two readings in nanoseconds. -/
theorem since_nanos (later earlier : Instant) :
    (later.since earlier).nanos
      = later.count - earlier.count + leapCorrection later earlier * Span.nanosPerSecond := by
  simp only [since, count, Int.add_mul, Int.sub_mul]
  omega

theorem leapCorrection_le (later earlier : Instant) :
    leapCorrection later earlier ≤ if earlier.inLeapSecond then 1 else 0 := by
  unfold leapCorrection
  split
  · next h =>
    rw [Bool.and_eq_true] at h
    exact Int.le_of_eq (if_pos h.2).symm
  · split <;> split <;> omega

/-- Whoever is still in a leap second was in it before. -/
theorem staysInLeapSecond_of_le {base : Instant} {first second : Gap} (hFirst : 0 ≤ first.nanos)
    (hLE : first.nanos ≤ second.nanos) (h : base.staysInLeapSecond second = true) :
    base.staysInLeapSecond first = true := by
  simp only [staysInLeapSecond, Bool.and_eq_true, decide_eq_true_eq] at *
  obtain ⟨⟨hLeap, hSeconds⟩, hNanos⟩ := h
  have hNanosLeap : Span.nanosPerSecond ≤ base.nanos := of_decide_eq_true hLeap
  refine ⟨⟨hLeap, ?_⟩, by omega⟩
  simp only [Gap.seconds, Span.nanosPerSecond] at *
  rw [Int.tdiv_eq_ediv_of_nonneg hFirst]
  omega

/-- Two steps forward from one reading end no further apart than they are long. -/
theorem since_shift_le {base : Instant} {first second : Gap} (hFirst : 0 ≤ first.nanos)
    (hLE : first.nanos ≤ second.nanos) :
    ((base.shift second).since (base.shift first)).nanos ≤ second.nanos - first.nanos := by
  rw [since_nanos]
  have hCorrection := leapCorrection_le (base.shift second) (base.shift first)
  cases hSecond : base.staysInLeapSecond second with
  | true =>
      have hStays := staysInLeapSecond_of_le hFirst hLE hSecond
      have hNone : leapCorrection (base.shift second) (base.shift first) = 0 := by
        rw [shift_of_stays hSecond, shift_of_stays hStays]
        simp [leapCorrection, secondOfDay]
      rw [hNone, shift_of_stays hSecond, shift_of_stays hStays]
      simp only [count]
      omega
  | false =>
      obtain ⟨-, hMoved⟩ := shift_of_moves (by omega) hSecond
      rw [hMoved]
      cases hStays : base.staysInLeapSecond first with
      | true =>
          have hLeap : base.inLeapSecond = true := by
            simp only [staysInLeapSecond, Bool.and_eq_true] at hStays
            exact hStays.1.1
          -- The second that is not counted makes up for the correction.
          have hAtMost : leapCorrection (base.shift second) (base.shift first) ≤ 1 := by
            refine Int.le_trans hCorrection ?_
            split <;> omega
          rw [if_pos hLeap, shift_of_stays hStays]
          rw [shift_of_stays hStays] at hAtMost
          simp only [count, Span.nanosPerSecond] at *
          omega
      | false =>
          obtain ⟨hOut, hStart⟩ := shift_of_moves hFirst hStays
          rw [hOut, if_neg Bool.false_ne_true] at hCorrection
          rw [hStart]
          simp only [Span.nanosPerSecond] at *
          omega

/-- The time that a clock shows to have passed is never more than what has passed. -/
theorem since_after?_le {base earlier later : Instant} {first second : Nat} (hLE : first ≤ second)
    (hEarlier : base.after? first = some earlier) (hLater : base.after? second = some later) :
    (later.since earlier).nanos
      ≤ min (second : Int) Gap.longest.nanos - min (first : Int) Gap.longest.nanos := by
  rw [← after?_eq_some hEarlier, ← after?_eq_some hLater]
  have hLongest : 0 ≤ Gap.longest.nanos := by decide
  refine since_shift_le ?_ ?_ <;> simp only [Span.toGap] <;> omega

end Instant

/-- **No lease ends early.**  A row found expired was written more than a lease ago. -/
theorem LockRow.lt_of_isExpired_after? {base now : Instant} {row : LockRow} {lease : Span}
    {first second : Nat} (hLE : first ≤ second) (hRow : base.after? first = some row.updateTime)
    (hNow : base.after? second = some now) (hExpired : row.isExpired now lease = true) :
    first + lease.nanos < second := by
  simp only [isExpired, elapsed, decide_eq_true_eq, Gap.lt_iff_nanos_lt, Span.toGap] at hExpired
  have hPassed := Instant.since_after?_le hLE hRow hNow
  have hLongest : 0 ≤ Gap.longest.nanos := by decide
  omega

/-! ## Away from leap seconds -/

namespace Instant

/-- A clock that began away from a leap second shows none, and counts what has passed. -/
theorem count_shift {base : Instant} (hLeap : base.inLeapSecond = false) (now : Nat) :
    (base.shift (Span.mk now).toGap).inLeapSecond = false ∧
      (base.shift (Span.mk now).toGap).count = base.count + min (now : Int) Gap.longest.nanos := by
  have hLongest : 0 ≤ Gap.longest.nanos := by decide
  have hGap : 0 ≤ (Span.mk now).toGap.nanos := by
    simp only [Span.toGap]
    omega
  have hMoves : base.staysInLeapSecond (Span.mk now).toGap = false := by
    rw [staysInLeapSecond, hLeap]
    rfl
  obtain ⟨hOut, hCount⟩ := shift_of_moves hGap hMoves
  rw [hLeap, if_neg Bool.false_ne_true] at hCount
  refine ⟨hOut, ?_⟩
  simp only [Span.toGap] at *
  omega

theorem count_after? {base reading : Instant} {now : Nat} (hLeap : base.inLeapSecond = false)
    (h : base.after? now = some reading) :
    reading.inLeapSecond = false ∧
      reading.count = base.count + min (now : Int) Gap.longest.nanos := by
  rw [← after?_eq_some h]
  exact count_shift hLeap now

/-- Away from leap seconds the count decides the day. -/
theorem day_eq_of_not_leap {instant : Instant} (h : instant.inLeapSecond = false) :
    instant.day = instant.count / (secondsPerDay * Span.nanosPerSecond) := by
  have hNanos : instant.nanos < Span.nanosPerSecond := Nat.lt_of_not_le (of_decide_eq_false h)
  simp only [count, day, secondsPerDay, Span.nanosPerSecond] at *
  omega

theorem firstDay_le_of_isValid {instant : Instant} (h : instant.isValid = true) :
    Date.firstDay ≤ instant.day := by
  simp only [isValid, Bool.and_eq_true, decide_eq_true_eq] at h
  exact h.1.1.1

theorem le_lastDay_of_after? {base reading : Instant} {now : Nat}
    (h : base.after? now = some reading) : reading.day ≤ Date.lastDay := by
  simp only [after?, plus?] at h
  split at h
  · next hDays =>
    rw [Bool.and_eq_true, decide_eq_true_eq, decide_eq_true_eq] at hDays
    rw [← Option.some.inj h]
    exact hDays.2
  · cases h

/-- A clock that began at a supported reading away from a leap second shows supported ones. -/
theorem isValid_of_after? {base reading : Instant} {now : Nat} (hValid : base.isValid = true)
    (hLeap : base.inLeapSecond = false) (h : base.after? now = some reading) :
    reading.isValid = true := by
  obtain ⟨hOut, hCount⟩ := count_after? hLeap h
  have hFirst := firstDay_le_of_isValid hValid
  have hLast := le_lastDay_of_after? h
  have hLongest : 0 ≤ Gap.longest.nanos := by decide
  have hDay : base.day ≤ reading.day := by
    rw [day_eq_of_not_leap hLeap, day_eq_of_not_leap hOut, hCount]
    exact Int.ediv_le_ediv (by decide) (by omega)
  have hNanos : reading.nanos < Span.nanosPerSecond := Nat.lt_of_not_le (of_decide_eq_false hOut)
  have hSmall : reading.nanos < 2 * Span.nanosPerSecond := by omega
  simp [isValid, hOut, hSmall, hLast, Int.le_trans hFirst hDay]

/-- The calendar ends before the longest gap is over. -/
theorem lt_longest_of_after? {base reading : Instant} {now : Nat} (hValid : base.isValid = true)
    (hLeap : base.inLeapSecond = false) (h : base.after? now = some reading) :
    (now : Int) < Gap.longest.nanos := by
  obtain ⟨hOut, hCount⟩ := count_after? hLeap h
  have hFirst := firstDay_le_of_isValid hValid
  have hLast := le_lastDay_of_after? h
  rw [day_eq_of_not_leap hLeap] at hFirst
  rw [day_eq_of_not_leap hOut] at hLast
  have hCalendar : Date.firstDay = -96465292 ∧ Date.lastDay = 95026236 := by decide
  have hLongest : Gap.longest.nanos = 9223372036854775807000000 := by decide
  simp only [secondsPerDay, Span.nanosPerSecond] at *
  omega

/-- A clock that can be read at some time can be read before. -/
theorem exists_after?_of_le {base reading : Instant} {first second : Nat}
    (hValid : base.isValid = true) (hLeap : base.inLeapSecond = false) (hLE : first ≤ second)
    (h : base.after? second = some reading) : ∃ earlier, base.after? first = some earlier := by
  obtain ⟨hOut, hCount⟩ := count_after? hLeap h
  obtain ⟨hFirstOut, hFirstCount⟩ := count_shift hLeap first
  have hFirst := firstDay_le_of_isValid hValid
  have hLast := le_lastDay_of_after? h
  have hLongest : 0 ≤ Gap.longest.nanos := by decide
  have hDays : Date.firstDay ≤ (base.shift (Span.mk first).toGap).day ∧
      (base.shift (Span.mk first).toGap).day ≤ Date.lastDay := by
    rw [day_eq_of_not_leap hFirstOut]
    rw [day_eq_of_not_leap hLeap] at hFirst
    rw [day_eq_of_not_leap hOut] at hLast
    simp only [secondsPerDay, Span.nanosPerSecond] at *
    omega
  refine ⟨base.shift (Span.mk first).toGap, ?_⟩
  simp only [after?, plus?]
  rw [if_pos]
  rw [Bool.and_eq_true, decide_eq_true_eq, decide_eq_true_eq]
  exact hDays

end Instant

/-- **When a lease ends.**  Away from leap seconds a row is found expired as soon as more than
the lease has passed since it was written. -/
theorem LockRow.isExpired_after?_iff {base now : Instant} {row : LockRow} {lease : Span}
    {first second : Nat} (hValid : base.isValid = true) (hLeap : base.inLeapSecond = false)
    (hLE : first ≤ second) (hRow : base.after? first = some row.updateTime)
    (hNow : base.after? second = some now) :
    row.isExpired now lease = true ↔ first + lease.nanos < second := by
  refine ⟨lt_of_isExpired_after? hLE hRow hNow, fun hOver => ?_⟩
  obtain ⟨hRowOut, hRowCount⟩ := Instant.count_after? hLeap hRow
  obtain ⟨hNowOut, hNowCount⟩ := Instant.count_after? hLeap hNow
  have hBound := Instant.lt_longest_of_after? hValid hLeap hNow
  have hSince := Instant.since_nanos_of_not_leap now row.updateTime hNowOut hRowOut
  simp only [Instant.count] at hRowCount hNowCount
  simp only [isExpired, elapsed, decide_eq_true_eq, Gap.lt_iff_nanos_lt, Span.toGap]
  omega

/-! ## Supported readings -/

namespace Instant

/-- Two supported readings are less than the longest gap apart. -/
theorem since_lt_longest {later earlier : Instant} (hLater : later.isValid = true)
    (hEarlier : earlier.isValid = true) :
    (later.since earlier).nanos < Gap.longest.nanos := by
  have hFirst := firstDay_le_of_isValid hEarlier
  have hLast : later.day ≤ Date.lastDay ∧ later.nanos < 2 * Span.nanosPerSecond := by
    simp only [isValid, Bool.and_eq_true, decide_eq_true_eq] at hLater
    exact ⟨hLater.1.1.2, hLater.1.2⟩
  have hCorrection : leapCorrection later earlier ≤ 1 :=
    Int.le_trans (leapCorrection_le later earlier) (by split <;> decide)
  have hCalendar : Date.firstDay = -96465292 ∧ Date.lastDay = 95026236 := by decide
  have hLongest : Gap.longest.nanos = 9223372036854775807000000 := by decide
  simp only [since, day, secondsPerDay, Span.nanosPerSecond] at *
  omega

end Instant

/-- **When a row is expired.**  Between supported readings this is so exactly if more than the
lease lies between them, however long the lease is. -/
theorem LockRow.isExpired_iff {row : LockRow} {now : Instant} {lease : Span}
    (hRow : row.updateTime.isValid = true) (hNow : now.isValid = true) :
    row.isExpired now lease = true ↔ (lease.nanos : Int) < (now.since row.updateTime).nanos := by
  have hBound := Instant.since_lt_longest hNow hRow
  simp only [isExpired, elapsed, decide_eq_true_eq, Gap.lt_iff_nanos_lt, Span.toGap]
  omega

end Leasehold
