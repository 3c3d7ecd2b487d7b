import Leasehold.Proofs.Time.Elapsed

/-!
# Expiry in exact arithmetic

A lease is a span of up to 64 bits of seconds, and is compared with the gap between two clock
readings, which is a signed count of milliseconds with a fraction.  A lease that is too long for a
gap is cut off.  The verdict is nevertheless the one of whole numbers: between supported readings
away from leap seconds a row is expired exactly if more nanoseconds than those of the lease lie
between its last write and the reading.

* `Instant.borrowed`: seconds and nanoseconds between two readings, with a second borrowed.
* `Instant.abs_since_lt_longest`: no gap between supported readings is cut off.
* `LockRow.isExpired_iff_count`: the verdict in nanoseconds.
* `LockRow.isExpired_iff_borrowed`: the verdict in seconds and nanoseconds.
* `LockRow.expiry_exact`: both, and what follows for later readings and shorter leases.
-/

namespace Leasehold

namespace Instant

/-- The seconds and the nanoseconds between two readings; where the nanoseconds do not suffice, a
second is borrowed. -/
def borrowed (later earlier : Instant) : Int × Int :=
  if later.nanos < earlier.nanos then
    (later.seconds - earlier.seconds - 1, later.nanos + Span.nanosPerSecond - earlier.nanos)
  else (later.seconds - earlier.seconds, later.nanos - earlier.nanos)

/-- Away from leap seconds the nanoseconds are less than a second, and both make up the gap. -/
theorem borrowed_spec {later earlier : Instant} (hLater : later.inLeapSecond = false)
    (hEarlier : earlier.inLeapSecond = false) :
    0 ≤ (later.borrowed earlier).2 ∧ (later.borrowed earlier).2 < Span.nanosPerSecond ∧
      (later.borrowed earlier).1 * Span.nanosPerSecond + (later.borrowed earlier).2
        = later.count - earlier.count := by
  have hLaterNanos : later.nanos < Span.nanosPerSecond :=
    Nat.lt_of_not_le (of_decide_eq_false hLater)
  have hEarlierNanos : earlier.nanos < Span.nanosPerSecond :=
    Nat.lt_of_not_le (of_decide_eq_false hEarlier)
  simp only [borrowed, count, Span.nanosPerSecond] at *
  split <;> omega

/-- Supported readings are less than the longest gap apart, whichever of them is the later one. -/
theorem abs_since_lt_longest {later earlier : Instant} (hLater : later.isValid = true)
    (hEarlier : earlier.isValid = true) (hLaterLeap : later.inLeapSecond = false)
    (hEarlierLeap : earlier.inLeapSecond = false) :
    -Gap.longest.nanos < (later.since earlier).nanos ∧
      (later.since earlier).nanos < Gap.longest.nanos := by
  have hForward := since_lt_longest hLater hEarlier
  have hBackward := since_lt_longest hEarlier hLater
  rw [since_nanos_of_not_leap earlier later hEarlierLeap hLaterLeap] at hBackward
  rw [since_nanos_of_not_leap later earlier hLaterLeap hEarlierLeap] at hForward ⊢
  omega

end Instant

namespace LockRow

variable {row : LockRow} {now : Instant}

section

variable (hRow : row.updateTime.isValid = true) (hRowLeap : row.updateTime.inLeapSecond = false)
  (hNow : now.isValid = true) (hNowLeap : now.inLeapSecond = false)

include hRow hRowLeap hNow hNowLeap

/-- **The verdict in nanoseconds**, whole numbers without any bound. -/
theorem isExpired_iff_count (lease : Span) :
    row.isExpired now lease = true ↔ (lease.nanos : Int) < now.count - row.updateTime.count := by
  rw [isExpired_iff hRow hNow, Instant.since_nanos_of_not_leap now row.updateTime hNowLeap hRowLeap]
  rfl

/-- **The verdict in seconds and nanoseconds**: the seconds decide, and where they are the same the
nanoseconds do. -/
theorem isExpired_iff_borrowed (lease : Span) :
    row.isExpired now lease = true ↔
      (lease.seconds : Int) < (now.borrowed row.updateTime).1 ∨
        (lease.seconds : Int) = (now.borrowed row.updateTime).1 ∧
          (lease.subsecondNanos : Int) < (now.borrowed row.updateTime).2 := by
  obtain ⟨hNonneg, hLess, hSum⟩ := Instant.borrowed_spec hNowLeap hRowLeap
  rw [isExpired_iff_count hRow hRowLeap hNow hNowLeap, ← hSum]
  simp only [Span.seconds, Span.subsecondNanos, Span.nanosPerSecond] at *
  omega

end

/-- **Expiry is exact.**  Between supported readings away from leap seconds, and for every lease
however long, a row is expired exactly if strictly more nanoseconds than those of the lease lie
between its last write and the reading, counted without any bound.  Seconds and nanoseconds apart
say the same, with a second borrowed where it is needed.  No gap between such readings is cut off,
and cutting off the lease never changes the verdict.  So what has expired stays expired at every
later reading and under every shorter lease, and a row that was written at the reading or after it
is never expired. -/
theorem expiry_exact (hRow : row.updateTime.isValid = true)
    (hRowLeap : row.updateTime.inLeapSecond = false) (hNow : now.isValid = true)
    (hNowLeap : now.inLeapSecond = false) (lease : Span) :
    (row.isExpired now lease = true ↔ (lease.nanos : Int) < now.count - row.updateTime.count) ∧
    (row.isExpired now lease = true ↔
      (lease.seconds : Int) < (now.borrowed row.updateTime).1 ∨
        (lease.seconds : Int) = (now.borrowed row.updateTime).1 ∧
          (lease.subsecondNanos : Int) < (now.borrowed row.updateTime).2) ∧
    (-Gap.longest.nanos < (row.elapsed now).nanos ∧
      (row.elapsed now).nanos < Gap.longest.nanos) ∧
    row.isExpired now lease = decide ((⟨lease.nanos⟩ : Gap) < row.elapsed now) ∧
    (∀ later : Instant, later.isValid = true → later.inLeapSecond = false →
      (compare now later).isLE = true → row.isExpired now lease = true →
        row.isExpired later lease = true) ∧
    (∀ shorter : Span, shorter ≤ lease → row.isExpired now lease = true →
      row.isExpired now shorter = true) ∧
    ((compare now row.updateTime).isLE = true → row.isExpired now lease = false) := by
  have hExact := isExpired_iff_count hRow hRowLeap hNow hNowLeap
  refine ⟨hExact lease, isExpired_iff_borrowed hRow hRowLeap hNow hNowLeap lease,
    Instant.abs_since_lt_longest hNow hRow hNowLeap hRowLeap, ?uncut, ?later, ?shorter, ?future⟩
  case uncut =>
    refine Bool.eq_iff_iff.mpr ((isExpired_iff hRow hNow).trans ?_)
    rw [decide_eq_true_iff]
    exact Iff.rfl
  case later =>
    intro later _ hLaterLeap hLE hExpired
    exact isExpired_of_isLE hExpired hLE hRowLeap hNowLeap hLaterLeap
  case shorter =>
    intro shorter hShorter hExpired
    have hNanos : shorter.nanos ≤ lease.nanos := hShorter
    rw [hExact] at hExpired ⊢
    omega
  case future =>
    intro hFuture
    have hCount := Instant.count_le_count hFuture hNowLeap
    rw [Bool.eq_false_iff, Ne, hExact]
    omega

/-- A row from the last nanosecond before 1970.  Ten seconds and a nanosecond later a second has to
be borrowed: a lease of ten seconds is over, and one that is a nanosecond longer is not.  At the last
reading there is, the longest lease of all is not over either. -/
theorem expiry_exact_borrowed :
    let row : LockRow := ⟨"job", 7, "a", ⟨-1, 999999999⟩⟩
    row.isExpired ⟨10, 0⟩ (.ofSeconds 10) = true ∧
      row.isExpired ⟨10, 0⟩ (.ofParts 10 1) = false ∧
      row.isExpired ⟨8210266876799, 999999999⟩ .longest = false := by
  intro row
  have hRow : row.updateTime.isValid = true := by decide
  have hTen := @expiry_exact row ⟨10, 0⟩ hRow rfl (by decide) rfl
  have hLast := @expiry_exact row ⟨8210266876799, 999999999⟩ hRow rfl (by decide) rfl
  refine ⟨(hTen (.ofSeconds 10)).2.1.mpr (by decide), ?_, ?_⟩
  · rw [Bool.eq_false_iff, Ne, (hTen (.ofParts 10 1)).2.1]
    decide
  · rw [Bool.eq_false_iff, Ne, (hLast .longest).1]
    decide

end LockRow
end Leasehold
