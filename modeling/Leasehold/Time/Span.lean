import Leasehold.Number.Word

/-!
# Spans of time

Leases, heartbeat periods and retry delays are spans: a whole, non-negative number
of nanoseconds.  A difference of two clock readings can be negative, so it is a
type of its own.

* `Span`: a length of time, with the views in seconds and milliseconds.
* `Span.toText`: the text of a span, in the largest unit that it fills.
* `Gap`: a signed difference of clock readings.
* `Span.toGap`: the gap that a span allows, cut off at the longest gap there is.
-/

namespace Leasehold

/-- A length of time in nanoseconds. -/
structure Span where
  nanos : Nat
  deriving Repr, DecidableEq, Inhabited

namespace Span

/-- Nanoseconds in a second. -/
def nanosPerSecond : Nat := 1000000000

/-- Nanoseconds in a millisecond. -/
def nanosPerMilli : Nat := 1000000

/-- The span of `seconds` and `nanos` together. -/
def ofParts (seconds nanos : Nat) : Span := ⟨seconds * nanosPerSecond + nanos⟩

/-- A whole number of seconds. -/
def ofSeconds (seconds : Nat) : Span := ofParts seconds 0

/-- A whole number of milliseconds. -/
def ofMillis (millis : Nat) : Span := ⟨millis * nanosPerMilli⟩

/-- The whole seconds of a span. -/
def seconds (span : Span) : Nat := span.nanos / nanosPerSecond

/-- The nanoseconds past the last whole second. -/
def subsecondNanos (span : Span) : Nat := span.nanos % nanosPerSecond

/-- The whole milliseconds of a span. -/
def millis (span : Span) : Nat := span.nanos / nanosPerMilli

/-- The empty span. -/
def zero : Span := ⟨0⟩

/-- The longest span: a 64-bit count of seconds and what is short of one more. -/
def longest : Span := ofParts (Word.maxNat 64) (nanosPerSecond - 1)

instance : LT Span := ⟨fun a b => a.nanos < b.nanos⟩

instance : LE Span := ⟨fun a b => a.nanos ≤ b.nanos⟩

instance (a b : Span) : Decidable (a < b) := inferInstanceAs (Decidable (a.nanos < b.nanos))

instance (a b : Span) : Decidable (a ≤ b) := inferInstanceAs (Decidable (a.nanos ≤ b.nanos))

theorem lt_iff_nanos_lt (a b : Span) : a < b ↔ a.nanos < b.nanos := Iff.rfl

theorem le_iff_nanos_le (a b : Span) : a ≤ b ↔ a.nanos ≤ b.nanos := Iff.rfl

/-- A fraction of `width` decimal places without the zeros at its end; empty if
nothing is left. -/
def fractionText (width fraction : Nat) : String :=
  let digits := Nat.toDigits 10 fraction
  let padded := List.replicate (width - digits.length) '0' ++ digits
  let kept := (padded.reverse.dropWhile (· == '0')).reverse
  if kept.isEmpty then "" else "." ++ String.ofList kept

/-- A span in the largest of `s`, `ms`, `µs` and `ns` whose whole part is not zero,
with the decimal places that it needs. -/
def toText (span : Span) : String :=
  let nanos := span.nanos
  if nanosPerSecond ≤ nanos then
    toString span.seconds ++ fractionText 9 span.subsecondNanos ++ "s"
  else if nanosPerMilli ≤ nanos then
    toString (nanos / nanosPerMilli) ++ fractionText 6 (nanos % nanosPerMilli) ++ "ms"
  else if 1000 ≤ nanos then
    toString (nanos / 1000) ++ fractionText 3 (nanos % 1000) ++ "µs"
  else toString nanos ++ "ns"

end Span

/-- A signed difference of clock readings in nanoseconds. -/
structure Gap where
  nanos : Int
  deriving Repr, DecidableEq, Inhabited

namespace Gap

/-- The whole seconds of a gap, cut toward zero. -/
def seconds (gap : Gap) : Int := Int.tdiv gap.nanos Span.nanosPerSecond

/-- The nanoseconds past the whole seconds; they have the sign of the gap. -/
def subsecondNanos (gap : Gap) : Int := Int.tmod gap.nanos Span.nanosPerSecond

/-- The longest gap, a signed 64-bit count of milliseconds. -/
def longest : Gap := ⟨Word.maxInt 64 * Span.nanosPerMilli⟩

instance : LT Gap := ⟨fun a b => a.nanos < b.nanos⟩

instance (a b : Gap) : Decidable (a < b) := inferInstanceAs (Decidable (a.nanos < b.nanos))

theorem lt_iff_nanos_lt (a b : Gap) : a < b ↔ a.nanos < b.nanos := Iff.rfl

end Gap

/-- A span as a gap; a span longer than every gap becomes the longest one. -/
def Span.toGap (span : Span) : Gap :=
  ⟨min (span.nanos : Int) Gap.longest.nanos⟩

end Leasehold
