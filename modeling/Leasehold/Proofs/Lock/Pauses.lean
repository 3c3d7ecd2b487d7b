import Leasehold.Proofs.Lock.Ceilings
import Leasehold.Proofs.Number.Rounding

/-!
# Waits that pause

A jittered delay is drawn in whole milliseconds.  A ceiling below one millisecond therefore leaves
nothing but the empty delay, and a node that waits for a held lock tries again at once.  Accepted
policies keep clear of this exactly if their first ceiling is a millisecond or more: the ceilings
are computed in binary64 numbers, but rounding keeps the order, and so no ceiling falls below it.

* `Backoff.Pauses`: a wait that can have a delay other than the empty one.
* `Span.toNanos?_toBinary64`: a span within a second survives the conversion to a binary64 number.
* `Span.toBinary64_below`: from within a second on the conversion to binary64 numbers is monotone.
* `RetryPolicy.FromMilli`: the policies whose ceilings begin with a millisecond or more.
* `Backoff.pauses_iff_fromMilli`: the accepted policies whose waits always pause.
* `Backoff.not_pauses_of_accepted`: not all of them are.
-/

namespace Leasehold

open Binary64 (Below)

/-! ## Spans as binary64 numbers -/

namespace Span

theorem lt_of_le_of_lt {span other bound : Span} (h : span ≤ other) (h' : other < bound) :
    span < bound :=
  Nat.lt_of_le_of_lt h h'

theorem ofNat_second :
    Binary64.ofNat nanosPerSecond = .finite false (nanosPerSecond * Binary64.unitsOfOne) :=
  Binary64.ofNat_eq (by decide)

theorem units_second_pos : 0 < nanosPerSecond * Binary64.unitsOfOne :=
  Nat.mul_pos (by decide) Binary64.unitsOfOne_pos

theorem units_second_ne_zero : nanosPerSecond * Binary64.unitsOfOne ≠ 0 :=
  Nat.pos_iff_ne_zero.mp units_second_pos

/-! ### Within a second -/

section

variable {span other : Span}

/-- Within a second only the fraction is left, and it is rounded once. -/
theorem toBinary64_of_lt (h : span.nanos < nanosPerSecond) :
    span.toBinary64 = .ofUnits false (span.nanos * Binary64.unitsOfOne * Binary64.unitsOfOne)
      (nanosPerSecond * Binary64.unitsOfOne) := by
  have hSeconds : span.seconds = 0 := Nat.div_eq_of_lt h
  have hNanos : span.subsecondNanos = span.nanos := Nat.mod_eq_of_lt h
  have hExact : span.nanos < 2 ^ 53 := Nat.lt_trans h (by decide)
  rw [toBinary64, hSeconds, hNanos, Binary64.ofNat_zero, ofNat_second, Binary64.ofNat_eq hExact,
    Binary64.div_finite _ units_second_ne_zero, Binary64.zero_add_ofUnits _ units_second_pos]

theorem toBinary64_below_within (h : span ≤ other) (hOther : other.nanos < nanosPerSecond) :
    Below span.toBinary64 other.toBinary64 := by
  rw [toBinary64_of_lt (Nat.lt_of_le_of_lt h hOther), toBinary64_of_lt hOther]
  exact Binary64.below_ofUnits units_second_pos
    (Nat.mul_le_mul_right _ (Nat.mul_le_mul_right _ h))

/-- A span within a second is at most one. -/
theorem toBinary64_below_one (h : span.nanos < nanosPerSecond) :
    Below span.toBinary64 .one := by
  rw [toBinary64_of_lt h]
  exact Binary64.ofUnits_below_one units_second_pos (Binary64.fraction_le_one (Nat.le_of_lt h))

theorem toBinary64_mul_one (h : span.nanos < nanosPerSecond) :
    span.toBinary64.mul .one = span.toBinary64 := by
  rw [toBinary64_of_lt h, Binary64.ofUnits_mul_one _ units_second_pos]

/-- **A span within a second survives the conversion**: its seconds have its nanoseconds. -/
theorem toNanos?_toBinary64 (h : span.nanos < nanosPerSecond) :
    span.toBinary64.toNanos? = some span.nanos := by
  rw [toBinary64_of_lt h]
  rw [nanosPerSecond] at h ⊢
  exact Binary64.toNanos?_fraction h

end

/-! ### From a second on -/

/-- The fraction of a second is monotone. -/
theorem fraction_below {nanos other : Nat} (h : nanos ≤ other) :
    Below ((Binary64.ofNat nanos).div (Binary64.ofNat nanosPerSecond))
      ((Binary64.ofNat other).div (Binary64.ofNat nanosPerSecond)) := by
  rw [ofNat_second]
  exact (Binary64.ofNat_below h).div units_second_ne_zero

theorem fraction_zero :
    (Binary64.ofNat 0).div (Binary64.ofNat nanosPerSecond) = .finite false 0 := by
  rw [ofNat_second, Binary64.ofNat_zero, Binary64.div_finite 0 units_second_ne_zero,
    Nat.zero_mul, Binary64.ofUnits_zero units_second_pos]

/-- A span of a second or more is at least one. -/
theorem one_below_toBinary64 {span : Span} (h : nanosPerSecond ≤ span.nanos) :
    Below .one span.toBinary64 := by
  have hSeconds : 1 ≤ span.seconds := (Nat.one_le_div_iff (by decide)).mpr h
  have hFraction := fraction_below (Nat.zero_le span.subsecondNanos)
  have hSum := (Binary64.ofNat_below hSeconds).add hFraction
  rwa [fraction_zero, Binary64.ofNat_one, Binary64.one_add_zero] at hSum

/-- **From within a second on the conversion is monotone**: the number one lies between what is
short of a second and what is not. -/
theorem toBinary64_below {span other : Span} (hSpan : span.nanos < nanosPerSecond)
    (h : span ≤ other) : Below span.toBinary64 other.toBinary64 := by
  rcases Nat.lt_or_ge other.nanos nanosPerSecond with hOther | hOther
  · exact toBinary64_below_within h hOther
  · exact (toBinary64_below_one hSpan).trans (one_below_toBinary64 hOther)

/-- A span that is not empty is not zero. -/
theorem tiny_below_toBinary64 {span : Span} (h : 0 < span.nanos) :
    Below .tiny span.toBinary64 := by
  rcases Nat.lt_or_ge span.nanos nanosPerSecond with hSpan | hSpan
  · have hSecond : nanosPerSecond ≤ Binary64.unitsOfOne := Binary64.le_unitsOfOne (by decide)
    rw [toBinary64_of_lt hSpan]
    refine Binary64.tiny_below_ofUnits units_second_pos (Nat.mul_le_mul_right _ ?_)
    exact hSecond.trans (Nat.le_mul_of_pos_left _ h)
  · exact Binary64.tiny_below_one.trans (one_below_toBinary64 hSpan)

end Span

/-! ## Ceilings of accepted policies -/

namespace RetryPolicy

/-- What an accepted policy keeps to. -/
theorem accepted_jittered {initial most : Span} {multiplier : Binary64}
    (h : (jittered initial most multiplier).validate = .ok ()) :
    0 < initial.nanos ∧ initial ≤ most ∧ Below .one multiplier := by
  have hFault : (jittered initial most multiplier).fault? = none := by
    simp only [validate] at h
    split at h
    · cases h
    · assumption
  simp only [fault?] at hFault
  split at hFault
  · cases hFault
  · next hInitial =>
    split at hFault
    · cases hFault
    · next hMost =>
      split at hFault
      · cases hFault
      · next hMultiplier =>
        simp only [Bool.or_eq_true, Bool.not_eq_true', not_or, Bool.not_eq_false,
          Bool.not_eq_true] at hMultiplier
        exact ⟨Nat.pos_of_ne_zero hInitial, Nat.le_of_not_lt hMost,
          Binary64.one_below_of_not_lt hMultiplier.1 hMultiplier.2⟩

/-- Delays that do not grow are accepted unless they are empty. -/
theorem accepted_steady {span : Span} (h : 0 < span.nanos) :
    (jittered span span .one).validate = .ok () := by
  have hEmpty : span.nanos ≠ 0 := Nat.pos_iff_ne_zero.mp h
  have hCeiling : ¬ span < span := Nat.lt_irrefl span.nanos
  have hLess : Binary64.one.lt .one = false := Binary64.lt_irrefl _
  have hFault : (jittered span span .one).fault? = none := by
    simp only [fault?, hEmpty, hCeiling, hLess, Bool.or_false, if_false]
    rfl
  rw [validate, hFault]

/-- **The policies whose ceilings begin with a millisecond or more.** -/
def FromMilli : RetryPolicy → Prop
  | fixed => True
  | jittered initial _ _ => .ofMillis 1 ≤ initial

/-- The policies whose ceilings are cut off short of a millisecond. -/
def WithinMilli : RetryPolicy → Prop
  | fixed => False
  | jittered _ most _ => most < .ofMillis 1

end RetryPolicy

namespace Backoff

/-- A bound of the growing seconds is one of the ceiling. -/
theorem grown_le {initial most span : Span} {multiplier bound : Binary64} {attempts : Nat}
    (h : Below (grownSeconds initial most multiplier attempts) bound)
    (hBound : bound.toNanos? = some span.nanos) :
    grown initial most multiplier attempts ≤ span := by
  obtain ⟨fewer, hFewer, hLe⟩ := h.toNanos? hBound
  rw [grown_eq, hFewer]
  exact hLe

section

variable {initial most : Span} {multiplier : Binary64}
  (hAccepted : (RetryPolicy.jittered initial most multiplier).validate = .ok ())

include hAccepted

theorem tiny_below_initial : Below .tiny initial.toBinary64 :=
  Span.tiny_below_toBinary64 (RetryPolicy.accepted_jittered hAccepted).1

theorem one_below_growth (attempts : Nat) :
    Below .one (multiplier.powNat (Nat.min attempts lastGrowth)) :=
  Binary64.one_below_powNat _ (RetryPolicy.accepted_jittered hAccepted).2.2

/-- **Ceilings stay at what the first delay reaches**, up to a second: they grow from it, and where
they are cut off the last one is no less. -/
theorem le_grown {span : Span} (attempts : Nat) (hPos : 0 < span.nanos)
    (hSecond : span.nanos < Span.nanosPerSecond) (hInitial : span ≤ initial) :
    span ≤ grown initial most multiplier attempts := by
  have hMost : span ≤ most :=
    Nat.le_trans hInitial (RetryPolicy.accepted_jittered hAccepted).2.1
  have hGrowing := Below.mul (Span.tiny_below_toBinary64 hPos) Binary64.tiny_below_one
    (Span.toBinary64_below hSecond hInitial) (one_below_growth hAccepted attempts)
  have hSeconds := hGrowing.min (Span.toBinary64_below hSecond hMost)
  rw [Span.toBinary64_mul_one hSecond, Binary64.min_self, ← grownSeconds] at hSeconds
  rw [grown_eq]
  cases hNanos : (grownSeconds initial most multiplier attempts).toNanos? with
  | none => exact hMost
  | some nanos =>
      obtain ⟨fewer, hFewer, hLe⟩ := hSeconds.toNanos? hNanos
      rw [Span.toNanos?_toBinary64 hSecond] at hFewer
      obtain rfl := Option.some.inj hFewer
      exact hLe

/-- The first ceiling is no more than the first delay. -/
theorem grown_zero_le (hInitial : initial.nanos < Span.nanosPerSecond) :
    grown initial most multiplier 0 ≤ initial := by
  have hMost : Below initial.toBinary64 most.toBinary64 :=
    Span.toBinary64_below hInitial (RetryPolicy.accepted_jittered hAccepted).2.1
  have hSelf := Span.toBinary64_below hInitial (Nat.le_refl initial.nanos)
  have hSeconds : Below (grownSeconds initial most multiplier 0) initial.toBinary64 := by
    have hNone : Nat.min 0 lastGrowth = 0 := rfl
    rw [grownSeconds, hNone, Binary64.powNat_zero, Span.toBinary64_mul_one hInitial]
    exact hSelf.min_left hMost.right_below_infinite
  exact grown_le hSeconds (Span.toNanos?_toBinary64 hInitial)

/-- No ceiling is more than the last one. -/
theorem grown_le_most (attempts : Nat) (hMost : most.nanos < Span.nanosPerSecond) :
    grown initial most multiplier attempts ≤ most := by
  have hGrowing := Below.mul_below_infinite (tiny_below_initial hAccepted)
    (Binary64.tiny_below_one.trans (one_below_growth hAccepted attempts))
  have hSelf := Span.toBinary64_below hMost (Nat.le_refl most.nanos)
  have hSeconds : Below (grownSeconds initial most multiplier attempts) most.toBinary64 := by
    rw [grownSeconds]
    exact hGrowing.min_right hSelf
  exact grown_le hSeconds (Span.toNanos?_toBinary64 hMost)

end

/-! ## Pauses -/

/-- **A wait that can pause**: some draw below its ceiling gives a delay that is not empty. -/
def Pauses (backoff : Backoff) : Prop :=
  ∃ draw ≤ backoff.ceilingMillis, 0 < (backoff.delay draw).nanos

section

variable {backoff : Backoff}

theorem one_le_ceilingMillis_iff :
    1 ≤ backoff.ceilingMillis ↔ .ofMillis 1 ≤ backoff.ceiling := by
  have hWord : 1 ≤ maxMillis := by decide
  rw [Span.ofMillis_le_iff]
  exact Nat.le_min.trans (and_iff_left hWord)

/-- A jittered wait can pause exactly if its ceiling is a millisecond or more. -/
theorem pauses_iff_milli_le (h : backoff.policy.isJittered = true) :
    backoff.Pauses ↔ .ofMillis 1 ≤ backoff.ceiling := by
  rw [← one_le_ceilingMillis_iff]
  constructor
  · rintro ⟨draw, hDraw, hPos⟩
    rw [delay_of_jittered h, Nat.mod_eq_of_lt (Nat.lt_succ_of_le hDraw)] at hPos
    exact Nat.le_trans (Nat.pos_of_mul_pos_right hPos) hDraw
  · intro hCeiling
    refine ⟨1, hCeiling, ?_⟩
    rw [delay_of_jittered h, Nat.mod_eq_of_lt (Nat.lt_succ_of_le hCeiling)]
    decide

theorem delay_eq_zero (h : backoff.policy.isJittered = true)
    (hCeiling : backoff.ceiling < .ofMillis 1) (draw : Nat) : backoff.delay draw = .zero := by
  have hMillis : backoff.ceilingMillis = 0 := by
    have hNone := mt one_le_ceilingMillis_iff.mp (Nat.not_le_of_lt hCeiling)
    omega
  rw [delay_of_jittered h, hMillis, Nat.mod_one]
  rfl

theorem pauses_of_fixed (h : backoff.policy = .fixed) (hLease : 0 < backoff.lease.nanos) :
    backoff.Pauses :=
  ⟨0, Nat.zero_le _, by rwa [delay_of_fixed h]⟩

end

/-! ## Policies whose waits pause -/

theorem ceiling_after (initial most : Span) (multiplier : Binary64) (lease : Span) (n : Nat) :
    ((start (.jittered initial most multiplier) lease).after n).ceiling
      = grown initial most multiplier
          ((start (.jittered initial most multiplier) lease).after n).attempts := by
  have hPolicy := policy_after (start (.jittered initial most multiplier) lease) n
  rw [ceiling, hPolicy]
  rfl

section

variable {policy : RetryPolicy} (hAccepted : policy.validate = .ok ())

include hAccepted

theorem pauses_after {lease : Span} (hLease : 0 < lease.nanos) (hMilli : policy.FromMilli)
    (n : Nat) : ((start policy lease).after n).Pauses := by
  cases policy with
  | fixed =>
      refine pauses_of_fixed (policy_after _ n) ?_
      rwa [lease_after]
  | jittered initial most multiplier =>
      rw [pauses_iff_milli_le (by rw [policy_after]; rfl), ceiling_after]
      exact le_grown hAccepted _ (by decide) (by decide) hMilli

theorem delay_start_eq_zero (lease : Span) (hMilli : ¬ policy.FromMilli) (draw : Nat) :
    (start policy lease).delay draw = .zero := by
  cases policy with
  | fixed => exact absurd trivial hMilli
  | jittered initial most multiplier =>
      refine delay_eq_zero rfl ?_ draw
      have hCeiling := ceiling_after initial most multiplier lease 0
      rw [after] at hCeiling
      rw [hCeiling]
      have hInitial : initial < .ofMillis 1 := Nat.lt_of_not_le hMilli
      have hSecond : initial.nanos < Span.nanosPerSecond := Nat.lt_trans hInitial (by decide)
      exact Span.lt_of_le_of_lt (grown_zero_le hAccepted hSecond) hInitial

theorem delay_after_eq_zero (lease : Span) (hMilli : policy.WithinMilli) (n draw : Nat) :
    ((start policy lease).after n).delay draw = .zero := by
  cases policy with
  | fixed => exact absurd hMilli id
  | jittered initial most multiplier =>
      refine delay_eq_zero (by rw [policy_after]; rfl) ?_ draw
      rw [ceiling_after]
      have hSecond : most.nanos < Span.nanosPerSecond := Nat.lt_trans hMilli (by decide)
      exact Span.lt_of_le_of_lt (grown_le_most hAccepted _ hSecond) hMilli

end

theorem not_pauses_of_zero {backoff : Backoff} (h : ∀ draw, backoff.delay draw = .zero) :
    ¬ backoff.Pauses := by
  rintro ⟨draw, -, hPos⟩
  rw [h draw] at hPos
  exact Nat.lt_irrefl 0 hPos

/-- **The accepted policies whose waits always pause** are those whose ceilings begin with a
millisecond or more.  Under any other the first delay is empty, whatever it is drawn from, and
where all ceilings are short of a millisecond so is every delay. -/
theorem pauses_iff_fromMilli {policy : RetryPolicy} {lease : Span}
    (hAccepted : policy.validate = .ok ()) (hLease : 0 < lease.nanos) :
    ((∀ n, ((start policy lease).after n).Pauses) ↔ policy.FromMilli) ∧
      (¬ policy.FromMilli → ∀ draw, (start policy lease).delay draw = .zero) ∧
      (policy.WithinMilli → ∀ n draw, ((start policy lease).after n).delay draw = .zero) := by
  refine ⟨⟨fun hPauses => ?_, pauses_after hAccepted hLease⟩,
    delay_start_eq_zero hAccepted lease, delay_after_eq_zero hAccepted lease⟩
  by_contra hMilli
  exact not_pauses_of_zero (delay_start_eq_zero hAccepted lease hMilli) (hPauses 0)

/-- Jittered delays from a millisecond on that do not grow. -/
def milliJitter : RetryPolicy := .jittered (.ofMillis 1) (.ofMillis 1) .one

theorem pauses_milliJitter :
    milliJitter.validate = .ok () ∧ 0 < (Span.ofSeconds 600).nanos ∧
      ∀ n, ((start milliJitter (.ofSeconds 600)).after n).Pauses := by
  have hAccepted : milliJitter.validate = .ok () := RetryPolicy.accepted_steady (by decide)
  have hLease : 0 < (Span.ofSeconds 600).nanos := by decide
  have hMilli : milliJitter.FromMilli := Nat.le_refl _
  exact ⟨hAccepted, hLease, (pauses_iff_fromMilli hAccepted hLease).1.mpr hMilli⟩

/-- Jittered delays up to a nanosecond. -/
def nanoJitter : RetryPolicy := .jittered ⟨1⟩ ⟨1⟩ .one

/-- Not every accepted policy pauses: delays up to a nanosecond are all empty. -/
theorem not_pauses_of_accepted :
    ¬ ∀ (policy : RetryPolicy) (lease : Span), policy.validate = .ok () → 0 < lease.nanos →
      ∀ n, ((start policy lease).after n).Pauses := by
  intro hPauses
  have hAccepted : nanoJitter.validate = .ok () := RetryPolicy.accepted_steady (by decide)
  have hWithin : nanoJitter.WithinMilli := Nat.one_lt_succ_succ _
  have hZero := delay_after_eq_zero hAccepted (.ofSeconds 600) hWithin 0
  exact not_pauses_of_zero hZero (hPauses nanoJitter _ hAccepted (by decide) 0)

end Backoff

end Leasehold
