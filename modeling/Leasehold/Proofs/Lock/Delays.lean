import Leasehold.Lock.Retry
import Mathlib.Algebra.BigOperators.Group.List.Basic
import Mathlib.Algebra.GroupWithZero.Nat

/-!
# Delays of a wait

The delays between the attempts of one wait come from a generator: each is drawn below a ceiling
that depends on how many came before.

* `Backoff.after`: the generator after a number of delays.
* `Backoff.delays`: its delays, given what they are drawn from; `Backoff.Generates` says that
  delays are some of these.
* `attemptTimes`: when the attempts begin that have these delays between them.
-/

namespace Leasehold
namespace Backoff

/-- The wait after a number of delays. -/
def after (backoff : Backoff) : Nat → Backoff
  | 0 => backoff
  | n + 1 => (backoff.after n).next

/-- The delays of a wait in nanoseconds, given what they are drawn from. -/
def delays (backoff : Backoff) (draws : List Nat) : List Nat :=
  draws.mapIdx fun k draw => ((backoff.after k).delay draw).nanos

/-- Delays that a wait can have. -/
def Generates (backoff : Backoff) (delays : List Nat) : Prop :=
  ∃ draws, delays = backoff.delays draws

@[simp]
theorem length_delays (backoff : Backoff) (draws : List Nat) :
    (backoff.delays draws).length = draws.length := by
  simp [delays]

/-- One more delay comes from the wait after those before it. -/
theorem delays_concat (backoff : Backoff) (draws : List Nat) (draw : Nat) :
    backoff.delays (draws ++ [draw])
      = backoff.delays draws ++ [((backoff.after draws.length).delay draw).nanos] := by
  simp [delays, List.mapIdx_concat]

theorem generates_nil (backoff : Backoff) : backoff.Generates [] := ⟨[], rfl⟩

theorem Generates.concat {backoff : Backoff} {delays : List Nat} (h : backoff.Generates delays)
    (draw : Nat) :
    backoff.Generates (delays ++ [((backoff.after delays.length).delay draw).nanos]) := by
  obtain ⟨draws, rfl⟩ := h
  refine ⟨draws ++ [draw], ?_⟩
  rw [delays_concat, length_delays]

@[simp]
theorem policy_after (backoff : Backoff) (n : Nat) : (backoff.after n).policy = backoff.policy := by
  induction n with
  | zero => rfl
  | succ n ih => exact ih

@[simp]
theorem lease_after (backoff : Backoff) (n : Nat) : (backoff.after n).lease = backoff.lease := by
  induction n with
  | zero => rfl
  | succ n ih => exact ih

/-- Under the fixed policy each delay is one lease. -/
theorem delay_of_fixed {backoff : Backoff} (h : backoff.policy = .fixed) (draw : Nat) :
    backoff.delay draw = backoff.lease := by
  simp only [delay, ceiling, h]

/-- Under a jittered policy each delay is drawn from whole milliseconds. -/
theorem delay_of_jittered {backoff : Backoff} (h : backoff.policy.isJittered = true) (draw : Nat) :
    backoff.delay draw = .ofMillis (draw % (backoff.ceilingMillis + 1)) := by
  cases hPolicy : backoff.policy with
  | fixed =>
      rw [hPolicy] at h
      cases h
  | jittered initial ceiling multiplier => simp only [delay, hPolicy]

/-- Under the fixed policy all delays are one lease. -/
theorem Generates.eq_replicate {lease : Span} {delays : List Nat}
    (h : (start .fixed lease).Generates delays) :
    delays = List.replicate delays.length lease.nanos := by
  obtain ⟨draws, rfl⟩ := h
  refine List.eq_replicate_iff.mpr ⟨rfl, fun nanos hMem => ?_⟩
  obtain ⟨k, hBound, rfl⟩ := List.mem_mapIdx.mp hMem
  rw [delay_of_fixed (policy_after _ k), lease_after]
  rfl

/-- The sum of delays under the fixed policy. -/
theorem Generates.sum_eq {lease : Span} {delays : List Nat}
    (h : (start .fixed lease).Generates delays) : delays.sum = delays.length * lease.nanos := by
  conv_lhs => rw [h.eq_replicate]
  exact List.sum_replicate_nat

end Backoff

/-- When attempts begin, the first at a time and the others each a delay after the one before. -/
def attemptTimes (start : Nat) (delays : List Nat) (n : Nat) : List Nat :=
  (List.range n).map fun k => start + (delays.take k).sum

variable (start : Nat) (delays : List Nat)

@[simp]
theorem length_attemptTimes (n : Nat) : (attemptTimes start delays n).length = n := by
  simp [attemptTimes]

/-- After all delays one more attempt begins. -/
theorem attemptTimes_succ :
    attemptTimes start delays (delays.length + 1)
      = attemptTimes start delays delays.length ++ [start + delays.sum] := by
  rw [attemptTimes, List.range_succ, List.map_append, List.map_singleton, List.take_length]
  rfl

/-- One more delay does not matter for the attempts before it. -/
theorem attemptTimes_concat (delay : Nat) :
    attemptTimes start (delays ++ [delay]) (delays.length + 1)
      = attemptTimes start delays (delays.length + 1) := by
  refine List.map_congr_left fun k hMem => ?_
  have hBound : k ≤ delays.length := Nat.le_of_lt_succ (List.mem_range.mp hMem)
  rw [List.take_append_of_le_length hBound]

variable {start : Nat} {delays : List Nat} {k n time : Nat}

theorem getElem?_attemptTimes_eq_some_iff :
    (attemptTimes start delays n)[k]? = some time
      ↔ k < n ∧ start + (delays.take k).sum = time := by
  rw [attemptTimes, List.getElem?_map, Option.map_eq_some_iff]
  constructor
  · rintro ⟨other, hOther, rfl⟩
    obtain ⟨hBound, rfl⟩ := List.getElem?_eq_some_iff.mp hOther
    rw [List.length_range] at hBound
    rw [List.getElem_range]
    exact ⟨hBound, rfl⟩
  · rintro ⟨hBound, rfl⟩
    exact ⟨k, List.getElem?_range hBound, rfl⟩

/-- **Each attempt begins one delay after the one before.** -/
theorem exists_delay_of_attemptTimes (hLength : n ≤ delays.length + 1)
    (h : (attemptTimes start delays n)[k + 1]? = some time) :
    ∃ earlier delay, (attemptTimes start delays n)[k]? = some earlier ∧
      delays[k]? = some delay ∧ time = earlier + delay := by
  obtain ⟨hBound, rfl⟩ := getElem?_attemptTimes_eq_some_iff.mp h
  have hDelay : k < delays.length := by omega
  refine ⟨start + (delays.take k).sum, delays[k], ?_, List.getElem?_eq_getElem hDelay, ?_⟩
  · exact getElem?_attemptTimes_eq_some_iff.mpr ⟨by omega, rfl⟩
  · rw [List.sum_take_succ delays k hDelay, Nat.add_assoc]

end Leasehold
