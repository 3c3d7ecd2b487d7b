import Leasehold.Proofs.Lock.Delays
import Mathlib.Data.List.Induction

/-!
# Delays and their ceilings

A wait for a lock is asked for one delay after another, and may be told to begin again.  Each delay
stays below the ceiling of its moment.  A jittered one is drawn in whole milliseconds: the ceiling
is converted to a wide count of them and cut off at a word, so that it can be a little lower as a
bound, but never higher.

* `Backoff.Request`: what a wait is asked for; `Backoff.serveAll` is the wait after some requests.
* `Backoff.sinceReset`: how many delays were asked for since the last reset.
* `Span.Counted`: the whole milliseconds of a span, cut off at a word.
* `Backoff.Faithful`: a wait whose delays keep to their ceilings.
* `Backoff.faithful_serveAll`: every wait does, after all requests.
-/

namespace Leasehold

/-! ## Whole milliseconds -/

namespace Span

/-- **The whole milliseconds of a span, cut off at a word**: a wide word holds their number before
it is cut off, and afterwards they are no more than the span. -/
structure Counted (span : Span) (millis : Nat) : Prop where
  parts : span.millis = span.seconds * 1000 + span.subsecondNanos / nanosPerMilli
  wide : span.millis ≤ Word.maxNat 128
  word : millis ≤ Word.maxNat 64
  whole : span.millis ≤ Word.maxNat 64 → millis = span.millis ∧ span < .ofMillis (millis + 1)
  cut : Word.maxNat 64 < span.millis → millis = Word.maxNat 64
  lower : ofMillis millis ≤ span

/-- The milliseconds of a span are those of its seconds and of the rest. -/
theorem millis_eq (span : Span) :
    span.millis = span.seconds * 1000 + span.subsecondNanos / nanosPerMilli := by
  simp only [millis, seconds, subsecondNanos, nanosPerMilli, nanosPerSecond]
  omega

theorem ofMillis_le_iff {millis : Nat} {span : Span} :
    ofMillis millis ≤ span ↔ millis ≤ span.millis := by
  simp only [le_iff_nanos_le, ofMillis, Span.millis, nanosPerMilli]
  omega

/-- The whole milliseconds of the longest span, and so those of every other, fit a wide word. -/
theorem counted_min {span : Span} (h : span ≤ longest) :
    span.Counted (min span.millis (Word.maxNat 64)) where
  parts := span.millis_eq
  wide := by
    have hMillis : span.millis ≤ longest.millis := Nat.div_le_div_right h
    have hLongest : longest.millis ≤ Word.maxNat 128 := by decide
    exact Nat.le_trans hMillis hLongest
  word := Nat.min_le_right _ _
  whole := by
    intro hWord
    have hLess : ¬ ofMillis (span.millis + 1) ≤ span := by
      rw [ofMillis_le_iff]
      omega
    rw [Nat.min_eq_left hWord]
    exact ⟨rfl, Nat.lt_of_not_le hLess⟩
  cut := fun hWord => Nat.min_eq_right (Nat.le_of_lt hWord)
  lower := ofMillis_le_iff.mpr (Nat.min_le_left _ _)

end Span

/-- The spans of a policy are no longer than the longest one. -/
def RetryPolicy.Fits : RetryPolicy → Prop
  | fixed => True
  | jittered initial ceiling _ => initial ≤ .longest ∧ ceiling ≤ .longest

namespace Backoff

/-! ## Requests -/

/-- What a wait is asked for: a delay under a draw, or to begin again. -/
inductive Request where
  | next (draw : Nat)
  | reset
  deriving Repr, DecidableEq

/-- Whether a delay is asked for. -/
def Request.isNext : Request → Bool
  | next _ => true
  | reset => false

/-- The wait after a request. -/
def serve (backoff : Backoff) : Request → Backoff
  | .next _ => backoff.next
  | .reset => backoff.reset

/-- The wait after some requests. -/
def serveAll (backoff : Backoff) (requests : List Request) : Backoff := requests.foldl serve backoff

/-- How many delays were asked for since the last reset. -/
def sinceReset (requests : List Request) : Nat :=
  (requests.reverse.takeWhile Request.isNext).length

theorem serveAll_concat (backoff : Backoff) (requests : List Request) (request : Request) :
    backoff.serveAll (requests ++ [request]) = (backoff.serveAll requests).serve request :=
  List.foldl_concat ..

theorem sinceReset_concat_next (requests : List Request) (draw : Nat) :
    sinceReset (requests ++ [.next draw]) = sinceReset requests + 1 := by
  rw [sinceReset, List.reverse_concat, List.takeWhile_cons_of_pos rfl, List.length_cons, sinceReset]

theorem sinceReset_concat_reset (requests : List Request) :
    sinceReset (requests ++ [.reset]) = 0 := by
  rw [sinceReset, List.reverse_concat, List.takeWhile_cons_of_neg Bool.false_ne_true,
    List.length_nil]

section

variable (policy : RetryPolicy) (lease : Span) (requests : List Request)

@[simp]
theorem policy_serveAll : ((start policy lease).serveAll requests).policy = policy := by
  induction requests using List.reverseRecOn with
  | nil => rfl
  | append_singleton requests request ih =>
      rw [serveAll_concat]
      cases request <;> exact ih

@[simp]
theorem lease_serveAll : ((start policy lease).serveAll requests).lease = lease := by
  induction requests using List.reverseRecOn with
  | nil => rfl
  | append_singleton requests request ih =>
      rw [serveAll_concat]
      cases request <;> exact ih

/-- **The attempts are the delays since the last reset**, as far as they are counted. -/
theorem attempts_serveAll :
    ((start policy lease).serveAll requests).attempts
      = min (sinceReset requests) maxAttempts := by
  induction requests using List.reverseRecOn with
  | nil => exact (Nat.min_eq_left (Nat.zero_le maxAttempts)).symm
  | append_singleton requests request ih =>
      rw [serveAll_concat]
      cases request with
      | next draw =>
          rw [sinceReset_concat_next]
          show min (_ + 1) maxAttempts = _
          rw [ih]
          omega
      | reset =>
          rw [sinceReset_concat_reset]
          exact (Nat.min_eq_left (Nat.zero_le maxAttempts)).symm

end

/-! ## Ceilings -/

theorem toNanos?_le_longest {seconds : Binary64} {nanos : Nat}
    (h : seconds.toNanos? = some nanos) : (⟨nanos⟩ : Span) ≤ .longest := by
  have hRange : nanos < Word.count 64 * 1000000000 := by
    cases seconds with
    | nan | infinite => cases h
    | finite negative units =>
        simp only [Binary64.toNanos?] at h
        split at h
        · cases h
        · obtain ⟨hRange, hNanos⟩ := Option.ite_none_right_eq_some.mp h
          rwa [Option.some.inj hNanos] at hRange
  have hLongest : Span.longest.nanos + 1 = Word.count 64 * 1000000000 := by decide
  show nanos ≤ Span.longest.nanos
  omega

/-- The growing delay of an attempt in seconds. -/
def grownSeconds (initial most : Span) (multiplier : Binary64) (attempts : Nat) : Binary64 :=
  (initial.toBinary64.mul (multiplier.powNat (Nat.min attempts lastGrowth))).min most.toBinary64

theorem grown_eq (initial most : Span) (multiplier : Binary64) (attempts : Nat) :
    grown initial most multiplier attempts
      = (grownSeconds initial most multiplier attempts).toNanos?.elim most Span.mk := by
  -- The function is unfolded before it has arguments: with them the match would be evaluated.
  generalize hGrown : grown = f
  delta grown at hGrown
  subst hGrown
  unfold grownSeconds
  dsimp -iota only
  generalize Binary64.toNanos? _ = nanos?
  cases nanos? <;> rfl

/-- A ceiling is no longer than the longest span if those that it is made of are. -/
theorem ceiling_le_longest {backoff : Backoff} (hPolicy : backoff.policy.Fits)
    (hLease : backoff.lease ≤ .longest) : backoff.ceiling ≤ .longest := by
  cases hCase : backoff.policy with
  | fixed => simpa only [ceiling, hCase] using hLease
  | jittered initial most multiplier =>
      rw [hCase] at hPolicy
      simp only [ceiling, hCase, grown_eq]
      cases hNanos : (grownSeconds initial most multiplier backoff.attempts).toNanos? with
      | none => exact hPolicy.2
      | some nanos => exact toNanos?_le_longest hNanos

/-- **A wait whose delays keep to their ceilings** after some requests: the next delay is no more
than the ceiling, whatever it is drawn from.  It is the lease under the fixed policy and the drawn
number of milliseconds under a jittered one. -/
structure Faithful (policy : RetryPolicy) (lease : Span) (requests : List Request)
    (backoff : Backoff) : Prop where
  attempts : backoff.attempts = min (sinceReset requests) maxAttempts
  bounded : ∀ draw, backoff.delay draw ≤ backoff.ceiling
  fixed : policy = .fixed → ∀ draw, backoff.delay draw = lease
  jittered : policy.isJittered = true →
    ∀ draw ≤ backoff.ceilingMillis, backoff.delay draw = .ofMillis draw
  counted : policy.Fits → lease ≤ .longest →
    backoff.ceiling ≤ .longest ∧ backoff.ceiling.Counted backoff.ceilingMillis

/-- **Delays keep to their ceilings**, under every policy and lease and after all requests. -/
theorem faithful_serveAll (policy : RetryPolicy) (lease : Span) (requests : List Request) :
    Faithful policy lease requests ((start policy lease).serveAll requests) where
  attempts := attempts_serveAll policy lease requests
  bounded := delay_le_ceiling _
  fixed := by
    rintro rfl draw
    rw [delay_of_fixed (policy_serveAll _ lease requests), lease_serveAll]
  jittered := by
    intro hJittered draw hDraw
    rw [← policy_serveAll policy lease requests] at hJittered
    rw [delay_of_jittered hJittered, Nat.mod_eq_of_lt (Nat.lt_succ_of_le hDraw)]
  counted := by
    intro hFits hLongest
    have hCeiling : ((start policy lease).serveAll requests).ceiling ≤ .longest := by
      apply ceiling_le_longest
      · rwa [policy_serveAll]
      · rwa [lease_serveAll]
    exact ⟨hCeiling, Span.counted_min hCeiling⟩

/-- Jittered delays up to the longest span there is. -/
def longestJitter : RetryPolicy := .jittered .longest .longest (.ofNat 2)

/-- The longest ceiling has more milliseconds than a word holds: the delays below it are cut off at
the largest word, which is drawn as it is. -/
theorem faithful_longestJitter :
    Faithful longestJitter .longest [.next 1, .reset, .next 5, .next 0]
        ((start longestJitter .longest).serveAll [.next 1, .reset, .next 5, .next 0]) ∧
      ((start longestJitter .longest).serveAll [.next 1, .reset, .next 5, .next 0]).attempts = 2 ∧
      ((start longestJitter .longest).serveAll
        [.next 1, .reset, .next 5, .next 0]).ceilingMillis = Word.maxNat 64 ∧
      ((start longestJitter .longest).serveAll
        [.next 1, .reset, .next 5, .next 0]).ceiling = .longest ∧
      Word.maxNat 64 < Span.longest.millis :=
  ⟨faithful_serveAll longestJitter .longest [.next 1, .reset, .next 5, .next 0],
    by decide +kernel⟩

end Backoff
end Leasehold
