import Leasehold.Number.Binary64
import Mathlib.Tactic.Ring
import Mathlib.Tactic.SplitIfs

/-!
# Rounding keeps the order

Every operation on binary64 numbers is its exact result rounded once.  Rounding never turns a
larger quotient into a smaller number, and so the operations keep the order of numbers that are
not negative.  A bound for some result can therefore be computed from bounds for what it is made
of, although few of the numbers are exact.

* `Binary64.roundDiv_le_roundDiv`, `Binary64.roundUnits_le_roundUnits`: rounding is monotone.
* `Binary64.quantum_dvd_roundUnits`: what is rounded is not rounded again.
* `Binary64.ofNat_eq`: a natural of 53 bits is exact.
* `Binary64.Below`: the order of the numbers that are not negative.
* `Binary64.Below.add`, `Binary64.Below.mul`, `Binary64.Below.div`, `Binary64.Below.min`: the
  operations are monotone.
* `Binary64.one_below_powNat`: a power of a number from one on is at least one.
* `Binary64.toNanos?_fraction`: whole nanoseconds within a second are exact.
* `Binary64.Below.toNanos?`: whole nanoseconds are monotone.
-/

namespace Leasehold
namespace Binary64

/-! ## Rounding -/

section

variable {num other den : Nat}

theorem div_le_roundDiv (num den : Nat) : num / den ≤ roundDiv num den := by
  simp only [roundDiv]
  split
  · exact Nat.le_refl _
  · split
    · exact Nat.le_succ _
    · split <;> omega

theorem roundDiv_le_succ (num den : Nat) : roundDiv num den ≤ num / den + 1 := by
  simp only [roundDiv]
  split
  · exact Nat.le_succ _
  · split
    · exact Nat.le_refl _
    · split <;> omega

/-- The nearest integer is monotone: within one quotient the rests decide. -/
theorem roundDiv_le_roundDiv (den : Nat) (h : num ≤ other) :
    roundDiv num den ≤ roundDiv other den := by
  have hQuotient : num / den ≤ other / den := Nat.div_le_div_right h
  rcases Nat.lt_or_eq_of_le hQuotient with hLess | hSame
  · calc
      roundDiv num den ≤ num / den + 1 := roundDiv_le_succ num den
      _ ≤ other / den := hLess
      _ ≤ roundDiv other den := div_le_roundDiv other den
  · have hRest : num % den ≤ other % den := by
      have hNum := Nat.div_add_mod num den
      have hOther := Nat.div_add_mod other den
      rw [hSame] at hNum
      omega
    simp only [roundDiv, hSame]
    split_ifs <;> omega

theorem roundDiv_mul_self (n : Nat) (hDen : 0 < den) : roundDiv (n * den) den = n := by
  have hQuotient : n * den / den = n := Nat.mul_div_cancel n hDen
  have hRest : n * den % den = 0 := Nat.mul_mod_left n den
  simp only [roundDiv, hQuotient, hRest, Nat.mul_zero, hDen, if_true]

/-- A multiple of the divisor bounds the nearest integer. -/
theorem roundDiv_le_of_le_mul {n : Nat} (hDen : 0 < den) (h : num ≤ n * den) :
    roundDiv num den ≤ n :=
  (roundDiv_le_roundDiv _ h).trans_eq (roundDiv_mul_self n hDen)

theorem le_roundDiv_of_mul_le {n : Nat} (hDen : 0 < den) (h : n * den ≤ num) :
    n ≤ roundDiv num den :=
  (roundDiv_mul_self n hDen).symm.trans_le (roundDiv_le_roundDiv _ h)

/-- The nearest integer is off by half a divisor at most. -/
theorem two_mul_roundDiv_le (num den : Nat) : 2 * (roundDiv num den * den) ≤ 2 * num + den := by
  have hNum := Nat.div_add_mod' num den
  have hNext := Nat.add_one_mul (num / den) den
  simp only [roundDiv]
  split_ifs <;> omega

theorem two_mul_le_roundDiv (num : Nat) (hDen : 0 < den) :
    2 * num ≤ 2 * (roundDiv num den * den) + den := by
  have hNum := Nat.div_add_mod' num den
  have hNext := Nat.add_one_mul (num / den) den
  have hRest := Nat.mod_lt num hDen
  simp only [roundDiv]
  split_ifs <;> omega

/-- An integer less than half a divisor off is the nearest one. -/
theorem roundDiv_eq {n : Nat} (hUpper : 2 * num < 2 * (n * den) + den)
    (hLower : 2 * (n * den) < 2 * num + den) : roundDiv num den = n := by
  have hDen : 0 < den := by omega
  have hUpperRound := two_mul_roundDiv_le num den
  have hLowerRound := two_mul_le_roundDiv num hDen
  have hLe : roundDiv num den * den < (n + 1) * den := by
    rw [Nat.add_one_mul]
    omega
  have hGe : n * den < (roundDiv num den + 1) * den := by
    rw [Nat.add_one_mul]
    omega
  exact Nat.le_antisymm (Nat.le_of_lt_succ (Nat.lt_of_mul_lt_mul_right hLe))
    (Nat.le_of_lt_succ (Nat.lt_of_mul_lt_mul_right hGe))

theorem quantum_pos (units : Nat) : 0 < quantum units := Nat.two_pow_pos _

/-- A power of two is a multiple of the step below it. -/
theorem quantum_dvd_two_pow {units k : Nat} (h : units.log2 ≤ k) : quantum units ∣ 2 ^ k :=
  Nat.pow_dvd_pow 2 (by omega)

/-- A magnitude of 53 significant bits is a multiple of its step. -/
theorem quantum_dvd_of_lt {units k : Nat} (h : units < 2 ^ (k + 53)) : quantum units ∣ 2 ^ k := by
  have hLog : units.log2 < k + 53 := by
    rcases Nat.eq_zero_or_pos units with hZero | hPos
    · rw [hZero, Nat.log2_zero]
      exact Nat.succ_pos _
    · exact (Nat.log2_lt (by omega)).mpr h
  exact Nat.pow_dvd_pow 2 (by omega)

/-- A magnitude of the format is not rounded. -/
theorem roundUnits_of_dvd {units : Nat} (hDen : 0 < den) (h : quantum units ∣ units) :
    roundUnits (units * den) den = units := by
  obtain ⟨steps, hSteps⟩ := h
  have hQuotient : units * den / den = units := Nat.mul_div_cancel units hDen
  have hNum : units * den = steps * (den * quantum units) := by
    calc
      units * den = quantum units * steps * den := congrArg (· * den) hSteps
      _ = steps * (den * quantum units) := by ring
  have hRound : roundDiv (units * den) (den * quantum units) = steps := by
    rw [hNum]
    exact roundDiv_mul_self steps (Nat.mul_pos hDen (quantum_pos units))
  simp only [roundUnits, hQuotient, hRound]
  exact (Nat.mul_comm _ _).trans hSteps.symm

/-- What is less than a power of two is not rounded past it. -/
theorem roundUnits_le_two_pow {k : Nat} (hDen : 0 < den) (h : num / den < 2 ^ k) :
    roundUnits num den ≤ 2 ^ k := by
  have hLog : (num / den).log2 ≤ k := by
    rcases Nat.eq_zero_or_pos (num / den) with hZero | hPos
    · rw [hZero, Nat.log2_zero]
      exact Nat.zero_le k
    · exact Nat.le_of_lt ((Nat.log2_lt (by omega)).mpr h)
  obtain ⟨steps, hSteps⟩ := quantum_dvd_two_pow hLog
  have hStep := quantum_pos (num / den)
  have hNum : num ≤ steps * (den * quantum (num / den)) := by
    calc
      num ≤ 2 ^ k * den := Nat.le_of_lt ((Nat.div_lt_iff_lt_mul hDen).mp h)
      _ = steps * (den * quantum (num / den)) := by rw [hSteps]; ring
  calc
    roundUnits num den ≤ steps * quantum (num / den) :=
      Nat.mul_le_mul_right _ (roundDiv_le_of_le_mul (Nat.mul_pos hDen hStep) hNum)
    _ = 2 ^ k := by rw [hSteps, Nat.mul_comm]

/-- What reaches a power of two is not rounded below it. -/
theorem two_pow_le_roundUnits {k : Nat} (hDen : 0 < den) (h : 2 ^ k ≤ num / den) :
    2 ^ k ≤ roundUnits num den := by
  have hPos : num / den ≠ 0 := by
    have := Nat.two_pow_pos k
    omega
  -- The largest such power is a multiple of the step, and the others are below it.
  have hLog : k ≤ (num / den).log2 := (Nat.le_log2 hPos).mpr h
  obtain ⟨steps, hSteps⟩ := quantum_dvd_two_pow (Nat.le_refl (num / den).log2)
  have hStep := quantum_pos (num / den)
  have hNum : steps * (den * quantum (num / den)) ≤ num := by
    calc
      steps * (den * quantum (num / den)) = 2 ^ (num / den).log2 * den := by rw [hSteps]; ring
      _ ≤ num / den * den := Nat.mul_le_mul_right _ (Nat.log2_self_le hPos)
      _ ≤ num := Nat.div_mul_le_self num den
  calc
    2 ^ k ≤ 2 ^ (num / den).log2 := Nat.pow_le_pow_right (by decide) hLog
    _ = steps * quantum (num / den) := by rw [hSteps, Nat.mul_comm]
    _ ≤ roundUnits num den :=
      Nat.mul_le_mul_right _ (le_roundDiv_of_mul_le (Nat.mul_pos hDen hStep) hNum)

/-- What is rounded is a magnitude of the format: it has 53 bits above its step, or is the power of
two that comes after those. -/
theorem quantum_dvd_roundUnits (num : Nat) (hDen : 0 < den) :
    quantum (roundUnits num den) ∣ roundUnits num den := by
  have hStep : quantum (num / den) ∣ roundUnits num den := Nat.dvd_mul_left _ _
  have hBound : roundUnits num den ≤ 2 ^ ((num / den).log2 - 52 + 53) :=
    (roundUnits_le_two_pow hDen Nat.lt_log2_self).trans
      (Nat.pow_le_pow_right (by decide) (by omega))
  rcases Nat.lt_or_eq_of_le hBound with hLess | hPower
  · exact (quantum_dvd_of_lt hLess).trans hStep
  · rw [hPower]
    exact quantum_dvd_two_pow Nat.log2_two_pow.le

theorem roundUnits_mul (num den : Nat) :
    roundUnits num den * den
      = roundDiv num (den * quantum (num / den)) * (den * quantum (num / den)) := by
  simp only [roundUnits]
  ring

/-- Rounding is off by half a step at most. -/
theorem two_mul_roundUnits_le (num den : Nat) :
    2 * (roundUnits num den * den) ≤ 2 * num + den * quantum (num / den) := by
  rw [roundUnits_mul]
  exact two_mul_roundDiv_le num _

theorem two_mul_le_roundUnits (num : Nat) (hDen : 0 < den) :
    2 * num ≤ 2 * (roundUnits num den * den) + den * quantum (num / den) := by
  rw [roundUnits_mul]
  exact two_mul_le_roundDiv num (Nat.mul_pos hDen (quantum_pos (num / den)))

/-- **Rounding is monotone.**  Quotients with the same number of bits have the same step, and a
power of two lies between those with different ones. -/
theorem roundUnits_le_roundUnits (hDen : 0 < den) (h : num ≤ other) :
    roundUnits num den ≤ roundUnits other den := by
  have hQuotient : num / den ≤ other / den := Nat.div_le_div_right h
  rcases Nat.lt_or_ge (num / den).log2 (other / den).log2 with hLess | hGe
  · have hPos : other / den ≠ 0 := by
      intro hZero
      rw [hZero, Nat.log2_zero] at hLess
      exact Nat.not_lt_zero _ hLess
    calc
      roundUnits num den ≤ 2 ^ (other / den).log2 :=
        roundUnits_le_two_pow hDen
          (Nat.lt_of_lt_of_le Nat.lt_log2_self (Nat.pow_le_pow_right (by decide) hLess))
      _ ≤ roundUnits other den := two_pow_le_roundUnits hDen (Nat.log2_self_le hPos)
  · have hStep : quantum (num / den) = quantum (other / den) := by
      have hLe : (num / den).log2 ≤ (other / den).log2 := by
        rcases Nat.eq_zero_or_pos (num / den) with hZero | hPos
        · rw [hZero, Nat.log2_zero]
          exact Nat.zero_le _
        · exact (Nat.le_log2 (by omega)).mpr ((Nat.log2_self_le (by omega)).trans hQuotient)
      rw [quantum, quantum, Nat.le_antisymm hLe hGe]
    simp only [roundUnits, hStep]
    exact Nat.mul_le_mul_right _ (roundDiv_le_roundDiv _ h)

end

/-! ## Exact magnitudes -/

section

variable {n : Nat}

theorem mul_two_pow_lt (k : Nat) (h : n < 2 ^ 53) : n * 2 ^ k < 2 ^ (k + 53) := by
  calc
    n * 2 ^ k < 2 ^ 53 * 2 ^ k := Nat.mul_lt_mul_of_pos_right h (Nat.two_pow_pos k)
    _ = 2 ^ (k + 53) := by rw [Nat.mul_comm, Nat.pow_add]

-- From here on the exponents of the format are made variables, lest their powers be evaluated.
theorem unitsOfOne_pos : 0 < unitsOfOne := by
  delta unitsOfOne
  generalize 1074 = k
  exact Nat.two_pow_pos k

/-- A natural of 53 bits is a magnitude of the format. -/
theorem quantum_dvd_units (h : n < 2 ^ 53) : quantum (n * unitsOfOne) ∣ n * unitsOfOne := by
  delta unitsOfOne
  generalize 1074 = k
  exact (quantum_dvd_of_lt (mul_two_pow_lt k h)).trans (Nat.dvd_mul_left _ _)

theorem units_lt_limit (h : n < 2 ^ 53) : n * unitsOfOne < unitsLimit := by
  have hExponents : 1074 + 53 ≤ 2098 := by decide
  delta unitsOfOne unitsLimit
  generalize 1074 = k at hExponents ⊢
  generalize 2098 = limit at hExponents ⊢
  exact (mul_two_pow_lt k h).trans_le (Nat.pow_le_pow_right (by decide) hExponents)

theorem le_unitsOfOne (h : n < 2 ^ 53) : n ≤ unitsOfOne := by
  have hExponents : 53 ≤ 1074 := by decide
  delta unitsOfOne
  generalize 1074 = k at hExponents ⊢
  exact (Nat.le_of_lt h).trans (Nat.pow_le_pow_right (by decide) hExponents)

/-- Below one the step is the unit over 53 bits, or less. -/
theorem quantum_mul_le {units : Nat} (h : units < unitsOfOne) :
    2 ^ 53 * quantum units ≤ unitsOfOne := by
  obtain ⟨k, hExponent⟩ : ∃ k, 1074 = k + 53 := ⟨1021, rfl⟩
  delta unitsOfOne at h ⊢
  generalize 1074 = exponent at hExponent h ⊢
  subst hExponent
  calc
    2 ^ 53 * quantum units ≤ 2 ^ 53 * 2 ^ k :=
      Nat.mul_le_mul_left _ (Nat.le_of_dvd (Nat.two_pow_pos k) (quantum_dvd_of_lt h))
    _ = 2 ^ (k + 53) := by rw [Nat.mul_comm, Nat.pow_add]

/-- A numerator up to the denominator makes one at most. -/
theorem fraction_le_one {whole : Nat} (h : n ≤ whole) :
    n * unitsOfOne * unitsOfOne ≤ unitsOfOne * (whole * unitsOfOne) := by
  rw [Nat.mul_comm unitsOfOne (whole * unitsOfOne)]
  exact Nat.mul_le_mul_right _ (Nat.mul_le_mul_right _ h)

/-- **A fraction is exact up to its denominator**: multiplied by it, the rounded fraction is nearest
to the numerator. -/
theorem roundDiv_roundUnits {whole : Nat} (hWhole : whole < 2 ^ 53) (h : n < whole) :
    roundDiv (roundUnits (n * unitsOfOne * unitsOfOne) (whole * unitsOfOne) * whole) unitsOfOne
      = n := by
  have hUnits := unitsOfOne_pos
  have hDen : 0 < whole * unitsOfOne := Nat.mul_pos (Nat.zero_lt_of_lt h) hUnits
  have hQuotient : n * unitsOfOne * unitsOfOne / (whole * unitsOfOne) < unitsOfOne := by
    rw [Nat.div_lt_iff_lt_mul hDen, Nat.mul_comm unitsOfOne (whole * unitsOfOne)]
    exact Nat.mul_lt_mul_of_pos_right (Nat.mul_lt_mul_of_pos_right h hUnits) hUnits
  have hStep := quantum_mul_le hQuotient
  have hUpper := two_mul_roundUnits_le (n * unitsOfOne * unitsOfOne) (whole * unitsOfOne)
  have hLower := two_mul_le_roundUnits (n * unitsOfOne * unitsOfOne) hDen
  have hQuantum := quantum_pos (n * unitsOfOne * unitsOfOne / (whole * unitsOfOne))
  generalize roundUnits (n * unitsOfOne * unitsOfOne) (whole * unitsOfOne) = rounded at *
  generalize quantum (n * unitsOfOne * unitsOfOne / (whole * unitsOfOne)) = step at *
  generalize unitsOfOne = one at *
  have hHalf : whole * step < one :=
    (Nat.mul_lt_mul_of_pos_right hWhole hQuantum).trans_le hStep
  -- Both bounds have a factor that is the unit of the numbers.
  have hUpper' : 2 * (rounded * whole) ≤ 2 * (n * one) + whole * step := by
    refine Nat.le_of_mul_le_mul_right ?_ hUnits
    calc
      2 * (rounded * whole) * one = 2 * (rounded * (whole * one)) := by ring
      _ ≤ 2 * (n * one * one) + whole * one * step := hUpper
      _ = (2 * (n * one) + whole * step) * one := by ring
  have hLower' : 2 * (n * one) ≤ 2 * (rounded * whole) + whole * step := by
    refine Nat.le_of_mul_le_mul_right ?_ hUnits
    calc
      2 * (n * one) * one = 2 * (n * one * one) := by ring
      _ ≤ 2 * (rounded * (whole * one)) + whole * one * step := hLower
      _ = (2 * (rounded * whole) + whole * step) * one := by ring
  exact roundDiv_eq (by omega) (by omega)

end

/-! ## The order of numbers that are not negative -/

/-- **The order of the numbers that are not negative**; it holds of no others. -/
inductive Below : Binary64 → Binary64 → Prop
  | units {units other : Nat} (h : units ≤ other) :
    Below (finite false units) (finite false other)
  | overflow (units : Nat) : Below (finite false units) (infinite false)
  | infinite : Below (infinite false) (infinite false)

theorem ofUnits_eq_finite {num den : Nat} (h : roundUnits num den < unitsLimit) :
    ofUnits false num den = finite false (roundUnits num den) := by
  simp only [ofUnits, h, if_true]

theorem ofUnits_eq_infinite {num den : Nat} (h : ¬ roundUnits num den < unitsLimit) :
    ofUnits false num den = infinite false := by
  simp only [ofUnits, h, if_false]

/-- A magnitude of the format below its limit is not rounded. -/
theorem ofUnits_of_dvd {units den : Nat} (hDen : 0 < den) (hStep : quantum units ∣ units)
    (hLimit : units < unitsLimit) : ofUnits false (units * den) den = finite false units := by
  have hUnits := roundUnits_of_dvd hDen hStep
  rw [← hUnits] at hLimit
  rw [ofUnits_eq_finite hLimit, hUnits]

/-- A natural of 53 bits, as any quotient, is not rounded. -/
theorem ofUnits_units {n den : Nat} (hDen : 0 < den) (h : n < 2 ^ 53) :
    ofUnits false (n * unitsOfOne * den) den = finite false (n * unitsOfOne) :=
  ofUnits_of_dvd hDen (quantum_dvd_units h) (units_lt_limit h)

theorem ofUnits_zero {den : Nat} (hDen : 0 < den) : ofUnits false 0 den = finite false 0 := by
  have h := ofUnits_units hDen (Nat.two_pow_pos 53)
  rwa [Nat.zero_mul, Nat.zero_mul] at h

theorem ofUnits_one {den : Nat} (hDen : 0 < den) :
    ofUnits false (unitsOfOne * den) den = one := by
  have h := ofUnits_units hDen (Nat.one_lt_two_pow (by decide : 53 ≠ 0))
  rwa [Nat.one_mul] at h

theorem roundUnits_lt_limit {num den : Nat} (hDen : 0 < den) (h : num ≤ unitsOfOne * den) :
    roundUnits num den < unitsLimit := by
  have hSmall : 1 < 2 ^ 53 := Nat.one_lt_two_pow (by decide)
  have hStep := quantum_dvd_units hSmall
  have hLimit := units_lt_limit hSmall
  rw [Nat.one_mul] at hStep hLimit
  calc
    roundUnits num den ≤ roundUnits (unitsOfOne * den) den := roundUnits_le_roundUnits hDen h
    _ = unitsOfOne := roundUnits_of_dvd hDen hStep
    _ < unitsLimit := hLimit

/-- **A natural of 53 bits is exact.** -/
theorem ofNat_eq {n : Nat} (h : n < 2 ^ 53) : ofNat n = finite false (n * unitsOfOne) := by
  have hUnits := ofUnits_units Nat.one_pos h
  rwa [Nat.mul_one] at hUnits

theorem below_ofUnits {num other den : Nat} (hDen : 0 < den) (h : num ≤ other) :
    Below (ofUnits false num den) (ofUnits false other den) := by
  have hUnits := roundUnits_le_roundUnits hDen h
  by_cases hOther : roundUnits other den < unitsLimit
  · rw [ofUnits_eq_finite hOther, ofUnits_eq_finite (Nat.lt_of_le_of_lt hUnits hOther)]
    exact .units hUnits
  · rw [ofUnits_eq_infinite hOther]
    by_cases hNum : roundUnits num den < unitsLimit
    · rw [ofUnits_eq_finite hNum]
      exact .overflow _
    · rw [ofUnits_eq_infinite hNum]
      exact .infinite

theorem ofUnits_below_one {num den : Nat} (hDen : 0 < den) (h : num ≤ unitsOfOne * den) :
    Below (ofUnits false num den) one := by
  have hUnits := below_ofUnits hDen h
  rwa [ofUnits_one hDen] at hUnits

theorem ofUnits_below_infinite (num den : Nat) :
    Below (ofUnits false num den) (infinite false) := by
  by_cases hNum : roundUnits num den < unitsLimit
  · rw [ofUnits_eq_finite hNum]
    exact .overflow _
  · rw [ofUnits_eq_infinite hNum]
    exact .infinite

theorem ofNat_below {n other : Nat} (h : n ≤ other) : Below (ofNat n) (ofNat other) := by
  rw [ofNat, ofRatio, ofNat, ofRatio]
  exact below_ofUnits Nat.one_pos (Nat.mul_le_mul_right _ h)

/-- The smallest positive number. -/
def tiny : Binary64 := finite false 1

/-- A unit or more is not rounded to zero. -/
theorem tiny_below_ofUnits {num den : Nat} (hDen : 0 < den) (h : den ≤ num) :
    Below tiny (ofUnits false num den) := by
  have hUnits : 2 ^ 0 ≤ roundUnits num den :=
    two_pow_le_roundUnits hDen ((Nat.one_le_div_iff hDen).mpr h)
  by_cases hNum : roundUnits num den < unitsLimit
  · rw [ofUnits_eq_finite hNum]
    exact .units hUnits
  · rw [ofUnits_eq_infinite hNum]
    exact .overflow _

/-! ### Operations on numbers that are not negative -/

theorem add_finite (a b : Nat) :
    (finite false a).add (finite false b) = ofUnits false (a + b) 1 := by
  simp only [add, signedUnits, Bool.false_eq_true, if_false]
  by_cases hZero : (a : Int) + b = 0
  · have hSum : a + b = 0 := by omega
    rw [if_pos hZero, hSum, ofUnits_zero Nat.one_pos]
    rfl
  · have hSign : ¬ (a : Int) + b < 0 := by omega
    have hAbs : ((a : Int) + b).natAbs = a + b := by omega
    rw [if_neg hZero, decide_eq_false hSign, hAbs]

theorem ofNat_zero : ofNat 0 = finite false 0 := by
  rw [ofNat_eq (Nat.two_pow_pos 53), Nat.zero_mul]

theorem ofNat_one : ofNat 1 = one := by
  rw [ofNat_eq (Nat.one_lt_two_pow (by decide)), Nat.one_mul, one]

theorem one_add_zero : one.add (finite false 0) = one := by
  have hOne := ofUnits_one Nat.one_pos
  rwa [Nat.mul_one, ← Nat.add_zero unitsOfOne, ← add_finite] at hOne

/-- A rounded number is not rounded again when zero is added. -/
theorem zero_add_ofUnits (num : Nat) {den : Nat} (hDen : 0 < den) :
    (finite false 0).add (ofUnits false num den) = ofUnits false num den := by
  by_cases hNum : roundUnits num den < unitsLimit
  · have hExact := ofUnits_of_dvd Nat.one_pos (quantum_dvd_roundUnits num hDen) hNum
    rw [Nat.mul_one] at hExact
    rw [ofUnits_eq_finite hNum, add_finite, Nat.zero_add, hExact]
  · rw [ofUnits_eq_infinite hNum]
    rfl

theorem mul_finite (a b : Nat) :
    (finite false a).mul (finite false b) = ofUnits false (a * b) unitsOfOne := rfl

theorem mul_infinite {x : Binary64} (h : Below tiny x) :
    x.mul (infinite false) = infinite false := by
  cases h with
  | units h => exact if_neg (Nat.pos_iff_ne_zero.mp h)
  | overflow => rfl

theorem infinite_mul {x : Binary64} (h : Below tiny x) :
    (infinite false).mul x = infinite false := by
  cases h with
  | units h => exact if_neg (Nat.pos_iff_ne_zero.mp h)
  | overflow => rfl

theorem div_finite (a : Nat) {b : Nat} (h : b ≠ 0) :
    (finite false a).div (finite false b) = ofUnits false (a * unitsOfOne) b := if_neg h

theorem min_finite (a b : Nat) :
    (finite false a).min (finite false b) = finite false (Nat.min a b) := by
  by_cases h : b < a
  · have hLess : (finite false b).lt (finite false a) = true := decide_eq_true (Int.ofNat_lt.mpr h)
    simp only [min, hLess, if_true, Nat.min_eq_right (Nat.le_of_lt h)]
  · have hLess : (finite false b).lt (finite false a) = false :=
      decide_eq_false fun hSigned => h (Int.ofNat_lt.mp hSigned)
    simp only [min, hLess, Bool.false_eq_true, if_false, Nat.min_eq_left (Nat.le_of_not_lt h)]

theorem min_infinite {x : Binary64} (h : Below x (infinite false)) :
    x.min (infinite false) = x := by
  cases h <;> rfl

theorem infinite_min {x : Binary64} (h : Below x (infinite false)) :
    (infinite false).min x = x := by
  cases h <;> rfl

theorem min_self (x : Binary64) : x.min x = x := by
  cases x with
  | nan => rfl
  | infinite | finite =>
      rw [min, ite_self]
      all_goals rintro ⟨⟩

theorem lt_irrefl (x : Binary64) : x.lt x = false := by
  cases x with
  | nan => rfl
  | infinite negative => cases negative <;> rfl
  | finite negative units => exact decide_eq_false (Int.lt_irrefl _)

theorem toNanos?_finite_eq_some_iff {units nanos : Nat} :
    (finite false units).toNanos? = some nanos ↔
      roundDiv (units * 1000000000) unitsOfOne = nanos ∧ nanos < Word.count 64 * 1000000000 := by
  simp only [toNanos?, Bool.false_and, Bool.false_eq_true, if_false,
    Option.ite_none_right_eq_some, Option.some.injEq]
  constructor
  · rintro ⟨hRange, rfl⟩
    exact ⟨rfl, hRange⟩
  · rintro ⟨rfl, hRange⟩
    exact ⟨hRange, rfl⟩

/-- **Whole nanoseconds within a second are exact** although their seconds are rounded. -/
theorem toNanos?_fraction {n : Nat} (h : n < 1000000000) :
    (ofUnits false (n * unitsOfOne * unitsOfOne) (1000000000 * unitsOfOne)).toNanos? = some n := by
  have hDen : 0 < 1000000000 * unitsOfOne := Nat.mul_pos (by decide) unitsOfOne_pos
  have hNum := fraction_le_one (Nat.le_of_lt h)
  have hRange := Nat.lt_trans h (by decide : 1000000000 < Word.count 64 * 1000000000)
  rw [ofUnits_eq_finite (roundUnits_lt_limit hDen hNum), toNanos?_finite_eq_some_iff]
  exact ⟨roundDiv_roundUnits (by decide) h, hRange⟩

namespace Below

variable {x y z x' y' : Binary64}

theorem trans (hLower : Below x y) (hUpper : Below y z) : Below x z := by
  cases hLower with
  | units h =>
      cases hUpper with
      | units h' => exact .units (h.trans h')
      | overflow => exact .overflow _
  | overflow =>
      cases hUpper
      exact .overflow _
  | infinite => exact hUpper

/-- Every number that is not negative is below the infinite one. -/
theorem right_below_infinite (h : Below x y) : Below y (Binary64.infinite false) := by
  cases h with
  | units => exact .overflow _
  | overflow | infinite => exact .infinite

theorem add (h : Below x y) (h' : Below x' y') : Below (x.add x') (y.add y') := by
  cases h with
  | units h =>
      cases h' with
      | units h' =>
          rw [add_finite, add_finite]
          exact below_ofUnits Nat.one_pos (Nat.add_le_add h h')
      | overflow =>
          rw [add_finite]
          exact ofUnits_below_infinite _ _
      | infinite => exact .infinite
  | overflow =>
      cases h' with
      | units | overflow =>
          rw [add_finite]
          exact ofUnits_below_infinite _ _
      | infinite => exact .infinite
  | infinite => cases h' <;> exact .infinite

theorem mul_below_infinite (hx : Below tiny x) (hx' : Below tiny x') :
    Below (x.mul x') (Binary64.infinite false) := by
  cases hx with
  | units h =>
      cases hx' with
      | units h' =>
          rw [mul_finite]
          exact ofUnits_below_infinite _ _
      | overflow =>
          rw [mul_infinite (.units h)]
          exact .infinite
  | overflow =>
      rw [infinite_mul hx']
      exact .infinite

/-- The product is monotone away from zero, whose product with the infinite number is none. -/
theorem mul (hx : Below tiny x) (hx' : Below tiny x') (h : Below x y) (h' : Below x' y') :
    Below (x.mul x') (y.mul y') := by
  cases h with
  | units h =>
      cases h' with
      | units h' =>
          rw [mul_finite, mul_finite]
          exact below_ofUnits unitsOfOne_pos (Nat.mul_le_mul h h')
      | overflow | infinite =>
          rw [mul_infinite (hx.trans (.units h))]
          exact mul_below_infinite hx hx'
  | overflow | infinite =>
      rw [infinite_mul (hx'.trans h')]
      exact mul_below_infinite hx hx'

theorem div {units : Nat} (hUnits : units ≠ 0) (h : Below x y) :
    Below (x.div (finite false units)) (y.div (finite false units)) := by
  cases h with
  | units h =>
      rw [div_finite _ hUnits, div_finite _ hUnits]
      exact below_ofUnits (Nat.pos_of_ne_zero hUnits) (Nat.mul_le_mul_right _ h)
  | overflow =>
      rw [div_finite _ hUnits]
      exact ofUnits_below_infinite _ _
  | infinite => exact .infinite

theorem min (h : Below x y) (h' : Below x' y') : Below (x.min x') (y.min y') := by
  cases h with
  | units h =>
      cases h' with
      | units h' =>
          rw [min_finite, min_finite]
          exact .units (min_le_min h h')
      | overflow =>
          rw [min_finite, min_infinite (.overflow _)]
          exact .units ((Nat.min_le_left _ _).trans h)
      | infinite =>
          rw [min_infinite (.overflow _), min_infinite (.overflow _)]
          exact .units h
  | overflow =>
      cases h' with
      | units h' =>
          rw [min_finite, infinite_min (.overflow _)]
          exact .units ((Nat.min_le_right _ _).trans h')
      | overflow =>
          rw [min_finite, infinite_min .infinite]
          exact .overflow _
      | infinite =>
          rw [min_infinite (.overflow _), infinite_min .infinite]
          exact .overflow _
  | infinite =>
      cases h' with
      | units h' =>
          rw [infinite_min (.overflow _), infinite_min (.overflow _)]
          exact .units h'
      | overflow =>
          rw [infinite_min (.overflow _), infinite_min .infinite]
          exact .overflow _
      | infinite => exact .infinite

/-- A bound of one side bounds the smaller one. -/
theorem min_left (h : Below x y) (h' : Below x' (Binary64.infinite false)) :
    Below (x.min x') y := by
  have hMin := h.min h'
  rwa [min_infinite h.right_below_infinite] at hMin

theorem min_right (h : Below x (Binary64.infinite false)) (h' : Below x' y') :
    Below (x.min x') y' := by
  have hMin := h.min h'
  rwa [infinite_min h'.right_below_infinite] at hMin

/-- Whole nanoseconds are monotone: where a number has some, every smaller one has. -/
theorem toNanos? {nanos : Nat} (h : Below x y) (hNanos : y.toNanos? = some nanos) :
    ∃ fewer, x.toNanos? = some fewer ∧ fewer ≤ nanos := by
  cases h with
  | units h =>
      obtain ⟨rfl, hRange⟩ := toNanos?_finite_eq_some_iff.mp hNanos
      have hFewer := roundDiv_le_roundDiv unitsOfOne (Nat.mul_le_mul_right 1000000000 h)
      refine ⟨_, toNanos?_finite_eq_some_iff.mpr ⟨rfl, ?_⟩, hFewer⟩
      exact Nat.lt_of_le_of_lt hFewer hRange
  | overflow => cases hNanos
  | infinite => cases hNanos

end Below

/-! ### Powers -/

theorem tiny_below_one : Below tiny one := .units unitsOfOne_pos

theorem one_mul_one : one.mul one = one := by
  have hOne := ofUnits_one unitsOfOne_pos
  rwa [← mul_finite] at hOne

/-- A rounded number is not rounded again when it is multiplied by one. -/
theorem ofUnits_mul_one (num : Nat) {den : Nat} (hDen : 0 < den) :
    (ofUnits false num den).mul one = ofUnits false num den := by
  by_cases hNum : roundUnits num den < unitsLimit
  · rw [ofUnits_eq_finite hNum, one, mul_finite]
    exact ofUnits_of_dvd unitsOfOne_pos (quantum_dvd_roundUnits num hDen) hNum
  · rw [ofUnits_eq_infinite hNum]
    exact infinite_mul tiny_below_one

/-- A product of numbers from one on is at least one. -/
theorem one_below_mul {x y : Binary64} (hx : Below one x) (hy : Below one y) :
    Below one (x.mul y) := by
  have h := Below.mul tiny_below_one tiny_below_one hx hy
  rwa [one_mul_one] at h

theorem one_below_powInto {acc base : Binary64} (k : Nat) (hAcc : Below one acc)
    (hBase : Below one base) : Below one (powInto acc base k) := by
  induction k using Nat.strongRecOn generalizing acc base with
  | ind k ih =>
      have hNext : Below one (if k % 2 = 1 then mul acc base else acc) := by
        split
        · exact one_below_mul hAcc hBase
        · exact hAcc
      rw [powInto]
      split
      · exact hNext
      · exact ih (k / 2) (by omega) hNext (one_below_mul hBase hBase)

/-- **A power of a number from one on is at least one.** -/
theorem one_below_powNat {base : Binary64} (k : Nat) (hBase : Below one base) :
    Below one (powNat base k) :=
  one_below_powInto k (.units (Nat.le_refl _)) hBase

theorem powNat_zero (base : Binary64) : powNat base 0 = one := by
  rw [powNat, powInto]
  rfl

/-- A finite number that is not less than one is at least one. -/
theorem one_below_of_not_lt {x : Binary64} (hFinite : x.isFinite = true)
    (hLess : x.lt one = false) : Below one x := by
  cases x with
  | nan => cases hFinite
  | infinite negative => cases hFinite
  | finite negative units =>
      have hUnits := of_decide_eq_false hLess
      have hOne := unitsOfOne_pos
      cases negative <;> simp only [signedUnits, Bool.false_eq_true, if_true, if_false] at hUnits
      · exact .units (by omega)
      · omega

end Binary64
end Leasehold
