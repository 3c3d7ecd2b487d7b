import Leasehold.Proofs.Manager.Move
import Mathlib.Data.List.Induction
import Mathlib.Order.Bounds.Basic

/-!
# Failures in a row

A supervised task counts failed renewals and starts the count again with each that succeeds.  What
the count means is a matter of the last results alone: it has come to a number exactly when that
many of the last renewals have all failed.

* `LostAfter`: a row of failures ends with a renewal.
* `streak`: the failures that are counted; `le_streak_iff` says what the count means.
* `NeverLost`: no row of failures has ended yet; `NeverLost.isLeast` says when the first does.
-/

namespace Leasehold

/-- Of the renewals numbered from one, with their results as far as they were made, the renewal
`n` ends a row of `limit` failures. -/
def LostAfter (limit : Nat) (result? : Nat → Option (Except LockError Bool)) (n : Nat) : Prop :=
  limit ≤ n ∧ ∀ k, n - limit < k → k ≤ n →
    ∃ result, result? (k - 1) = some result ∧ result ≠ .ok true

/-- How many of the last results are failures in a row. -/
def streak (results : List (Except LockError Bool)) : Nat :=
  (results.reverse.takeWhile fun result => !Manager.renewed result).length

theorem streak_renewed (results : List (Except LockError Bool)) :
    streak (results ++ [.ok true]) = 0 := by
  simp [streak, Manager.renewed]

theorem streak_failed (results : List (Except LockError Bool)) {result : Except LockError Bool}
    (h : result ≠ .ok true) : streak (results ++ [result]) = streak results + 1 := by
  have hFailed : Manager.renewed result = false :=
    Bool.eq_false_iff.mpr fun hRenewed => h (Manager.renewed_eq_true_iff.mp hRenewed)
  simp [streak, hFailed]

variable {limit n : Nat} {results : List (Except LockError Bool)}

/-- A row of failures is among the results. -/
theorem LostAfter.le_length (h : LostAfter limit (fun k => results[k]?) n) (hLimit : 0 < limit) :
    n ≤ results.length := by
  obtain ⟨result, hResult, -⟩ := h.2 n (by have := h.1; omega) (Nat.le_refl n)
  obtain ⟨hBound, -⟩ := List.getElem?_eq_some_iff.mp hResult
  omega

/-- One more result does not matter for the earlier renewals. -/
theorem lostAfter_snoc_iff (result : Except LockError Bool) (h : n ≤ results.length) :
    LostAfter limit (fun k => (results ++ [result])[k]?) n
      ↔ LostAfter limit (fun k => results[k]?) n := by
  refine and_congr_right fun hLimit => forall_congr' fun k => ?_
  refine forall_congr' fun hFirst => forall_congr' fun hLast => ?_
  show (∃ other, (results ++ [result])[k - 1]? = some other ∧ _) ↔ _
  rw [List.getElem?_append_left (show k - 1 < results.length by omega)]

/-- **What the count means.**  The count of failures has come to a number exactly when a row of as
many failures ends with the last renewal. -/
theorem le_streak_iff (results : List (Except LockError Bool)) (limit : Nat) :
    limit ≤ streak results ↔ LostAfter limit (fun k => results[k]?) results.length := by
  induction results using List.reverseRecOn generalizing limit with
  | nil =>
      constructor
      · intro h
        exact ⟨h, fun k hFirst hLast => by simp only [List.length_nil] at hFirst hLast; omega⟩
      · exact fun h => h.1
  | append_singleton results result ih =>
      have hLast : (results ++ [result])[results.length]? = some result := by simp
      rw [List.length_append, List.length_singleton]
      by_cases hRenewed : result = .ok true
      · -- A renewal starts the count again: only the empty row ends with it.
        rw [hRenewed, streak_renewed, ← hRenewed]
        constructor
        · intro h
          exact ⟨by omega, fun k hFirst hEnd => by omega⟩
        · rintro ⟨-, hRow⟩
          by_contra hSome
          obtain ⟨other, hOther, hFailed⟩ := hRow (results.length + 1) (by omega) (Nat.le_refl _)
          exact hFailed ((Option.some.inj (hLast.symm.trans hOther)).symm.trans hRenewed)
      · rw [streak_failed results hRenewed]
        cases limit with
        | zero =>
            exact ⟨fun _ => ⟨Nat.zero_le _, fun k hFirst hEnd => by omega⟩, fun _ => Nat.zero_le _⟩
        | succ limit =>
            rw [Nat.add_le_add_iff_right, ih limit,
              ← lostAfter_snoc_iff result (Nat.le_refl results.length)]
            constructor
            · rintro ⟨hLimit, hRow⟩
              refine ⟨by omega, fun k hFirst hEnd => ?_⟩
              rcases Nat.lt_or_eq_of_le hEnd with hEarlier | rfl
              · exact hRow k (by omega) (by omega)
              · exact ⟨result, hLast, hRenewed⟩
            · rintro ⟨hLimit, hRow⟩
              exact ⟨by omega, fun k hFirst hEnd => hRow k (by omega) (by omega)⟩

/-- No row of failures ends with a renewal. -/
def NeverLost (limit : Nat) (results : List (Except LockError Bool)) : Prop :=
  ∀ n, ¬ LostAfter limit (fun k => results[k]?) n

theorem neverLost_nil (hLimit : 0 < limit) : NeverLost limit [] := by
  intro n hLost
  have hNone := hLost.le_length hLimit
  have hFirst := hLost.1
  simp only [List.length_nil] at hNone
  omega

/-- While the count is below the limit no row of failures has ended. -/
theorem NeverLost.snoc (h : NeverLost limit results) (hLimit : 0 < limit)
    {result : Except LockError Bool} (hFewer : streak (results ++ [result]) < limit) :
    NeverLost limit (results ++ [result]) := by
  intro n hLost
  have hLength := hLost.le_length hLimit
  rw [List.length_append, List.length_singleton] at hLength
  rcases Nat.lt_or_eq_of_le hLength with hEarlier | rfl
  · exact h n ((lostAfter_snoc_iff result (by omega)).mp hLost)
  · have hStreak := (le_streak_iff (results ++ [result]) limit).mpr (by
      rw [List.length_append, List.length_singleton]
      exact hLost)
    omega

/-- When the count comes to the limit a row of failures ends for the first time. -/
theorem NeverLost.isLeast (h : NeverLost limit results) {result : Except LockError Bool}
    (hMany : limit ≤ streak (results ++ [result])) :
    IsLeast {n | LostAfter limit (fun k => (results ++ [result])[k]?) n}
      (results ++ [result]).length := by
  refine ⟨(le_streak_iff _ limit).mp hMany, fun n hLost => ?_⟩
  by_contra hEarlier
  rw [List.length_append, List.length_singleton] at hEarlier
  exact h n ((lostAfter_snoc_iff result (by omega)).mp hLost)

end Leasehold
