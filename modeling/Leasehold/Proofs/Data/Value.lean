import Leasehold.Data.Value

/-!
# The order of values

The order of clock readings and the order of column values are lawful: both are
transitive, and only equal values compare as equal.  Tables are walked in this order,
so their laws rest on it.

A value is of one kind, and its kind says how it was made.
-/

namespace Leasehold

namespace Instant

instance : Std.TransOrd Instant :=
  inferInstanceAs
    (Std.TransCmp (compareLex (compareOn Instant.seconds) (compareOn Instant.nanos)))

instance : Std.LawfulEqOrd Instant where
  eq_of_compare {a b} h := by
    have hBoth : compare a.seconds b.seconds = .eq ∧ compare a.nanos b.nanos = .eq :=
      Ordering.then_eq_eq.mp h
    obtain ⟨hSeconds, hNanos⟩ := hBoth
    cases a
    cases b
    simp only [Instant.mk.injEq]
    exact ⟨Std.LawfulEqOrd.eq_of_compare hSeconds, Std.LawfulEqOrd.eq_of_compare hNanos⟩

end Instant

namespace Value

theorem order_swap (a b : Value) : order a b = (order b a).swap := by
  cases a <;> cases b <;> simp only [order, rank]
  case int.int => exact Std.OrientedOrd.eq_swap
  case text.text => exact Std.OrientedOrd.eq_swap
  case time.time => exact Std.OrientedOrd.eq_swap
  all_goals rfl

/-- Values of one kind are compared by their payload, all others by their kind, so the
only chains that need an argument stay within one kind. -/
theorem order_trans {a b c : Value} (hab : (order a b).isLE) (hbc : (order b c).isLE) :
    (order a c).isLE := by
  cases a <;> cases b <;> cases c <;> simp only [order, rank] at hab hbc ⊢
  case int.int.int => exact Std.TransOrd.isLE_trans hab hbc
  case text.text.text => exact Std.TransOrd.isLE_trans hab hbc
  case time.time.time => exact Std.TransOrd.isLE_trans hab hbc
  all_goals first | rfl | exact absurd hab (by decide) | exact absurd hbc (by decide)

instance : Std.TransOrd Value where
  eq_swap := order_swap _ _
  isLE_trans := order_trans

instance : Std.LawfulEqOrd Value where
  eq_of_compare {a b} h := by
    change order a b = .eq at h
    cases a <;> cases b <;> simp only [order, rank] at h
    case int.int => exact congrArg Value.int (Std.LawfulEqOrd.eq_of_compare h)
    case text.text => exact congrArg Value.text (Std.LawfulEqOrd.eq_of_compare h)
    case time.time => exact congrArg Value.time (Std.LawfulEqOrd.eq_of_compare h)
    all_goals first | rfl | exact absurd h (by decide)

theorem exists_int {value : Value} (h : value.kind? = some .int) : ∃ n, value = .int n := by
  cases value with
  | int n => exact ⟨n, rfl⟩
  | null | text _ | time _ => cases h

theorem exists_text {value : Value} (h : value.kind? = some .text) : ∃ t, value = .text t := by
  cases value with
  | text t => exact ⟨t, rfl⟩
  | null | int _ | time _ => cases h

theorem exists_time {value : Value} (h : value.kind? = some .time) : ∃ t, value = .time t := by
  cases value with
  | time t => exact ⟨t, rfl⟩
  | null | int _ | text _ => cases h

end Value
end Leasehold
