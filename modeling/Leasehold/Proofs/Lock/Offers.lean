import Leasehold.Lock.Policy

/-!
# Policies offered to a table

A table of lease policies takes another policy for a class only if that policy is valid.  Whatever
is offered to it, in any order and for any class, it holds the last policy that it took for each
class, and never one that is not valid.

* `PolicyTable.Offer`: a policy that is offered for a class.
* `PolicyTable.offerAll`: the table after some offers; `PolicyTable.taken` are the ones it took.
* `PolicyTable.get_offerAll`: each class has the last policy taken for it.
* `PolicyTable.isValid_offerAll`: valid tables stay valid.
-/

namespace Leasehold
namespace PolicyTable

/-- A policy that is offered for a class. -/
structure Offer where
  interval : IntervalClass
  policy : LeasePolicy
  deriving Repr, DecidableEq

/-- **A table of valid policies.** -/
def IsValid (table : PolicyTable) : Prop := ∀ interval, (table.get interval).IsValid

/-- Whether a table takes an offer. -/
def takes (table : PolicyTable) (offer : Offer) : Bool :=
  (table.withPolicy offer.interval offer.policy).isOk

/-- The table after an offer; one that it does not take leaves it as it was. -/
def offer (table : PolicyTable) (offer : Offer) : PolicyTable :=
  match table.withPolicy offer.interval offer.policy with
  | .ok changed => changed
  | .error _ => table

/-- The table after some offers. -/
def offerAll (table : PolicyTable) (offers : List Offer) : PolicyTable := offers.foldl offer table

/-- The offers that are taken, each by the table of its moment. -/
def taken (table : PolicyTable) : List Offer → List Offer
  | [] => []
  | first :: rest =>
    if table.takes first then first :: (table.offer first).taken rest
    else (table.offer first).taken rest

theorem isValid_standard : standard.IsValid := by
  intro interval
  cases interval <;> decide

theorem set_get_self (table : PolicyTable) (interval : IntervalClass) :
    table.set interval (table.get interval) = table := by
  cases interval <;> rfl

theorem ext_get {table other : PolicyTable}
    (h : ∀ interval, table.get interval = other.get interval) : table = other := by
  have hShort := h .short
  have hMedium := h .medium
  cases table
  cases other
  simp only [get] at hShort hMedium
  rw [hShort, hMedium]

/-! ## One offer -/

section

variable (table : PolicyTable) {interval : IntervalClass} {policy : LeasePolicy}

theorem withPolicy_of_isValid (h : policy.IsValid) :
    table.withPolicy interval policy = .ok (table.set interval policy) := by
  simp only [withPolicy, LeasePolicy.validate, policy.fault?_eq_none_iff.mpr h]

theorem withPolicy_of_fault? {fault : PolicyFault} (h : policy.fault? = some fault) :
    table.withPolicy interval policy = .error (.invalidPolicy interval fault) := by
  simp only [withPolicy, LeasePolicy.validate, h]

/-- A table takes the valid policies. -/
theorem takes_iff (offer : Offer) : table.takes offer = true ↔ offer.policy.IsValid := by
  rw [takes, ← LeasePolicy.fault?_eq_none_iff]
  cases hFault : offer.policy.fault? with
  | none =>
      rw [withPolicy_of_isValid table (offer.policy.fault?_eq_none_iff.mp hFault)]
      exact iff_of_true rfl rfl
  | some fault =>
      rw [withPolicy_of_fault? table hFault]
      exact iff_of_false Bool.false_ne_true nofun

theorem offer_of_takes {offer : Offer} (h : table.takes offer = true) :
    table.offer offer = table.set offer.interval offer.policy := by
  rw [PolicyTable.offer, withPolicy_of_isValid table ((table.takes_iff offer).mp h)]

theorem offer_of_not_takes {offer : Offer} (h : ¬ table.takes offer = true) :
    table.offer offer = table := by
  rw [PolicyTable.offer]
  rw [takes] at h
  cases hAnswer : table.withPolicy offer.interval offer.policy with
  | error error => rfl
  | ok changed =>
      rw [hAnswer] at h
      exact absurd rfl h

theorem isValid_offer {table : PolicyTable} (h : table.IsValid) (offer : Offer) :
    (table.offer offer).IsValid := by
  intro interval
  by_cases hTakes : table.takes offer = true
  · rw [offer_of_takes table hTakes]
    by_cases hClass : interval = offer.interval
    · rw [hClass, get_set_self]
      exact (table.takes_iff offer).mp hTakes
    · rw [get_set_of_ne table offer.policy hClass]
      exact h interval
  · rw [offer_of_not_takes table hTakes]
    exact h interval

end

/-! ## Many offers -/

/-- **Valid tables stay valid.** -/
theorem isValid_offerAll {table : PolicyTable} (h : table.IsValid) (offers : List Offer) :
    (table.offerAll offers).IsValid := by
  induction offers generalizing table with
  | nil => exact h
  | cons first rest ih => exact ih (isValid_offer h first)

/-- The last policy taken for a class, or the one that the table had. -/
def lastTaken (table : PolicyTable) (offers : List Offer) (interval : IntervalClass) :
    LeasePolicy :=
  (((table.taken offers).filter fun offer => offer.interval == interval).getLast?.map
    Offer.policy).getD (table.get interval)

/-- **Each class has the last policy taken for it.** -/
theorem get_offerAll (table : PolicyTable) (offers : List Offer) (interval : IntervalClass) :
    (table.offerAll offers).get interval = table.lastTaken offers interval := by
  induction offers generalizing table with
  | nil => rfl
  | cons first rest ih =>
      refine (ih (table.offer first)).trans ?_
      rw [lastTaken, lastTaken, taken]
      by_cases hTakes : table.takes first = true
      · rw [if_pos hTakes, List.filter_cons]
        split
        · next hClass =>
          -- The first offer was for this class: it is the last one if none of the others was.
          rw [beq_iff_eq] at hClass
          rw [List.getLast?_cons, offer_of_takes table hTakes, ← hClass, get_set_self]
          cases List.getLast? _ <;> rfl
        · next hClass =>
          rw [beq_iff_eq] at hClass
          rw [offer_of_takes table hTakes, get_set_of_ne table first.policy (Ne.symm hClass)]
      · rw [if_neg hTakes, offer_of_not_takes table hTakes]

end PolicyTable
end Leasehold
