import Leasehold.Proofs.Manager.Effects

/-!
# The outbox in a session

* `Outbox.Orderly`: losses wait beside the queue only while it is full, so that the oldest loss
  is received first and none stays behind.
* `Manager.outbox_turn`: only the turn that loses a lease publishes something.
* `Session.served`: what the receiver does to the outbox; no other event but a move does anything
  to it.
-/

namespace Leasehold

namespace Outbox

/-- **The order of an outbox**: there is a queue, and losses wait beside it only while it is
full. -/
structure Orderly (outbox : Outbox) : Prop where
  room : 1 ≤ outbox.capacity
  fits : outbox.queued.length ≤ outbox.capacity
  full : outbox.parked ≠ [] → outbox.queued.length = outbox.capacity

namespace Orderly

variable {outbox : Outbox}

theorem publish (h : outbox.Orderly) (loss : LeaseLoss) : (outbox.publish loss).1.Orderly := by
  unfold Outbox.publish
  split
  · exact h
  · split
    · next hRoom =>
      simp only [Bool.and_eq_true, List.isEmpty_iff, decide_eq_true_eq] at hRoom
      refine ⟨h.room, ?_, fun hParked => absurd hRoom.1 hParked⟩
      rw [List.length_append, List.length_singleton]
      exact hRoom.2
    · next hRoom =>
      refine ⟨h.room, h.fits, fun _ => ?_⟩
      by_cases hParked : outbox.parked = []
      · have hFull : ¬outbox.queued.length < outbox.capacity := by simpa [hParked] using hRoom
        exact Nat.le_antisymm h.fits (Nat.le_of_not_lt hFull)
      · exact h.full hParked

/-- The oldest loss is received first. -/
theorem receive_fst (h : outbox.Orderly) : outbox.receive.1 = outbox.pending.head? := by
  unfold receive pending
  split
  · next hEmpty =>
    have hParked : outbox.parked = [] := by
      refine Decidable.byContradiction fun hParked => ?_
      have hFull := h.full hParked
      have hRoom := h.room
      rw [hEmpty, List.length_nil] at hFull
      omega
    rw [hEmpty, hParked]
    rfl
  · next loss rest hQueued =>
    rw [hQueued]
    rfl

theorem pending_receive (h : outbox.Orderly) : outbox.receive.2.pending = outbox.pending.tail := by
  have hFirst := h.receive_fst
  unfold receive at hFirst ⊢
  split
  · next hEmpty =>
    simp only [hEmpty] at hFirst
    rw [List.head?_eq_none_iff.mp hFirst.symm]
    rfl
  · next loss rest hQueued =>
    rw [pending_refill]
    simp only [pending, hQueued, List.cons_append, List.tail_cons]

theorem receive (h : outbox.Orderly) : outbox.receive.2.Orderly := by
  unfold Outbox.receive
  split
  · exact h
  · next loss rest hQueued =>
    have hFits := h.fits
    rw [hQueued, List.length_cons] at hFits
    refine ⟨h.room, ?_, ?_⟩
    · simp only [refill, List.length_append, List.length_take]
      omega
    · intro hParked
      simp only [refill, ne_eq, List.drop_eq_nil_iff, Nat.not_le] at hParked
      simp only [refill, List.length_append, List.length_take]
      omega

theorem drop (h : outbox.Orderly) : outbox.drop.1.Orderly :=
  ⟨h.room, Nat.zero_le _, fun hParked => absurd rfl hParked⟩

theorem ofCapacity {capacity : Nat} (h : 1 ≤ capacity) : (Outbox.ofCapacity capacity).Orderly :=
  ⟨h, Nat.zero_le _, fun hParked => absurd rfl hParked⟩

end Orderly
end Outbox

namespace Manager

/-- The outbox after the turn of a cycle. -/
def outboxAfter (manager : Manager) (name : String) : Cycle.Phase → Outbox
  | .demoting failures =>
    (manager.outbox.publish ⟨name, manager.options.identity, failures⟩).1
  | _ => manager.outbox

/-- **Only the turn that loses a lease publishes something.** -/
theorem outbox_turn (manager : Manager) (id : Nat) (cycle : Cycle) (moment : Moment) :
    (manager.turn id cycle moment).1.outbox = manager.outboxAfter cycle.name cycle.phase := by
  cases hPhase : cycle.phase with
  | retrying =>
      simp only [turn, hPhase]
      split <;> rfl
  | attempting attempt =>
      simp only [turn, hPhase, concludeAttempt, retryLater]
      split
      · split <;> rfl
      · rfl
  | marked version signal =>
      simp only [turn, hPhase, lookAtFlag, setPhase, cancel]
      split <;> rfl
  | renewing beat renewal signal =>
      simp only [turn, hPhase, concludeRenewal]
      split
      · split
        · rfl
        · split <;> rfl
      · rfl
  | _ =>
      simp only [turn, hPhase]
      rfl

theorem outbox_step {stimulus : Stimulus} (h : stimulus ≠ .turn) (manager : Manager) (id : Nat)
    (moment : Moment) : (manager.step id moment stimulus).1.outbox = manager.outbox := by
  unfold step
  cases manager.cycles[id]? with
  | none => rfl
  | some cycle =>
      cases stimulus with
      | turn => exact absurd rfl h
      | response response =>
          simp only [respond]
          split <;> rfl
      | deadline =>
          simp only [expire]
          split <;> rfl
      | shutdown =>
          simp only [interrupt]
          split <;> rfl

end Manager

namespace Session

variable {start session next : Session} {event : Event} {events : List Event}

/-- The outbox after an event by its receiver. -/
def served (session : Session) : Event → Outbox
  | .receive => session.manager.outbox.receive.2
  | .dropReceiver => session.manager.outbox.drop.1
  | _ => session.manager.outbox

theorem outbox_of_move {id draw : Nat} {stimulus : Stimulus} {cycle : Cycle}
    (h : session.step? (.move id draw stimulus) = some next)
    (hCycle : session.manager.cycles[id]? = some cycle) :
    next.manager.outbox = session.manager.outboxAfter cycle.name cycle.phase := by
  obtain ⟨found, hFound, hSuits, rfl⟩ := exists_of_move h
  obtain rfl : cycle = found := Option.some.inj (hCycle.symm.trans hFound)
  by_cases hTurn : stimulus = .turn
  · subst hTurn
    simp only [stepped, Manager.step, hCycle]
    exact session.manager.outbox_turn id cycle ⟨session.now, draw⟩
  · have hNeed := Stimulus.need_ne_of_suits hSuits hTurn
    have hSame : session.manager.outboxAfter cycle.name cycle.phase = session.manager.outbox := by
      cases hPhase : cycle.phase with
      | demoting failures => exact absurd (by rw [hPhase]; rfl) hNeed
      | _ => rfl
    rw [hSame]
    exact Manager.outbox_step hTurn session.manager id ⟨session.now, draw⟩

theorem outbox_of_step? (h : session.step? event = some next)
    (hEvent : ∀ id draw stimulus, event ≠ .move id draw stimulus) :
    next.manager.outbox = session.served event := by
  cases event with
  | enter name interval =>
      simp only [step?] at h
      split at h <;>
        · obtain rfl := Option.some.inj h
          rfl
  | enroll k =>
      obtain ⟨⟨name, interval⟩, -, rfl⟩ := Option.map_eq_some_iff.mp h
      simp only [enrolled, Manager.enroll]
      split <;> rfl
  | raiseFlag =>
      simp only [step?] at h
      split at h
      · cases h
      · obtain rfl := Option.some.inj h
        rfl
  | cancelOne signal =>
      simp only [step?] at h
      split at h
      · obtain rfl := Option.some.inj h
        rfl
      · cases h
  | cancelRegistered =>
      simp only [step?] at h
      split at h
      · obtain rfl := Option.some.inj h
        rfl
      · cases h
  | move id draw stimulus => exact absurd rfl (hEvent id draw stimulus)
  | pass nanos =>
      obtain rfl := Option.some.inj h
      rfl
  | receive =>
      obtain rfl := Option.some.inj h
      rfl
  | dropReceiver =>
      obtain rfl := Option.some.inj h
      rfl

end Session
end Leasehold
