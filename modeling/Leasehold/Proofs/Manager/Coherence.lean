import Leasehold.Proofs.Data.OrderedMap
import Leasehold.Proofs.Manager.Move

/-!
# The registry and the cycles

The registry and the cycles of a manager are two accounts of the same locks.  They agree
after every call by the user and after every move of a cycle: a registered name has one
cycle that is not over, its entry shows the phase of that cycle, and no other cycle that
is not over has this name.

* `Signals.Leads`: signals are only created and cancelled.
* `Cycle.Phase.Shows`: the entry that a name has while its cycle is in a phase.
* `Manager.accept`, `Manager.cancelAll`: the registration of a free name, and what the walk of
  a shutdown does.
* `Manager.Coherent`: the registry and the cycles agree.
* `Manager.IsLive`: a name is held and the signal of its job is not cancelled.
* `Coherent.exists_of_isLive`: a live hold has a cycle with that signal.
-/

namespace Leasehold

/-! ## Signals -/

namespace Signals

/-- **What becomes of signals.**  No signal goes away, and a cancelled one stays so. -/
structure Leads (signals later : Signals) : Prop where
  length : signals.cancelled.length ≤ later.cancelled.length
  kept : ∀ signal, signals.isCancelled signal = true → later.isCancelled signal = true

theorem Leads.refl (signals : Signals) : signals.Leads signals :=
  ⟨Nat.le_refl _, fun _ h => h⟩

theorem leads_cancel (signals : Signals) (signal : SignalId) :
    signals.Leads (signals.cancel signal) := by
  constructor
  · exact Nat.le_of_eq (List.length_set ..).symm
  · exact fun other h => isCancelled_cancel signals signal other h

theorem leads_create (signals : Signals) : signals.Leads signals.create.2 := by
  constructor
  · simp [create]
  · intro signal h
    rcases Nat.lt_or_ge signal signals.cancelled.length with hBound | hBound
    · simpa only [isCancelled, create, List.getD, List.getElem?_append_left hBound] using h
    · simp [isCancelled, List.getD, List.getElem?_eq_none hBound] at h

theorem leads_cancelAll (signals : Signals) (list : List SignalId) :
    signals.Leads (signals.cancelAll list) := by
  induction list generalizing signals with
  | nil => exact .refl signals
  | cons signal rest ih =>
      have hFirst := leads_cancel signals signal
      have hRest := ih (signals.cancel signal)
      exact ⟨Nat.le_trans hFirst.length hRest.length, fun other h =>
        hRest.kept other (hFirst.kept other h)⟩

theorem isCancelled_cancel_self {signals : Signals} {signal : SignalId}
    (h : signal < signals.cancelled.length) :
    (signals.cancel signal).isCancelled signal = true := by
  simp [isCancelled, cancel, List.getD, h]

theorem create_lt (signals : Signals) :
    signals.create.1 < signals.create.2.cancelled.length := by
  simp [create]

/-- Cancelling a signal cancels no other one. -/
theorem eq_of_isCancelled_cancel {signals : Signals} {signal other : SignalId}
    (hBefore : signals.isCancelled other = false)
    (hAfter : (signals.cancel signal).isCancelled other = true) : signal = other := by
  refine Decidable.byContradiction fun hOther => ?_
  simp only [isCancelled, cancel, List.getD, List.getElem?_set_ne hOther] at hBefore hAfter
  rw [hBefore] at hAfter
  cases hAfter

/-- A new signal is not cancelled. -/
theorem isCancelled_of_create {signals : Signals} {signal : SignalId}
    (h : signals.create.2.isCancelled signal = true) : signals.isCancelled signal = true := by
  rcases Nat.lt_or_ge signal signals.cancelled.length with hBound | hBound
  · simpa only [isCancelled, create, List.getD, List.getElem?_append_left hBound] using h
  · simp only [isCancelled, create, List.getD, List.getElem?_append_right hBound] at h
    cases hPlace : signal - signals.cancelled.length <;> simp [hPlace] at h

theorem isCancelled_cancelAll {signals : Signals} {list : List SignalId} {signal : SignalId}
    (hMem : signal ∈ list) (hBound : signal < signals.cancelled.length) :
    (signals.cancelAll list).isCancelled signal = true := by
  induction list generalizing signals with
  | nil => cases hMem
  | cons first rest ih =>
      rcases List.mem_cons.mp hMem with rfl | hRest
      · exact (leads_cancelAll _ rest).kept signal (isCancelled_cancel_self hBound)
      · exact ih hRest (Nat.lt_of_lt_of_le hBound (leads_cancel signals first).length)

end Signals

/-! ## What the registry shows of a cycle -/

/-- **The entry of a name** while its cycle is in a phase. -/
def Cycle.Phase.Shows (signals : Signals) (registration : Registration) : Cycle.Phase → Prop
  | .retrying | .attempting _ | .waiting _ | .acquired _ =>
    registration.state = .acquiring ∧ registration.signal = none
  | .marked _ signal | .starting _ signal | .beating _ signal | .renewing _ _ signal
  | .losing _ signal | .stopping signal =>
    registration.state = .held ∧ registration.signal = some signal
  | .demoting _ =>
    registration.state = .held ∧
      ∃ signal, registration.signal = some signal ∧ signals.isCancelled signal = true
  | .leaving =>
    registration.state = .acquiring ∧ registration.signal = none ∨
      registration.state = .held ∧
        ∃ signal, registration.signal = some signal ∧ signals.isCancelled signal = true
  | .cooling _ | .departing => registration.state = .lost ∧ registration.signal = none
  | .over => False

/-- The entry of a name after its cycle has moved to a phase. -/
def Registration.after (registration : Registration) : Cycle.Phase → Registration
  | .marked _ signal => { registration with state := .held, signal := some signal }
  | .cooling _ => { registration with state := .lost, signal := none }
  | _ => registration

theorem Cycle.Phase.Shows.leads {signals later : Signals} {registration : Registration}
    {phase : Cycle.Phase} (h : phase.Shows signals registration) (hLeads : signals.Leads later) :
    phase.Shows later registration := by
  cases phase with
  | demoting failures =>
      obtain ⟨hState, signal, hSignal, hCancelled⟩ := h
      exact ⟨hState, signal, hSignal, hLeads.kept signal hCancelled⟩
  | leaving =>
      refine h.imp_right ?_
      rintro ⟨hState, signal, hSignal, hCancelled⟩
      exact ⟨hState, signal, hSignal, hLeads.kept signal hCancelled⟩
  | _ => exact h

namespace Cycle.Move

variable {manager : Manager} {cycle : Cycle} {moment : Moment} {stimulus : Stimulus}
  {phase phase' : Cycle.Phase}

/-- A cycle that is over does not move. -/
theorem isLive (h : Move manager cycle moment stimulus phase phase') : phase.isLive = true := by
  cases h <;> rfl

/-- A move shows in the entry of its name, and nowhere else. -/
theorem shows (h : Move manager cycle moment stimulus phase phase') {registration : Registration}
    (hLive : phase'.isLive = true) (hShows : phase.Shows manager.signals registration)
    (hCreated : ∀ signal, phase.signal? = some signal →
      signal < manager.signals.cancelled.length) :
    phase'.Shows (manager.signalsAfter phase phase') (registration.after phase') := by
  cases h with
  | quit hFlag => exact .inl hShows
  | mark version => exact ⟨rfl, rfl⟩
  | cancel failures signal =>
      exact ⟨hShows.1, signal, hShows.2, Signals.isCancelled_cancel_self (hCreated signal rfl)⟩
  | demote failures => exact ⟨rfl, rfl⟩
  | stop signal =>
      exact .inr ⟨hShows.1, signal, hShows.2,
        Signals.isCancelled_cancel_self (hCreated signal rfl)⟩
  | depart => cases hLive
  | leave => cases hLive
  | wakeWaiting due => exact .inl hShows
  | _ => exact hShows

/-- The signal of a job is created when its lock is marked. -/
theorem signal?_cases (h : Move manager cycle moment stimulus phase phase') {signal : SignalId}
    (hSignal : phase'.signal? = some signal) :
    phase.signal? = some signal ∨
      signal = manager.signals.create.1 ∧
        manager.signalsAfter phase phase' = manager.signals.create.2 := by
  cases h with
  | mark version => exact .inr ⟨(Option.some.inj hSignal).symm, rfl⟩
  | look version other => exact .inl hSignal
  | start version other => exact .inl hSignal
  | recover hResult => exact .inl hSignal
  | falter hResult hFailed hFailures => exact .inl hSignal
  | lose hResult hFailed hFailures => exact .inl hSignal
  | renew beat renewal other response => exact .inl hSignal
  | beat beat other => exact .inl hSignal
  | wakeBeating beat other => exact .inl hSignal
  | _ => cases hSignal

end Cycle.Move

namespace Manager

theorem leads_signalsAfter (manager : Manager) (phase phase' : Cycle.Phase) :
    manager.signals.Leads (manager.signalsAfter phase phase') := by
  unfold signalsAfter
  split
  · exact Signals.leads_create _
  · split
    · exact Signals.leads_cancel _ _
    · exact .refl _
  · exact Signals.leads_cancel _ _
  · exact Signals.leads_cancel _ _
  · exact .refl _

theorem get?_registryAfter_of_ne (manager : Manager) {name other : String} (phase : Cycle.Phase)
    (h : other ≠ name) :
    (manager.registryAfter name phase).get? other = manager.registry.get? other := by
  unfold registryAfter
  split
  · exact OrderedMap.get?_modify_of_ne _ _ h
  · exact OrderedMap.get?_modify_of_ne _ _ h
  · exact OrderedMap.get?_erase_of_ne _ h
  · rfl

theorem get?_registryAfter_self (manager : Manager) (name : String) {phase : Cycle.Phase}
    (hLive : phase.isLive = true) :
    (manager.registryAfter name phase).get? name
      = (manager.registry.get? name).map fun registration => registration.after phase := by
  cases phase with
  | marked version signal => exact OrderedMap.get?_modify_self _ _ _
  | cooling due => exact OrderedMap.get?_modify_self _ _ _
  | «over» => cases hLive
  | _ => exact Option.map_id'.symm ▸ rfl

/-- A cycle that is over has taken its name out of the registry. -/
theorem get?_registryAfter_of_over (manager : Manager) (name : String) {phase : Cycle.Phase}
    (hOver : phase.isLive = false) : (manager.registryAfter name phase).get? name = none := by
  cases phase with
  | «over» => exact OrderedMap.get?_erase_self _ _
  | _ => cases hOver

/-- A member of a list with one more at its end is that one, or was there before. -/
theorem getElem?_concat_cases {cycles : List Cycle} {last cycle : Cycle} {id : Nat}
    (h : (cycles ++ [last])[id]? = some cycle) :
    cycles[id]? = some cycle ∨ id = cycles.length ∧ cycle = last := by
  rcases Nat.lt_or_ge id cycles.length with hBound | hBound
  · exact .inl ((List.getElem?_append_left hBound).symm.trans h)
  · rw [List.getElem?_append_right hBound] at h
    obtain ⟨hZero, hLast⟩ := List.getElem?_eq_some_iff.mp h
    rw [List.getElem_singleton] at hLast
    rw [List.length_singleton] at hZero
    exact .inr ⟨by omega, hLast.symm⟩

/-- The manager with a name registered and its cycle begun. -/
def accept (manager : Manager) (name : String) (interval : IntervalClass) : Manager :=
  { manager with
    registry := manager.registry.insert name ⟨interval, .acquiring, none⟩
    cycles := manager.cycles
      ++ [Cycle.start name interval manager.options.retry (manager.policy interval).lease] }

/-- The manager with several signals cancelled. -/
def cancelAll (manager : Manager) (signals : List SignalId) : Manager :=
  { manager with signals := manager.signals.cancelAll signals }

/-- **The registry and the cycles agree.** -/
structure Coherent (manager : Manager) : Prop where
  unique : ∀ (i j : Nat) (c d : Cycle), manager.cycles[i]? = some c →
    manager.cycles[j]? = some d → c.name = d.name → c.phase.isLive = true →
    d.phase.isLive = true → i = j
  shown : ∀ (id : Nat) (cycle : Cycle), manager.cycles[id]? = some cycle →
    cycle.phase.isLive = true →
    ∃ registration, manager.registry.get? cycle.name = some registration ∧
      cycle.phase.Shows manager.signals registration
  registered : ∀ name registration, manager.registry.get? name = some registration →
    ∃ (id : Nat) (cycle : Cycle), manager.cycles[id]? = some cycle ∧ cycle.name = name ∧
      cycle.phase.isLive = true
  created : ∀ (id : Nat) (cycle : Cycle) (signal : SignalId), manager.cycles[id]? = some cycle →
    cycle.phase.signal? = some signal → signal < manager.signals.cancelled.length

/-- A name is held under a signal that is not cancelled. -/
def IsLive (manager : Manager) (name : String) : Prop :=
  ∃ registration signal, manager.registry.get? name = some registration ∧
    registration.state = .held ∧ registration.signal = some signal ∧
    manager.signals.isCancelled signal = false

instance (manager : Manager) (name : String) : Decidable (manager.IsLive name) :=
  decidable_of_iff
    ((manager.registry.get? name).any (fun registration =>
      decide (registration.state = .held) &&
        registration.signal.any fun signal => !manager.signals.isCancelled signal) = true) <| by
    simp only [IsLive, Option.any_eq_true, Bool.and_eq_true, decide_eq_true_eq,
      Bool.not_eq_true']
    constructor
    · rintro ⟨registration, hGet, hState, signal, hSignal, hActive⟩
      exact ⟨registration, signal, hGet, hState, hSignal, hActive⟩
    · rintro ⟨registration, signal, hGet, hState, hSignal, hActive⟩
      exact ⟨registration, hGet, hState, signal, hSignal, hActive⟩

namespace Coherent

variable {manager next : Manager}

/-- A name that is held under a signal that is not cancelled has a cycle whose job has this
signal. -/
theorem exists_of_isLive (h : manager.Coherent) {name : String} (hLive : manager.IsLive name) :
    ∃ (id : Nat) (cycle : Cycle) (signal : SignalId), manager.cycles[id]? = some cycle ∧
      cycle.name = name ∧ cycle.phase.signal? = some signal := by
  obtain ⟨registration, signal, hGet, hState, hSignal, hActive⟩ := hLive
  obtain ⟨id, cycle, hCycle, rfl, hCycleLive⟩ := h.registered _ _ hGet
  obtain ⟨entry, hEntry, hShows⟩ := h.shown id cycle hCycle hCycleLive
  obtain rfl : registration = entry := Option.some.inj (hGet.symm.trans hEntry)
  have hReleased : ¬∃ other, registration.signal = some other ∧
      manager.signals.isCancelled other = true := by
    rintro ⟨other, hOther, hCancelled⟩
    obtain rfl : signal = other := Option.some.inj (hSignal.symm.trans hOther)
    rw [hActive] at hCancelled
    cases hCancelled
  refine ⟨id, cycle, signal, hCycle, rfl, ?_⟩
  cases hPhase : cycle.phase with
  | marked version other => rw [hPhase] at hShows; exact hShows.2.symm.trans hSignal
  | starting version other => rw [hPhase] at hShows; exact hShows.2.symm.trans hSignal
  | beating beat other => rw [hPhase] at hShows; exact hShows.2.symm.trans hSignal
  | renewing beat renewal other => rw [hPhase] at hShows; exact hShows.2.symm.trans hSignal
  | losing failures other => rw [hPhase] at hShows; exact hShows.2.symm.trans hSignal
  | stopping other => rw [hPhase] at hShows; exact hShows.2.symm.trans hSignal
  | demoting failures => rw [hPhase] at hShows; exact absurd hShows.2 hReleased
  | leaving =>
      rw [hPhase] at hShows
      rcases hShows with ⟨hAcquiring, -⟩ | ⟨-, hDone⟩
      · rw [hState] at hAcquiring
        cases hAcquiring
      · exact absurd hDone hReleased
  | «over» => rw [hPhase] at hShows; exact hShows.elim
  | _ =>
      rw [hPhase] at hShows
      have hOther := hShows.1
      rw [hState] at hOther
      cases hOther

/-- Nothing is registered in a new manager. -/
theorem of_new {options : Options} {capacity : Nat} (h : new options capacity = .ok manager) :
    manager.Coherent := by
  unfold new at h
  split at h
  · cases h
  · obtain rfl := Except.ok.inj h
    refine ⟨?_, ?_, ?_, ?_⟩
    · intro i j c d hC
      simp at hC
    · intro id cycle hCycle
      simp at hCycle
    · intro name registration hGet
      rw [OrderedMap.get?_empty] at hGet
      cases hGet
    · intro id cycle signal hCycle
      simp at hCycle

/-- Signals may be created and cancelled. -/
theorem of_leads (h : manager.Coherent) (hCycles : next.cycles = manager.cycles)
    (hRegistry : next.registry = manager.registry)
    (hLeads : manager.signals.Leads next.signals) : next.Coherent := by
  refine ⟨?_, ?_, ?_, ?_⟩
  · rw [hCycles]
    exact h.unique
  · rw [hCycles, hRegistry]
    intro id cycle hCycle hLive
    obtain ⟨registration, hGet, hShows⟩ := h.shown id cycle hCycle hLive
    exact ⟨registration, hGet, hShows.leads hLeads⟩
  · rw [hCycles, hRegistry]
    exact h.registered
  · rw [hCycles]
    intro id cycle signal hCycle hSignal
    exact Nat.lt_of_lt_of_le (h.created id cycle signal hCycle hSignal) hLeads.length

theorem raiseFlag (h : manager.Coherent) : manager.raiseFlag.Coherent :=
  h.of_leads rfl rfl (.refl _)

theorem cancelAll (h : manager.Coherent) (signals : List SignalId) :
    (manager.cancelAll signals).Coherent :=
  h.of_leads rfl rfl (Signals.leads_cancelAll _ _)

theorem cancelRegistered (h : manager.Coherent) : manager.cancelRegistered.Coherent :=
  h.cancelAll _

/-- A name that is free may be registered, and its cycle is new. -/
theorem accept (h : manager.Coherent) {name : String} (hFree : manager.registry.get? name = none)
    (interval : IntervalClass) : (manager.accept name interval).Coherent := by
  -- The cycles that are there have other names.
  have hOther : ∀ {id : Nat} {cycle : Cycle}, manager.cycles[id]? = some cycle →
      cycle.phase.isLive = true → cycle.name ≠ name := by
    rintro id cycle hCycle hLive rfl
    obtain ⟨registration, hGet, -⟩ := h.shown id cycle hCycle hLive
    rw [hFree] at hGet
    cases hGet
  refine ⟨?_, ?_, ?_, ?_⟩
  · intro i j c d hC hD hName hLiveC hLiveD
    rcases getElem?_concat_cases hC with hOldC | ⟨rfl, rfl⟩ <;>
      rcases getElem?_concat_cases hD with hOldD | ⟨rfl, rfl⟩
    · exact h.unique i j c d hOldC hOldD hName hLiveC hLiveD
    · exact absurd hName (hOther hOldC hLiveC)
    · exact absurd hName.symm (hOther hOldD hLiveD)
    · rfl
  · intro id cycle hCycle hLive
    rcases getElem?_concat_cases hCycle with hOld | ⟨rfl, rfl⟩
    · obtain ⟨registration, hGet, hShows⟩ := h.shown id cycle hOld hLive
      refine ⟨registration, ?_, hShows⟩
      exact (OrderedMap.get?_insert_of_ne _ _ (hOther hOld hLive)).trans hGet
    · exact ⟨_, OrderedMap.get?_insert_self _ _ _, rfl, rfl⟩
  · intro other registration hGet
    by_cases hName : other = name
    · subst hName
      exact ⟨_, _, List.getElem?_concat_length, rfl, rfl⟩
    · have hOld : manager.registry.get? other = some registration :=
        (OrderedMap.get?_insert_of_ne _ _ hName).symm.trans hGet
      obtain ⟨id, cycle, hCycle, hCycleName, hLive⟩ := h.registered other _ hOld
      obtain ⟨hBound, -⟩ := List.getElem?_eq_some_iff.mp hCycle
      exact ⟨id, cycle, (List.getElem?_append_left hBound).trans hCycle, hCycleName, hLive⟩
  · intro id cycle signal hCycle hSignal
    rcases getElem?_concat_cases hCycle with hOld | ⟨rfl, rfl⟩
    · exact h.created id cycle signal hOld hSignal
    · cases hSignal

/-- A name is registered only if it was free. -/
theorem run (h : manager.Coherent) (name : String) (interval : IntervalClass) :
    (manager.run name interval).2.1.Coherent := by
  unfold Manager.run
  split
  · exact h
  · split
    · exact h
    · split
      · exact h
      · next hTaken =>
        have hFree : manager.registry.get? name = none :=
          (OrderedMap.contains_eq_false_iff _ _).mp (Bool.eq_false_iff.mpr hTaken)
        exact h.accept hFree interval

/-- Every move of a cycle keeps the registry and the cycles in agreement. -/
theorem moves (h : manager.Coherent) {id : Nat} {cycle moved : Cycle} {moment : Moment}
    {stimulus : Stimulus} (hCycle : manager.cycles[id]? = some cycle)
    (hMoves : manager.Moves next id cycle moment stimulus moved) : next.Coherent := by
  have hLive : cycle.phase.isLive = true := hMoves.move.isLive
  have hLeads : manager.signals.Leads next.signals := by
    rw [hMoves.signals]
    exact manager.leads_signalsAfter _ _
  obtain ⟨hBound, -⟩ := List.getElem?_eq_some_iff.mp hCycle
  -- A cycle that is there afterwards is the moved one, or was there under its number.
  have hCases : ∀ {i : Nat} {c : Cycle}, next.cycles[i]? = some c →
      i = id ∧ c = moved ∨ i ≠ id ∧ manager.cycles[i]? = some c := by
    intro i c hC
    rw [hMoves.cycles] at hC
    by_cases hId : i = id
    · subst hId
      rw [List.getElem?_set_self hBound] at hC
      exact .inl ⟨rfl, (Option.some.inj hC).symm⟩
    · rw [List.getElem?_set_ne (Ne.symm hId)] at hC
      exact .inr ⟨hId, hC⟩
  have hOther : ∀ {i : Nat} {c : Cycle}, i ≠ id → manager.cycles[i]? = some c →
      c.phase.isLive = true → c.name ≠ cycle.name := fun hId hC hLiveC hName =>
    hId (h.unique _ _ _ _ hC hCycle hName hLiveC hLive)
  refine ⟨?_, ?_, ?_, ?_⟩
  · intro i j c d hC hD hName hLiveC hLiveD
    rcases hCases hC with ⟨rfl, rfl⟩ | ⟨hI, hOldC⟩ <;>
      rcases hCases hD with ⟨rfl, rfl⟩ | ⟨hJ, hOldD⟩
    · rfl
    · exact absurd (hName.symm.trans hMoves.name) (hOther hJ hOldD hLiveD)
    · exact absurd (hName.trans hMoves.name) (hOther hI hOldC hLiveC)
    · exact h.unique i j c d hOldC hOldD hName hLiveC hLiveD
  · intro i c hC hLiveC
    rw [hMoves.registry]
    rcases hCases hC with ⟨rfl, rfl⟩ | ⟨hI, hOld⟩
    · obtain ⟨registration, hGet, hShows⟩ := h.shown _ _ hCycle hLive
      refine ⟨registration.after c.phase, ?_, ?_⟩
      · rw [hMoves.name, manager.get?_registryAfter_self _ hLiveC, hGet]
        rfl
      · rw [hMoves.signals]
        exact hMoves.move.shows hLiveC hShows fun signal => h.created _ _ signal hCycle
    · obtain ⟨registration, hGet, hShows⟩ := h.shown i c hOld hLiveC
      refine ⟨registration, ?_, hShows.leads hLeads⟩
      rw [manager.get?_registryAfter_of_ne _ (hOther hI hOld hLiveC), hGet]
  · intro name registration hGet
    rw [hMoves.registry] at hGet
    by_cases hName : name = cycle.name
    · subst hName
      refine ⟨id, moved, ?_, hMoves.name, ?_⟩
      · rw [hMoves.cycles]
        exact List.getElem?_set_self hBound
      · cases hPhase : moved.phase with
        | «over» =>
            rw [hPhase, registryAfter, OrderedMap.get?_erase_self] at hGet
            cases hGet
        | _ => rfl
    · rw [manager.get?_registryAfter_of_ne _ hName] at hGet
      obtain ⟨i, c, hC, hCName, hLiveC⟩ := h.registered name registration hGet
      refine ⟨i, c, ?_, hCName, hLiveC⟩
      have hI : id ≠ i := by
        rintro rfl
        obtain rfl : cycle = c := Option.some.inj (hCycle.symm.trans hC)
        exact hName hCName.symm
      rw [hMoves.cycles, List.getElem?_set_ne hI, hC]
  · intro i c signal hC hSignal
    rcases hCases hC with ⟨rfl, rfl⟩ | ⟨hI, hOld⟩
    · rcases hMoves.move.signal?_cases hSignal with hBefore | ⟨rfl, hNew⟩
      · exact Nat.lt_of_lt_of_le (h.created _ _ signal hCycle hBefore) hLeads.length
      · rw [hMoves.signals, hNew]
        exact manager.signals.create_lt
    · exact Nat.lt_of_lt_of_le (h.created i c signal hOld hSignal) hLeads.length

/-- Every step keeps the registry and the cycles in agreement. -/
theorem step (h : manager.Coherent) (id : Nat) (moment : Moment) (stimulus : Stimulus) :
    (manager.step id moment stimulus).1.Coherent := by
  cases hCycle : manager.cycles[id]? with
  | none =>
      have hSame : (manager.step id moment stimulus).1 = manager := by
        simp only [Manager.step, hCycle]
      rw [hSame]
      exact h
  | some cycle =>
      rcases step_cases stimulus hCycle with hSame | ⟨moved, hMoves⟩
      · rw [hSame]
        exact h
      · exact h.moves hCycle hMoves

end Coherent
end Manager
end Leasehold
