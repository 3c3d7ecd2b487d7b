import Leasehold.Proofs.Manager.Bystanders

/-!
# Cycles under other numbers

The numbers of signals say in which order they were made, and nothing else.  A cycle whose signal
has another number in another manager moves there as it does here, and so does a cycle that has
another place there.

* `number`: the number that a signal has elsewhere.
* `Cycle.renumber`, `Registration.renumber`: a cycle and an entry with other signals.
* `Manager.exists_step_renumber`: a move of a cycle, seen under both numbers.
-/

namespace Leasehold

/-! ## Signals under other numbers -/

namespace Signals

@[simp]
theorem isCancelled_create (signals : Signals) (signal : SignalId) :
    signals.create.2.isCancelled signal = signals.isCancelled signal := by
  rcases Nat.lt_trichotomy signal signals.cancelled.length with hOld | rfl | hNone
  · simp [isCancelled, create, List.getD, List.getElem?_append_left hOld]
  · simp [isCancelled, create, List.getD]
  · simp [isCancelled, create, List.getD, List.getElem?_append_right (Nat.le_of_lt hNone),
      List.getElem?_eq_none (Nat.le_of_lt hNone), Nat.sub_ne_zero_of_lt hNone]

theorem isCancelled_cancel_of_ne (signals : Signals) {signal other : SignalId}
    (h : signal ≠ other) :
    (signals.cancel signal).isCancelled other = signals.isCancelled other := by
  simp only [isCancelled, cancel, List.getD, List.getElem?_set_ne h]

theorem lt_of_isCancelled {signals : Signals} {signal : SignalId}
    (h : signals.isCancelled signal = true) : signal < signals.cancelled.length := by
  rcases Nat.lt_or_ge signal signals.cancelled.length with hBound | hBound
  · exact hBound
  · simp [isCancelled, List.getD, List.getElem?_eq_none hBound] at h

end Signals

/-- The number that a signal of a list has elsewhere. -/
def number (numbers : List SignalId) (k : SignalId) : SignalId := numbers.getD k 0

section

variable {numbers : List SignalId} {signals : Signals} {k : Nat} {signal : SignalId}

theorem number_append_of_lt (h : k < numbers.length) (more : List SignalId) :
    number (numbers ++ more) k = number numbers k := by
  simp [number, List.getD, List.getElem?_append_left h]

theorem number_append_last (numbers : List SignalId) (signal : SignalId) :
    number (numbers ++ [signal]) numbers.length = signal := by
  simp [number, List.getD]

theorem getElem?_number (h : k < numbers.length) : numbers[k]? = some (number numbers k) := by
  simp [number, List.getD, List.getElem?_eq_getElem h]

theorem number_mem (h : k < numbers.length) : number numbers k ∈ numbers :=
  List.mem_of_getElem? (getElem?_number h)

/-- A signal that is cancelled under one number is cancelled under the other one. -/
theorem map_isCancelled_cancel (hDistinct : numbers.Nodup) (hPlace : k < numbers.length)
    (hBound : number numbers k < signals.cancelled.length) :
    numbers.map (signals.cancel (number numbers k)).isCancelled
      = (numbers.map signals.isCancelled).set k true := by
  refine List.ext_getElem? fun i => ?_
  rw [List.getElem?_map, List.getElem?_set]
  by_cases hI : k = i
  · subst hI
    simp only [getElem?_number hPlace, Option.map_some, Signals.isCancelled_cancel_self hBound,
      List.length_map, if_true, if_pos hPlace]
  · rw [if_neg hI, List.getElem?_map]
    cases hOther : numbers[i]? with
    | none => rfl
    | some other =>
        have hNe : number numbers k ≠ other := by
          rintro rfl
          have hSame := hOther.trans (getElem?_number hPlace).symm
          obtain ⟨hBoundI, -⟩ := List.getElem?_eq_some_iff.mp hOther
          exact hI ((List.getElem?_inj hBoundI hDistinct).mp hSame).symm
        rw [Option.map_some, Option.map_some, Signals.isCancelled_cancel_of_ne _ hNe]

/-- A signal that is not in the list can be cancelled. -/
theorem map_isCancelled_cancel_of_not_mem (h : signal ∉ numbers) :
    numbers.map (signals.cancel signal).isCancelled = numbers.map signals.isCancelled := by
  refine List.map_congr_left fun other hOther => ?_
  exact Signals.isCancelled_cancel_of_ne _ fun hSame => h (hSame ▸ hOther)

end

/-! ## Cycles under other numbers -/

namespace Cycle

/-- A phase with its signal under another number. -/
def Phase.renumber (f : SignalId → SignalId) : Phase → Phase
  | .marked version signal => .marked version (f signal)
  | .starting version signal => .starting version (f signal)
  | .beating beat signal => .beating beat (f signal)
  | .renewing beat renewal signal => .renewing beat renewal (f signal)
  | .losing failures signal => .losing failures (f signal)
  | .stopping signal => .stopping (f signal)
  | phase => phase

/-- A cycle with its signal under another number. -/
def renumber (f : SignalId → SignalId) (cycle : Cycle) : Cycle :=
  { cycle with phase := cycle.phase.renumber f }

variable {f g : SignalId → SignalId} {phase : Phase}

@[simp]
theorem Phase.need_renumber : (phase.renumber f).need = phase.need := by
  cases phase <;> rfl

@[simp]
theorem Phase.isLive_renumber : (phase.renumber f).isLive = phase.isLive := by
  cases phase <;> rfl

/-- Only the number of the signal that a phase has matters. -/
theorem Phase.renumber_congr (h : ∀ signal, phase.signal? = some signal → g signal = f signal) :
    phase.renumber g = phase.renumber f := by
  cases phase with
  | marked version signal => exact congrArg (Phase.marked version) (h signal rfl)
  | starting version signal => exact congrArg (Phase.starting version) (h signal rfl)
  | beating beat signal => exact congrArg (Phase.beating beat) (h signal rfl)
  | renewing beat renewal signal => exact congrArg (Phase.renewing beat renewal) (h signal rfl)
  | losing failures signal => exact congrArg (Phase.losing failures) (h signal rfl)
  | stopping signal => exact congrArg Phase.stopping (h signal rfl)
  | _ => rfl

theorem renumber_congr {cycle : Cycle}
    (h : ∀ signal, cycle.phase.signal? = some signal → g signal = f signal) :
    cycle.renumber g = cycle.renumber f := by
  rw [renumber, Phase.renumber_congr h, renumber]

end Cycle

/-- An entry with its signal under another number. -/
def Registration.renumber (f : SignalId → SignalId) (registration : Registration) : Registration :=
  { registration with signal := registration.signal.map f }

theorem Registration.renumber_congr {f g : SignalId → SignalId} {registration : Registration}
    (h : ∀ signal, registration.signal = some signal → g signal = f signal) :
    registration.renumber g = registration.renumber f := by
  rw [renumber, Option.map_congr h, renumber]

/-- An entry shows the phase of its cycle under any numbers. -/
theorem Registration.after_renumber (f : SignalId → SignalId) (registration : Registration)
    (phase : Cycle.Phase) :
    (registration.renumber f).after (phase.renumber f) = (registration.after phase).renumber f := by
  cases phase <;> rfl

namespace Manager

variable {manager other : Manager} {id place : Nat} {f g : SignalId → SignalId} {cycle : Cycle}
  {moment : Moment}

/-- **A turn under both numbers.**  Managers with the same options of which both or none are shut
down do the same to a cycle and to its copy; a signal that is made is made in both. -/
theorem exists_turn_renumber (hOptions : other.options = manager.options)
    (hFlag : other.shutDown = manager.shutDown) (hNeed : cycle.phase.need = .nothing)
    (hSignal : ∀ signal, cycle.phase.signal? = some signal → g signal = f signal)
    (hCreate : g other.signals.create.1 = manager.signals.create.1) :
    ∃ moved, (other.turn place cycle moment).1.cycles = other.cycles.set place moved ∧
      (manager.turn id (cycle.renumber f) moment).1.cycles
        = manager.cycles.set id (moved.renumber g) := by
  rw [← Cycle.renumber_congr hSignal]
  obtain ⟨options, registry, shutDown, signals, outbox, cycles⟩ := manager
  obtain ⟨otherOptions, otherRegistry, otherFlag, otherSignals, otherOutbox, otherCycles⟩ := other
  obtain rfl : otherOptions = options := hOptions
  obtain rfl : otherFlag = shutDown := hFlag
  obtain ⟨name, interval, backoff, phase⟩ := cycle
  cases phase with
  | retrying => cases otherFlag <;> exact ⟨_, rfl, rfl⟩
  | attempting attempt =>
      simp only [turn, Cycle.renumber, Cycle.Phase.renumber]
      have hEnded := attempt.request?_eq_none_iff.mp (Cycle.Need.ofRequest_eq_nothing hNeed)
      obtain ⟨result, hResult⟩ := Option.isSome_iff_exists.mp hEnded
      simp only [hResult]
      rcases result with error | outcome
      · exact ⟨_, rfl, rfl⟩
      · cases outcome <;> exact ⟨_, rfl, rfl⟩
  | acquired version =>
      have hMade : g otherSignals.cancelled.length = signals.cancelled.length := hCreate
      refine ⟨_, rfl, ?_⟩
      simp only [Cycle.renumber, Cycle.Phase.renumber]
      rw [hMade]
      rfl
  | marked version signal => cases otherFlag <;> exact ⟨_, rfl, rfl⟩
  | renewing beat renewal signal =>
      simp only [turn, Cycle.renumber, Cycle.Phase.renumber]
      have hEnded := renewal.request?_eq_none_iff.mp (Cycle.Need.ofRequest_eq_nothing hNeed)
      obtain ⟨result, hResult⟩ := Option.isSome_iff_exists.mp hEnded
      simp only [hResult, concludeRenewal_fst]
      refine ⟨_, rfl, ?_⟩
      simp only [setPhase]
      split
      · rfl
      · split <;> rfl
  | waiting due => cases hNeed
  | beating beat signal => cases hNeed
  | cooling due => cases hNeed
  | «over» => cases hNeed
  | _ => exact ⟨_, rfl, rfl⟩

/-- **A move under both numbers**: what moves a cycle moves its copy to the copy of where the
cycle moves. -/
theorem exists_step_renumber {stimulus : Stimulus} {now : Nat}
    (hOptions : other.options = manager.options) (hFlag : other.shutDown = manager.shutDown)
    (hCycle : manager.cycles[id]? = some (cycle.renumber f))
    (hOther : other.cycles[place]? = some cycle)
    (hSuits : stimulus.suits now other.shutDown cycle.phase.need = true)
    (hSignal : ∀ signal, cycle.phase.signal? = some signal → g signal = f signal)
    (hCreate : g other.signals.create.1 = manager.signals.create.1) :
    ∃ moved, (other.step place moment stimulus).1.cycles = other.cycles.set place moved ∧
      (manager.step id moment stimulus).1.cycles = manager.cycles.set id (moved.renumber g) := by
  simp only [step, hCycle, hOther]
  cases stimulus with
  | turn =>
      cases hNeed : cycle.phase.need with
      | nothing => exact exists_turn_renumber hOptions hFlag hNeed hSignal hCreate
      | _ =>
          rw [hNeed] at hSuits
          cases hSuits
  | response response =>
      rw [← Cycle.renumber_congr hSignal]
      obtain ⟨name, interval, backoff, phase⟩ := cycle
      cases phase with
      | attempting attempt => exact ⟨_, rfl, rfl⟩
      | renewing beat renewal signal => exact ⟨_, rfl, rfl⟩
      | _ => cases response <;> cases hSuits
  | deadline =>
      rw [← Cycle.renumber_congr hSignal]
      obtain ⟨options, registry, shutDown, signals, outbox, cycles⟩ := manager
      obtain ⟨otherOptions, otherRegistry, otherFlag, otherSignals, otherOutbox, otherCycles⟩ :=
        other
      obtain rfl : otherOptions = options := hOptions
      obtain ⟨name, interval, backoff, phase⟩ := cycle
      cases hNeed : phase.need with
      | pause due =>
          rcases Cycle.Phase.pause_cases hNeed with rfl | ⟨beat, signal, rfl, -⟩ | rfl
          · exact ⟨_, rfl, rfl⟩
          · exact ⟨_, rfl, rfl⟩
          · exact ⟨_, rfl, rfl⟩
      | _ =>
          rw [hNeed] at hSuits
          cases hSuits
  | shutdown =>
      rw [← Cycle.renumber_congr hSignal]
      obtain ⟨name, interval, backoff, phase⟩ := cycle
      cases hNeed : phase.need with
      | pause due =>
          rcases Cycle.Phase.pause_cases hNeed with rfl | ⟨beat, signal, rfl, -⟩ | rfl
          · exact ⟨_, rfl, rfl⟩
          · exact ⟨_, rfl, rfl⟩
          · exact ⟨_, rfl, rfl⟩
      | _ =>
          rw [hNeed] at hSuits
          cases hSuits

end Manager
end Leasehold
