import Leasehold.Proofs.Data.Selection
import Leasehold.Proofs.Manager.Coherence
import Leasehold.Proofs.Manager.Renumber

/-!
# A manager of one name

The names of a manager share its registry and its signals.  A manager that has only one of them
can mirror it: it has the same cycles of this name and the same registration, under other numbers.

* `Manager.Numbers`: which signals of the larger manager are those of the name.
* `Manager.Mirrors`: a manager of one name that mirrors a larger one until a shutdown.
* `Manager.Mirrors.enroll`, `Manager.Mirrors.enroll_other`: registrations keep this.
* `Manager.Mirrors.step`, `Manager.Mirrors.moves_other`: so do the moves of the cycles.
-/

namespace Leasehold

/-- The signal in the registry is one that was made. -/
theorem Manager.Coherent.signal_lt {manager : Manager} (h : manager.Coherent) {name : String}
    {registration : Registration} {signal : SignalId}
    (hGet : manager.registry.get? name = some registration)
    (hSignal : registration.signal = some signal) :
    signal < manager.signals.cancelled.length := by
  obtain ⟨id, cycle, hCycle, rfl, hLive⟩ := h.registered _ _ hGet
  obtain ⟨entry, hEntry, hShows⟩ := h.shown id cycle hCycle hLive
  obtain rfl : registration = entry := Option.some.inj (hGet.symm.trans hEntry)
  have hMade : ∀ {other : SignalId}, cycle.phase.signal? = some other →
      registration.signal = some other → signal < manager.signals.cancelled.length := by
    intro other hOther hEntrySignal
    obtain rfl : other = signal := Option.some.inj (hEntrySignal.symm.trans hSignal)
    exact h.created id cycle other hCycle hOther
  have hCancelled : (∃ other, registration.signal = some other ∧
      manager.signals.isCancelled other = true) → signal < manager.signals.cancelled.length := by
    rintro ⟨other, hOther, hDone⟩
    obtain rfl : other = signal := Option.some.inj (hOther.symm.trans hSignal)
    exact Signals.lt_of_isCancelled hDone
  have hNone : registration.signal ≠ none := by
    rw [hSignal]
    nofun
  cases hPhase : cycle.phase with
  | demoting failures =>
      rw [hPhase] at hShows
      exact hCancelled hShows.2
  | leaving =>
      rw [hPhase] at hShows
      rcases hShows with hFree | hDone
      · exact absurd hFree.2 hNone
      · exact hCancelled hDone.2
  | «over» =>
      rw [hPhase] at hShows
      exact hShows.elim
  | marked | starting | beating | renewing | losing | stopping =>
      rw [hPhase] at hShows
      exact hMade (by rw [hPhase]; rfl) hShows.2
  | _ =>
      rw [hPhase] at hShows
      exact absurd hShows.2 hNone

namespace Manager

/-- Whether a cycle follows a name. -/
def follows (name : String) (cycle : Cycle) : Bool := decide (cycle.name = name)

/-- **The signals of a name**, by the numbers that they have in a manager of this name alone, and
by the numbers that they have among those of other names: they are cancelled there as they are
here, and no cycle of another name has one of them. -/
structure Numbers (name : String) (numbers : List SignalId) (manager alone : Manager) : Prop where
  signals : alone.signals.cancelled = numbers.map manager.signals.isCancelled
  distinct : numbers.Nodup
  made : ∀ signal ∈ numbers, signal < manager.signals.cancelled.length
  apart : ∀ (id : Nat) (cycle : Cycle) (signal : SignalId), manager.cycles[id]? = some cycle →
    cycle.name ≠ name → cycle.phase.signal? = some signal → signal ∉ numbers

/-- **A manager of one name that mirrors a larger one** until a shutdown. -/
structure Mirrors (name : String) (numbers : List SignalId) (manager alone : Manager) : Prop where
  options : alone.options = manager.options
  flag : manager.shutDown = false
  flagAlone : alone.shutDown = false
  entry : manager.registry.get? name
    = (alone.registry.get? name).map (Registration.renumber (number numbers))
  cycles : manager.cycles.filter (follows name)
    = alone.cycles.map (Cycle.renumber (number numbers))
  signals : Numbers name numbers manager alone

namespace Numbers

variable {manager alone : Manager} {name : String} {numbers : List SignalId}

theorem length (h : Numbers name numbers manager alone) :
    alone.signals.cancelled.length = numbers.length := by
  rw [h.signals, List.length_map]

/-- A signal is cancelled under both numbers or under none. -/
theorem isCancelled (h : Numbers name numbers manager alone) {signal : SignalId}
    (hSignal : signal < numbers.length) :
    manager.signals.isCancelled (number numbers signal) = alone.signals.isCancelled signal := by
  conv_rhs => rw [Signals.isCancelled, h.signals, List.getD_eq_getElem?_getD, List.getElem?_map,
    getElem?_number hSignal]
  rfl

/-- The next signal is new under both numbers. -/
theorem create_not_mem (h : Numbers name numbers manager alone) :
    manager.signals.create.1 ∉ numbers :=
  fun hMem => Nat.lt_irrefl _ (h.made _ hMem)

end Numbers

namespace Mirrors

variable {manager alone : Manager} {name other : String} {numbers : List SignalId}
  {interval : IntervalClass}

theorem of_new {options : Options} {capacity : Nat} (h : Manager.new options capacity = .ok manager)
    (name : String) : Mirrors name [] manager manager := by
  obtain ⟨-, rfl⟩ := eq_of_new h
  have hSignals : Numbers name [] ⟨options, ∅, false, .none, .ofCapacity capacity, []⟩
      ⟨options, ∅, false, .none, .ofCapacity capacity, []⟩ :=
    ⟨rfl, List.nodup_nil, fun _ hMem => (List.not_mem_nil hMem).elim,
      fun _ _ _ hCycle => (nomatch hCycle)⟩
  exact ⟨rfl, rfl, rfl, rfl, rfl, hSignals⟩

/-- The name is registered in both or in none. -/
theorem contains (h : Mirrors name numbers manager alone) :
    alone.registry.contains name = manager.registry.contains name := by
  rw [OrderedMap.contains, OrderedMap.contains, h.entry, Option.isSome_map]

/-- The name has the same state in both. -/
theorem state (h : Mirrors name numbers manager alone) :
    manager.state name = alone.state name := by
  rw [Manager.state, h.entry, Manager.state, Option.map_map]
  rfl

theorem policy (h : Mirrors name numbers manager alone) (interval : IntervalClass) :
    alone.policy interval = manager.policy interval := by
  rw [Manager.policy, h.options, Manager.policy]

/-! ### Registrations -/

/-- Another cycle is registered, which has no signal yet. -/
theorem apart_accept (h : Numbers name numbers manager alone) (other : String)
    (interval : IntervalClass) :
    ∀ (id : Nat) (cycle : Cycle) (signal : SignalId),
      (manager.accept other interval).cycles[id]? = some cycle →
      cycle.name ≠ name → cycle.phase.signal? = some signal → signal ∉ numbers := by
  intro id cycle signal hCycle hName hSignal
  rcases getElem?_concat_cases hCycle with hOld | ⟨-, rfl⟩
  · exact h.apart id cycle signal hOld hName hSignal
  · cases hSignal

theorem accept (h : Mirrors name numbers manager alone) (interval : IntervalClass) :
    Mirrors name numbers (manager.accept name interval) (alone.accept name interval) := by
  refine ⟨h.options, h.flag, h.flagAlone, ?_, ?_,
    { h.signals with apart := apart_accept h.signals name interval }⟩
  · simp only [Manager.accept, OrderedMap.get?_insert_self, Option.map_some]
    rfl
  · have hFollows : follows name (Cycle.start name interval manager.options.retry
        (manager.policy interval).lease) = true := decide_eq_true rfl
    simp only [Manager.accept, List.filter_append, h.cycles, List.map_append,
      List.filter_cons_of_pos hFollows, List.filter_nil, List.map_cons, List.map_nil, h.options,
      h.policy]
    rfl

theorem accept_other (h : Mirrors name numbers manager alone) (hOther : other ≠ name)
    (interval : IntervalClass) :
    Mirrors name numbers (manager.accept other interval) alone := by
  refine ⟨h.options, h.flag, h.flagAlone, ?_, ?_,
    { h.signals with apart := apart_accept h.signals other interval }⟩
  · rw [← h.entry]
    exact OrderedMap.get?_insert_of_ne _ _ (Ne.symm hOther)
  · have hFollows : ¬follows name (Cycle.start other interval manager.options.retry
        (manager.policy interval).lease) = true :=
      fun hSame => hOther (of_decide_eq_true hSame)
    simp only [Manager.accept, List.filter_append, h.cycles, List.filter_cons_of_neg hFollows,
      List.filter_nil, List.append_nil]

/-- A registration of the name is answered alike in both. -/
theorem enroll (h : Mirrors name numbers manager alone) (interval : IntervalClass) :
    Mirrors name numbers (manager.enroll name interval).2.1 (alone.enroll name interval).2.1 := by
  cases hTaken : manager.registry.contains name with
  | true =>
      obtain ⟨entry, hEnroll⟩ := exists_enroll_of_contains hTaken interval
      obtain ⟨entryAlone, hAlone⟩ :=
        exists_enroll_of_contains (h.contains.trans hTaken) interval
      rw [hEnroll, hAlone]
      exact h
  | false =>
      obtain ⟨entry, hEnroll⟩ := exists_enroll_of_free hTaken interval
      obtain ⟨entryAlone, hAlone⟩ := exists_enroll_of_free (h.contains.trans hTaken) interval
      rw [hEnroll, hAlone]
      exact h.accept interval

theorem enroll_other (h : Mirrors name numbers manager alone) (hOther : other ≠ name)
    (interval : IntervalClass) :
    Mirrors name numbers (manager.enroll other interval).2.1 alone := by
  cases hTaken : manager.registry.contains other with
  | true =>
      obtain ⟨entry, hEnroll⟩ := exists_enroll_of_contains hTaken interval
      rw [hEnroll]
      exact h
  | false =>
      obtain ⟨entry, hEnroll⟩ := exists_enroll_of_free hTaken interval
      rw [hEnroll]
      exact h.accept_other hOther interval

/-- What is published is not part of it. -/
theorem withOutbox (h : Mirrors name numbers manager alone) (outbox outboxAlone : Outbox) :
    Mirrors name numbers { manager with outbox := outbox } { alone with outbox := outboxAlone } :=
  ⟨h.options, h.flag, h.flagAlone, h.entry, h.cycles, h.signals.signals, h.signals.distinct,
    h.signals.made, h.signals.apart⟩

/-! ### Moves of cycles -/

section

variable {next later : Manager} {id place : Nat} {cycle moved : Cycle} {moment : Moment}
  {stimulus : Stimulus}

/-- A move leaves the signals that its cycle does not have. -/
theorem map_isCancelled_signalsAfter (manager : Manager) {phase phase' : Cycle.Phase}
    (h : ∀ signal, phase.signal? = some signal → signal ∉ numbers) :
    numbers.map (manager.signalsAfter phase phase').isCancelled
      = numbers.map manager.signals.isCancelled := by
  cases phase with
  | acquired version => exact List.map_congr_left fun signal _ => Signals.isCancelled_create _ _
  | marked version signal =>
      simp only [signalsAfter]
      split
      · exact map_isCancelled_cancel_of_not_mem (h signal rfl)
      · rfl
  | losing failures signal => exact map_isCancelled_cancel_of_not_mem (h signal rfl)
  | stopping signal => exact map_isCancelled_cancel_of_not_mem (h signal rfl)
  | _ => rfl

/-- The cycles of other names have other signals, whatever cycle moves. -/
theorem apart_moves (h : Numbers name numbers manager alone)
    (hCycle : manager.cycles[id]? = some cycle)
    (hMoves : manager.Moves next id cycle moment stimulus moved) :
    ∀ (i : Nat) (c : Cycle) (signal : SignalId), next.cycles[i]? = some c →
      c.name ≠ name → c.phase.signal? = some signal → signal ∉ numbers := by
  intro i c signal hC hName hSignal
  rw [hMoves.cycles] at hC
  by_cases hId : id = i
  · subst hId
    obtain ⟨hBound, -⟩ := List.getElem?_eq_some_iff.mp hCycle
    rw [List.getElem?_set_self hBound] at hC
    obtain rfl := Option.some.inj hC
    rcases hMoves.move.signal?_cases hSignal with hBefore | ⟨rfl, -⟩
    · exact h.apart id cycle signal hCycle (fun hSame => hName (hMoves.name.trans hSame)) hBefore
    · exact h.create_not_mem
  · rw [List.getElem?_set_ne hId] at hC
    exact h.apart i c signal hC hName hSignal

theorem made_moves (h : Numbers name numbers manager alone)
    (hMoves : manager.Moves next id cycle moment stimulus moved) :
    ∀ signal ∈ numbers, signal < next.signals.cancelled.length := by
  intro signal hSignal
  rw [hMoves.signals]
  exact Nat.lt_of_lt_of_le (h.made signal hSignal) (manager.leads_signalsAfter _ _).length

/-- A cycle of another name moves: its own signals are made and cancelled. -/
theorem moves_other (h : Mirrors name numbers manager alone)
    (hCycle : manager.cycles[id]? = some cycle) (hOther : cycle.name ≠ name)
    (hMoves : manager.Moves next id cycle moment stimulus moved) :
    Mirrors name numbers next alone := by
  have hKept : numbers.map next.signals.isCancelled = numbers.map manager.signals.isCancelled := by
    rw [hMoves.signals]
    exact map_isCancelled_signalsAfter manager fun signal =>
      h.signals.apart id cycle signal hCycle hOther
  refine ⟨h.options.trans hMoves.options.symm, hMoves.shutDown.trans h.flag, h.flagAlone, ?_, ?_,
    ⟨h.signals.signals.trans hKept.symm, h.signals.distinct, made_moves h.signals hMoves,
      apart_moves h.signals hCycle hMoves⟩⟩
  · rw [hMoves.registry, manager.get?_registryAfter_of_ne _ (Ne.symm hOther)]
    exact h.entry
  · have hBefore : follows name cycle = false := decide_eq_false hOther
    have hAfter : follows name moved = false := by
      rw [follows, hMoves.name]
      exact decide_eq_false hOther
    rw [hMoves.cycles, filter_set_of_neg hCycle hBefore hAfter]
    exact h.cycles

/-- A cycle of the name has its copy. -/
theorem exists_copy (h : Mirrors name numbers manager alone)
    (hCycle : manager.cycles[id]? = some cycle) (hName : cycle.name = name) :
    ∃ copy, alone.cycles[rank (follows name) manager.cycles id]? = some copy ∧
      copy.renumber (number numbers) = cycle := by
  have hPlace := getElem?_rank hCycle (show follows name cycle = true from decide_eq_true hName)
  rw [h.cycles, List.getElem?_map] at hPlace
  exact Option.map_eq_some_iff.mp hPlace

variable {copy movedCopy : Cycle} {more : List SignalId}

/-- A cycle of the name and its copy move, and stay a cycle and its copy; then the managers mirror
each other as long as their signals do. -/
theorem moves (h : Mirrors name numbers manager alone) (hAlone : alone.Coherent)
    (hCycle : manager.cycles[id]? = some cycle) (hName : cycle.name = name)
    (hMoves : manager.Moves next id cycle moment stimulus moved)
    (hCopyName : copy.name = name)
    (hMovesCopy : alone.Moves later (rank (follows name) manager.cycles id) copy moment stimulus
      movedCopy)
    (hMoved : moved = movedCopy.renumber (number (numbers ++ more)))
    (hSignals : Numbers name (numbers ++ more) next later) :
    Mirrors name (numbers ++ more) next later := by
  have hAgree : ∀ signal, signal < alone.signals.cancelled.length →
      number (numbers ++ more) signal = number numbers signal := by
    intro signal hSignal
    rw [h.signals.length] at hSignal
    exact number_append_of_lt hSignal more
  refine ⟨?_, hMoves.shutDown.trans h.flag, hMovesCopy.shutDown.trans h.flagAlone, ?_, ?_, hSignals⟩
  · rw [hMovesCopy.options, hMoves.options, h.options]
  · rw [hMoves.registry, hMovesCopy.registry, hName, hCopyName, hMoved]
    cases hLive : movedCopy.phase.isLive with
    | false =>
        rw [get?_registryAfter_of_over _ _ hLive]
        exact get?_registryAfter_of_over _ _ (Cycle.Phase.isLive_renumber.trans hLive)
    | true =>
        have hLiveMoved : (movedCopy.renumber (number (numbers ++ more))).phase.isLive = true :=
          Cycle.Phase.isLive_renumber.trans hLive
        rw [get?_registryAfter_self _ _ hLive, get?_registryAfter_self _ _ hLiveMoved, h.entry]
        cases hGet : alone.registry.get? name with
        | none => rfl
        | some registration =>
            simp only [Option.map_some]
            rw [Registration.renumber_congr fun signal hSignal =>
              (hAgree signal (hAlone.signal_lt hGet hSignal)).symm]
            exact congrArg some (Registration.after_renumber _ _ _)
  · have hFollows : follows name cycle = true := decide_eq_true hName
    have hFollowsMoved : follows name moved = true := by
      rw [follows, hMoves.name]
      exact hFollows
    have hKept : alone.cycles.map (Cycle.renumber (number numbers))
        = alone.cycles.map (Cycle.renumber (number (numbers ++ more))) := by
      refine List.map_congr_left fun c hMem => ?_
      obtain ⟨i, hC⟩ := List.mem_iff_getElem?.mp hMem
      exact Cycle.renumber_congr fun signal hSignal =>
        (hAgree signal (hAlone.created i c signal hC hSignal)).symm
    rw [hMoves.cycles, filter_set_of_pos hCycle hFollows hFollowsMoved, h.cycles, hKept,
      hMovesCopy.cycles, List.map_set, hMoved]

/-- A lock that was had makes a signal in both. -/
theorem numbers_create (h : Numbers name numbers manager alone) (hCoherent : manager.Coherent)
    {version : Int} (hPhase : cycle.phase = .acquired version)
    (hCopyPhase : copy.phase = .acquired version) (hCycle : manager.cycles[id]? = some cycle)
    (hCycleName : cycle.name = name)
    (hMoves : manager.Moves next id cycle moment stimulus moved)
    (hMovesCopy : alone.Moves later place copy moment stimulus movedCopy) :
    Numbers name (numbers ++ [manager.signals.create.1]) next later := by
  have hNext : next.signals = manager.signals.create.2 := by
    rw [hMoves.signals, hPhase]
    rfl
  have hLater : later.signals = alone.signals.create.2 := by
    rw [hMovesCopy.signals, hCopyPhase]
    rfl
  have hFresh : manager.signals.isCancelled manager.signals.create.1 = false :=
    Bool.eq_false_iff.mpr fun hDone => Nat.lt_irrefl _ (Signals.lt_of_isCancelled hDone)
  refine ⟨?_, ?_, ?_, ?_⟩
  · have hKept : numbers.map manager.signals.create.2.isCancelled
        = numbers.map manager.signals.isCancelled :=
      List.map_congr_left fun signal _ => Signals.isCancelled_create _ _
    rw [hLater, hNext, List.map_append, hKept, ← h.signals, List.map_singleton,
      Signals.isCancelled_create, hFresh]
    rfl
  · refine List.nodup_append.mpr ⟨h.distinct, List.pairwise_singleton _ _, ?_⟩
    rintro signal hSignal other hOther rfl
    exact h.create_not_mem (List.mem_singleton.mp hOther ▸ hSignal)
  · intro signal hSignal
    rcases List.mem_append.mp hSignal with hOld | hNew
    · exact made_moves h hMoves signal hOld
    · rw [List.mem_singleton.mp hNew, hNext]
      exact Signals.create_lt _
  · intro i c signal hC hName hSignal hMem
    rcases List.mem_append.mp hMem with hOld | hNew
    · exact apart_moves h hCycle hMoves i c signal hC hName hSignal hOld
    · -- The cycles of other names had their signals before.
      obtain rfl := List.mem_singleton.mp hNew
      have hOld : manager.cycles[i]? = some c := by
        rw [hMoves.cycles] at hC
        by_cases hId : id = i
        · subst hId
          obtain ⟨hBound, -⟩ := List.getElem?_eq_some_iff.mp hCycle
          rw [List.getElem?_set_self hBound] at hC
          obtain rfl := Option.some.inj hC
          exact absurd (hMoves.name.trans hCycleName) hName
        · exact (List.getElem?_set_ne hId).symm.trans hC
      exact Nat.lt_irrefl _ (hCoherent.created i c _ hOld hSignal)

/-- Any other move makes no signal, and cancels one in both or in none. -/
theorem numbers_keep (h : Numbers name numbers manager alone) (hFlag : manager.shutDown = false)
    (hFlagAlone : alone.shutDown = false) (hAlone : alone.Coherent)
    (hCopy : alone.cycles[place]? = some copy)
    (hSame : copy.renumber (number numbers) = cycle)
    (hPhase : ∀ version, copy.phase ≠ .acquired version)
    (hCycle : manager.cycles[id]? = some cycle)
    (hMoves : manager.Moves next id cycle moment stimulus moved)
    (hMovesCopy : alone.Moves later place copy moment stimulus movedCopy) :
    Numbers name numbers next later := by
  refine ⟨?_, h.distinct, made_moves h hMoves, apart_moves h hCycle hMoves⟩
  have hCancel : ∀ signal, copy.phase.signal? = some signal →
      (alone.signals.cancel signal).cancelled
        = numbers.map (manager.signals.cancel (number numbers signal)).isCancelled := by
    intro signal hSignal
    have hPlace : signal < numbers.length :=
      h.length ▸ hAlone.created place copy signal hCopy hSignal
    rw [map_isCancelled_cancel h.distinct hPlace (h.made _ (number_mem hPlace)), ← h.signals]
    rfl
  rw [hMovesCopy.signals, hMoves.signals, ← hSame, Cycle.renumber]
  cases hCopyPhase : copy.phase with
  | acquired version => exact absurd hCopyPhase (hPhase version)
  | marked version signal =>
      simp only [Cycle.Phase.renumber, signalsAfter, hFlag, hFlagAlone, Bool.false_eq_true,
        if_false]
      exact h.signals
  | losing failures signal => exact hCancel signal (by rw [hCopyPhase]; rfl)
  | stopping signal => exact hCancel signal (by rw [hCopyPhase]; rfl)
  | _ => exact h.signals

/-- A move that makes no signal leads to a phase with the signal of the phase before. -/
theorem signal?_of_not_acquired {phase phase' : Cycle.Phase}
    (h : Cycle.Move manager cycle moment stimulus phase phase')
    (hPhase : ∀ version, phase ≠ .acquired version) {signal : SignalId}
    (hSignal : phase'.signal? = some signal) : phase.signal? = some signal := by
  cases h with
  | mark version => exact absurd rfl (hPhase version)
  | look | start | recover | falter | lose | renew | beat | wakeBeating => exact hSignal
  | _ => cases hSignal

/-- The copy of a cycle moves to the copy of where the cycle moves. -/
theorem moved_eq_renumber (h : Mirrors name numbers manager alone) (hAlone : alone.Coherent)
    (hCopy : alone.cycles[place]? = some copy)
    (hCycle : manager.cycles[id]? = some (copy.renumber (number numbers)))
    (hFlags : alone.shutDown = manager.shutDown)
    (hSuits : stimulus.suits moment.now alone.shutDown copy.phase.need = true)
    (hMoves : manager.Moves (manager.step id moment stimulus).1 id
      (copy.renumber (number numbers)) moment stimulus moved)
    (hMovesCopy : alone.Moves (alone.step place moment stimulus).1 place copy moment stimulus
      movedCopy) :
    moved = movedCopy.renumber (number (numbers ++ [manager.signals.create.1])) := by
  have hBound : ∀ signal, copy.phase.signal? = some signal → signal < numbers.length :=
    fun signal hSignal => h.signals.length ▸ hAlone.created place copy signal hCopy hSignal
  have hCreate : number (numbers ++ [manager.signals.create.1]) alone.signals.create.1
      = manager.signals.create.1 := by
    rw [show alone.signals.create.1 = numbers.length from h.signals.length, number_append_last]
  obtain ⟨found, hFound, hFoundCycle⟩ := exists_step_renumber h.options hFlags hCycle hCopy
    hSuits (fun signal hSignal => number_append_of_lt (hBound signal hSignal) _) hCreate
  obtain rfl : movedCopy = found := eq_of_set_eq hCopy (hMovesCopy.cycles.symm.trans hFound)
  exact eq_of_set_eq hCycle (hMoves.cycles.symm.trans hFoundCycle)

/-- **A cycle of the name moves in both.**  Whatever else is registered, the copy of the cycle
moves as the cycle does, and the managers go on to mirror each other. -/
theorem step (h : Mirrors name numbers manager alone) (hCoherent : manager.Coherent)
    (hAlone : alone.Coherent) (hCycle : manager.cycles[id]? = some cycle)
    (hName : cycle.name = name) {now : Nat}
    (hSuits : stimulus.suits now manager.shutDown cycle.phase.need = true) (draw : Nat) :
    ∃ copy more, alone.cycles[rank (follows name) manager.cycles id]? = some copy ∧
      copy.renumber (number numbers) = cycle ∧
      stimulus.suits now alone.shutDown copy.phase.need = true ∧
      Mirrors name (numbers ++ more) (manager.step id ⟨now, draw⟩ stimulus).1
        (alone.step (rank (follows name) manager.cycles id) ⟨now, draw⟩ stimulus).1 := by
  obtain ⟨copy, hCopy, rfl⟩ := h.exists_copy hCycle hName
  have hFlags : alone.shutDown = manager.shutDown := h.flagAlone.trans h.flag.symm
  have hSuitsCopy : stimulus.suits now alone.shutDown copy.phase.need = true := by
    rw [hFlags, ← Cycle.Phase.need_renumber]
    exact hSuits
  have hCopyName : copy.name = name := hName
  obtain ⟨moved, hMoves⟩ :
      ∃ moved, manager.Moves (manager.step id ⟨now, draw⟩ stimulus).1 id
        (copy.renumber (number numbers)) ⟨now, draw⟩ stimulus moved :=
    exists_moves_of_suits hCycle hSuits
  obtain ⟨movedCopy, hMovesCopy⟩ :
      ∃ movedCopy, alone.Moves
        (alone.step (rank (follows name) manager.cycles id) ⟨now, draw⟩ stimulus).1
        (rank (follows name) manager.cycles id) copy ⟨now, draw⟩ stimulus movedCopy :=
    exists_moves_of_suits hCopy hSuitsCopy
  have hBound : ∀ signal, copy.phase.signal? = some signal → signal < numbers.length :=
    fun signal hSignal => h.signals.length ▸ hAlone.created _ copy signal hCopy hSignal
  have hMoved := moved_eq_renumber h hAlone hCopy hCycle hFlags hSuitsCopy hMoves hMovesCopy
  by_cases hPhase : ∃ version, copy.phase = .acquired version
  · obtain ⟨version, hPhase⟩ := hPhase
    refine ⟨copy, [manager.signals.create.1], hCopy, rfl, hSuitsCopy, ?_⟩
    refine h.moves hAlone hCycle hName hMoves hCopyName hMovesCopy hMoved ?_
    have hCyclePhase : (copy.renumber (number numbers)).phase = .acquired version := by
      rw [Cycle.renumber, hPhase]
      rfl
    exact numbers_create h.signals hCoherent hCyclePhase hPhase hCycle hName hMoves hMovesCopy
  · have hOther : ∀ version, copy.phase ≠ .acquired version :=
      fun version hSame => hPhase ⟨version, hSame⟩
    refine ⟨copy, [], hCopy, rfl, hSuitsCopy, ?_⟩
    refine h.moves hAlone hCycle hName hMoves hCopyName hMovesCopy ?_ ?_
    · rw [hMoved]
      refine Cycle.renumber_congr fun signal hSignal => ?_
      have hBefore := signal?_of_not_acquired hMovesCopy.move hOther hSignal
      rw [number_append_of_lt (hBound signal hBefore), List.append_nil]
    · rw [List.append_nil]
      exact numbers_keep h.signals h.flag h.flagAlone hAlone hCopy rfl hOther hCycle hMoves
        hMovesCopy

end

end Mirrors
end Manager

end Leasehold
