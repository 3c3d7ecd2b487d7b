import Leasehold.Proofs.Fleet.Basic

/-!
# What happens in a fleet

Each event of a fleet begins a cycle, moves one cycle, lets time pass, or does nothing that
cycles and rows show.  A move writes on the row of its lock in two cases only: an attempt
gets the lock, or a renewal keeps it.

* `Fleet.Legal`: the invariant of runs; the store holds locks, registries and cycles agree,
  and every operation is one of its own cycle.
* `Fleet.Quiet`: the moves that write nothing.
* `Fleet.Effect`: what a move does to its cycle, to the rows and to the writes.
* `Fleet.Change`: what an event does.  `Legal.change_of_step` shows that there is nothing
  else.
-/

namespace Leasehold

namespace Manager

theorem options_step (manager : Manager) (id : Nat) (moment : Moment) (stimulus : Stimulus) :
    (manager.step id moment stimulus).1.options = manager.options := by
  cases hCycle : manager.cycles[id]? with
  | none => simp only [step, hCycle]
  | some cycle =>
      rcases step_cases stimulus hCycle with hSame | ⟨moved, hMoves⟩
      · rw [hSame]
      · exact hMoves.options

theorem options_run (manager : Manager) (name : String) (interval : IntervalClass) :
    (manager.run name interval).2.1.options = manager.options := by
  unfold run
  split
  · rfl
  · split
    · rfl
    · split <;> rfl

/-- A manager that has just been made for a lock table. -/
def IsNew (manager : Manager) (space : Space) : Prop :=
  manager.options.space = space ∧ ∃ capacity, new manager.options capacity = .ok manager

/-- A manager with nothing registered. -/
def fresh (options : Options) : Manager := ⟨options, ∅, false, .none, .ofCapacity 1, []⟩

theorem isNew_fresh {options : Options} (h : options.validate = .ok ()) :
    (fresh options).IsNew options.space := by
  refine ⟨rfl, 1, ?_⟩
  rw [new, show (fresh options).options = options from rfl, h]
  rfl

end Manager

namespace Fleet

/-- **The moves that write nothing**: a turn, a deadline or a shutdown; an attempt that
reads the clock, looks at the row without getting it, or fails; a renewal that reads the
clock or does not succeed. -/
inductive Quiet (fleet : Fleet) (manager : Manager) (cycle : Cycle) :
    Cycle.Phase → Cycle.Phase → Prop where
  | turned {draw : Nat} {phase phase' : Cycle.Phase}
      (hMove : Cycle.Move manager cycle ⟨fleet.now, draw⟩ .turn phase phase') :
      Quiet fleet manager cycle phase phase'
  | expired {due : Nat} {phase phase' : Cycle.Phase} (hNeed : phase.need = .pause due)
      (hDue : due ≤ fleet.now)
      (hMove : Cycle.Move manager cycle ⟨fleet.now, 0⟩ .deadline phase phase') :
      Quiet fleet manager cycle phase phase'
  | woken {phase phase' : Cycle.Phase}
      (hMove : Cycle.Move manager cycle ⟨fleet.now, 0⟩ .shutdown phase phase') :
      Quiet fleet manager cycle phase phase'
  | timed {attempt : Attempt} {reading : Instant} (hRequest : attempt.request? = some .time)
      (hReading : fleet.reading? = some reading) :
      Quiet fleet manager cycle (.attempting attempt)
        (.attempting { attempt with stage := attempt.nextStage (.time reading) })
  | looked {attempt : Attempt} {call : Call} (hRequest : attempt.request? = some (.call call))
      (hLost : (attempt.stageAfter (fleet.lockRow? cycle.name)).hasWon = false) :
      Quiet fleet manager cycle (.attempting attempt)
        (.attempting { attempt with stage := attempt.stageAfter (fleet.lockRow? cycle.name) })
  | failed {attempt : Attempt} {call : Call} (error : StoreError)
      (hRequest : attempt.request? = some (.call call)) :
      Quiet fleet manager cycle (.attempting attempt)
        (.attempting { attempt with stage := attempt.nextStage (.reply (.error error)) })
  | stamped {beat : Heartbeat} {renewal : Renewal} {signal : SignalId} {reading : Instant}
      (hStage : renewal.stage = .stamping) (hReading : fleet.reading? = some reading) :
      Quiet fleet manager cycle (.renewing beat renewal signal)
        (.renewing beat { renewal with stage := .writing reading } signal)
  | missed {beat : Heartbeat} {renewal : Renewal} {signal : SignalId} {now : Instant}
      {result : Except LockError Bool} (hStage : renewal.stage = .writing now)
      (hFailed : result ≠ .ok true) :
      Quiet fleet manager cycle (.renewing beat renewal signal)
        (.renewing beat { renewal with stage := .finished result } signal)

/-- **What a move does.**  It is quiet, or an attempt gets its lock, or a renewal keeps it. -/
inductive Effect (fleet next : Fleet) (node : Nat) (manager : Manager) (cycle : Cycle)
    (phase' : Cycle.Phase) : Prop where
  | quiet
      (hRows : ∀ name, next.lockRow? name = fleet.lockRow? name)
      (hWrites : next.writes = fleet.writes)
      (hQuiet : fleet.Quiet manager cycle cycle.phase phase')
  | won {attempt : Attempt} {now : Instant} {row' : LockRow}
      (hPhase : cycle.phase = .attempting attempt)
      (hStage : attempt.stage = .inserting now ∧ fleet.lockRow? cycle.name = none ∨
        ∃ read row, attempt.stage = .replacing read now ∧ fleet.lockRow? cycle.name = some row ∧
          row.version = read.version ∧ row.version < row'.version)
      (hRow : next.lockRow? cycle.name = some row')
      (hOwner : row'.owner = manager.options.identity) (hTime : row'.updateTime = now)
      (hOther : ∀ name, name ≠ cycle.name → next.lockRow? name = fleet.lockRow? name)
      (hWrites : next.writes = fleet.writes ++ [⟨node, cycle.name, fleet.now⟩])
      (hNext : phase'
        = .attempting { attempt with stage := .finished (.ok (.acquired row'.version)) })
  | renewed {beat : Heartbeat} {renewal : Renewal} {signal : SignalId} {now : Instant}
      {row : LockRow}
      (hPhase : cycle.phase = .renewing beat renewal signal)
      (hStage : renewal.stage = .writing now)
      (hOld : fleet.lockRow? cycle.name = some row)
      (hRow : next.lockRow? cycle.name = some (row.renewedAt now))
      (hOwner : row.owner = manager.options.identity)
      (hOther : ∀ name, name ≠ cycle.name → next.lockRow? name = fleet.lockRow? name)
      (hWrites : next.writes = fleet.writes ++ [⟨node, cycle.name, fleet.now⟩])
      (hNext : phase' = .renewing beat { renewal with stage := .finished (.ok true) } signal)

/-- **What an event does** to cycles, rows, writes and the time. -/
inductive Change (fleet next : Fleet) (event : Event) : Prop where
  | idle
      (hCycles : ∀ node id, next.cycle? node id = fleet.cycle? node id)
      (hRows : ∀ name, next.lockRow? name = fleet.lockRow? name)
      (hWrites : next.writes = fleet.writes) (hNow : next.now = fleet.now)
  | begun {node id : Nat} {manager : Manager} {name : String} {interval : IntervalClass}
      {cycle : Cycle}
      (hEvent : event = .register node name interval)
      (hManager : fleet.managers[node]? = some manager)
      (hPhase : cycle.phase = .retrying) (hName : cycle.name = name)
      (hInterval : cycle.interval = interval)
      (hCycle : next.cycle? node id = some (manager.options, cycle))
      (hCycles : ∀ other number, other ≠ node ∨ number ≠ id →
        next.cycle? other number = fleet.cycle? other number)
      (hRows : ∀ name, next.lockRow? name = fleet.lockRow? name)
      (hWrites : next.writes = fleet.writes) (hNow : next.now = fleet.now)
  | moved {node id : Nat} {manager : Manager} {cycle moved : Cycle}
      (hManager : fleet.managers[node]? = some manager)
      (hCycle : manager.cycles[id]? = some cycle)
      (hName : moved.name = cycle.name) (hInterval : moved.interval = cycle.interval)
      (hMoved : next.cycle? node id = some (manager.options, moved))
      (hCycles : ∀ other number, other ≠ node ∨ number ≠ id →
        next.cycle? other number = fleet.cycle? other number)
      (hNow : next.now = fleet.now)
      (hEffect : fleet.Effect next node manager cycle moved.phase)
  | passed {nanos : Nat} (hRests : fleet.rests nanos = true)
      (hNext : next = { fleet with now := fleet.now + nanos })

/-- **The invariant of runs.** -/
structure Legal (fleet : Fleet) : Prop where
  locks : fleet.memory.HoldsLocks fleet.space
  spaces : ∀ options ∈ fleet.managers.map Manager.options, options.space = fleet.space
  accepted : ∀ options ∈ fleet.managers.map Manager.options, 0 < options.maxFailures
  coherent : ∀ manager ∈ fleet.managers, manager.Coherent
  past : ∀ write ∈ fleet.writes, write.time ≤ fleet.now
  attempts : ∀ node id options cycle attempt, fleet.cycle? node id = some (options, cycle) →
    cycle.phase = .attempting attempt →
    attempt.claimant = ⟨options.space, options.identity, cycle.name⟩ ∧
      attempt.lease = (options.policies.get cycle.interval).lease
  renewals : ∀ node id options cycle beat renewal signal,
    fleet.cycle? node id = some (options, cycle) →
    cycle.phase = .renewing beat renewal signal →
    renewal.claimant = ⟨options.space, options.identity, cycle.name⟩

/-! ## The fleet after a step of a manager -/

theorem withManager_self {fleet : Fleet} {node : Nat} {manager : Manager}
    (hManager : fleet.managers[node]? = some manager) : fleet.withManager node manager = fleet := by
  obtain ⟨hBound, hGet⟩ := List.getElem?_eq_some_iff.mp hManager
  rw [withManager, ← hGet, List.set_getElem_self]

section

variable {fleet next : Fleet} {node id : Nat} {manager : Manager} {cycle : Cycle}

/-- The cycles of the fleet after one of them has moved. -/
theorem cycle?_of_moves {after : Manager} {moment : Moment} {stimulus : Stimulus} {moved : Cycle}
    (hManager : fleet.managers[node]? = some manager) (hCycle : manager.cycles[id]? = some cycle)
    (hMoves : manager.Moves after id cycle moment stimulus moved) :
    (fleet.withManager node after).cycle? node id = some (manager.options, moved) ∧
      ∀ other number, other ≠ node ∨ number ≠ id →
        (fleet.withManager node after).cycle? other number = fleet.cycle? other number := by
  obtain ⟨hBound, -⟩ := List.getElem?_eq_some_iff.mp hCycle
  constructor
  · rw [cycle?_withManager_self hManager, hMoves.cycles, hMoves.options,
      List.getElem?_set_self hBound]
    rfl
  · intro other number hNe
    by_cases hNode : other = node
    · subst hNode
      have hId : id ≠ number := fun hEq => hNe.elim (fun h => h rfl) fun h => h hEq.symm
      rw [cycle?_withManager_self hManager, hMoves.cycles, hMoves.options,
        List.getElem?_set_ne hId, cycle?, hManager]
      rfl
    · exact cycle?_withManager_of_ne after hNode number

/-- The cycles of the fleet after a manager has got one more. -/
theorem cycle?_of_concat (hManager : fleet.managers[node]? = some manager) (last : Cycle)
    (registry : OrderedMap String Registration) :
    let after : Manager :=
      { manager with registry := registry, cycles := manager.cycles ++ [last] }
    (fleet.withManager node after).cycle? node manager.cycles.length
        = some (manager.options, last) ∧
      ∀ other number, other ≠ node ∨ number ≠ manager.cycles.length →
        (fleet.withManager node after).cycle? other number = fleet.cycle? other number := by
  intro after
  constructor
  · rw [cycle?_withManager_self hManager, List.getElem?_concat_length]
    rfl
  · intro other number hNe
    by_cases hNode : other = node
    · subst hNode
      have hNumber : number ≠ manager.cycles.length := hNe.resolve_left fun h => h rfl
      have hSame : (manager.cycles ++ [last])[number]? = manager.cycles[number]? := by
        rcases Nat.lt_or_ge number manager.cycles.length with hBound | hBound
        · exact List.getElem?_append_left hBound
        · rw [List.getElem?_eq_none hBound, List.getElem?_eq_none]
          rw [List.length_append, List.length_singleton]
          omega
      rw [cycle?_withManager_self hManager, hSame, cycle?, hManager]
      rfl
    · exact cycle?_withManager_of_ne after hNode number

/-- A manager with the same cycles and options shows the same. -/
theorem cycle?_withManager_of_cycles_eq {after : Manager}
    (hManager : fleet.managers[node]? = some manager) (hCycles : after.cycles = manager.cycles)
    (hOptions : after.options = manager.options) (other number : Nat) :
    (fleet.withManager node after).cycle? other number = fleet.cycle? other number := by
  by_cases hNode : other = node
  · subst hNode
    rw [cycle?_withManager_self hManager, hCycles, hOptions, cycle?, hManager]
    rfl
  · exact cycle?_withManager_of_ne after hNode number

/-- A turn, a deadline or a shutdown of a cycle. -/
theorem change_of_stepped {event : Event} {draw : Nat} {stimulus : Stimulus}
    (hManager : fleet.managers[node]? = some manager) (hCycle : manager.cycles[id]? = some cycle)
    (hQuiet : ∀ phase', Cycle.Move manager cycle ⟨fleet.now, draw⟩ stimulus cycle.phase phase' →
      fleet.Quiet manager cycle cycle.phase phase') :
    Change fleet (fleet.stepped node id manager draw stimulus) event := by
  rcases Manager.step_cases stimulus hCycle with hSame | ⟨moved, hMoves⟩
  · rw [stepped, hSame, withManager_self hManager]
    exact .idle (fun _ _ => rfl) (fun _ => rfl) rfl rfl
  · obtain ⟨hMoved, hOther⟩ := cycle?_of_moves hManager hCycle hMoves
    exact .moved hManager hCycle hMoves.name hMoves.interval hMoved hOther rfl
      (.quiet (fun _ => rfl) rfl (hQuiet moved.phase hMoves.move))

/-- A cycle whose operation was answered. -/
theorem change_of_answered {event : Event} {response : Response} {moved : Cycle}
    (hManager : fleet.managers[node]? = some manager) (hCycle : manager.cycles[id]? = some cycle)
    (hManagers : next.managers
      = (fleet.stepped node id manager 0 (.response response)).managers)
    (hNow : next.now = fleet.now)
    (hMoves : manager.Moves (manager.step id ⟨fleet.now, 0⟩ (.response response)).1 id cycle
      ⟨fleet.now, 0⟩ (.response response) moved)
    (hEffect : fleet.Effect next node manager cycle moved.phase) : Change fleet next event := by
  obtain ⟨hMoved, hOther⟩ := cycle?_of_moves hManager hCycle hMoves
  have hView : ∀ other number, next.cycle? other number
      = (fleet.stepped node id manager 0 (.response response)).cycle? other number := by
    intro other number
    rw [cycle?, hManagers, cycle?]
  refine .moved hManager hCycle hMoves.name hMoves.interval ?_ ?_ hNow hEffect
  · rw [hView]
    exact hMoved
  · intro other number hNe
    rw [hView]
    exact hOther other number hNe

/-- The rows of the fleet after the store has served a call on one of them. -/
theorem lockRow?_of_changesRow {name : String} {row? : Option LockRow}
    (hSpace : next.space = fleet.space)
    (h : fleet.memory.ChangesRow next.memory fleet.space name row?) :
    next.lockRow? name = row? ∧
      ∀ other, other ≠ name → next.lockRow? other = fleet.lockRow? other := by
  constructor
  · rw [lockRow?, hSpace, h.lockRow?_self]
  · intro other hOther
    rw [lockRow?, hSpace, h.lockRow?_of_ne hOther, lockRow?]

end

/-! ## Answers of the store -/

namespace Legal

variable {fleet : Fleet} {node id : Nat} {manager : Manager} {cycle : Cycle} {call : Call}

theorem cycle? (hManager : fleet.managers[node]? = some manager)
    (hCycle : manager.cycles[id]? = some cycle) :
    fleet.cycle? node id = some (manager.options, cycle) :=
  cycle?_eq_some_iff.mpr ⟨manager, hManager, rfl, hCycle⟩

/-- The call of an attempt, served. -/
theorem change_of_attempt (hLegal : fleet.Legal) {attempt : Attempt}
    (hManager : fleet.managers[node]? = some manager) (hCycle : manager.cycles[id]? = some cycle)
    (hPhase : cycle.phase = .attempting attempt)
    (hRequest : attempt.request? = some (.call call)) :
    (∀ event, Change fleet (fleet.served node id manager cycle call) event) ∧
      (fleet.served node id manager cycle call).memory.HoldsLocks fleet.space := by
  obtain ⟨hClaimant, -⟩ :=
    hLegal.attempts node id manager.options cycle attempt (cycle? hManager hCycle) hPhase
  have hName : attempt.claimant.name = cycle.name := by rw [hClaimant]
  have hIdentity : attempt.claimant.identity = manager.options.identity := by rw [hClaimant]
  have hSpace : attempt.claimant.space = fleet.space := by
    rw [hClaimant]
    exact hLegal.spaces _ (List.mem_map_of_mem (List.mem_of_getElem? hManager))
  have hRow : fleet.memory.lockRow? fleet.space attempt.claimant.name
      = fleet.lockRow? cycle.name := by rw [hName, lockRow?]
  obtain ⟨reply, memory', hPerform, hChange, hStage, hWrote⟩ :=
    Attempt.perform_eq hSpace hLegal.locks hRow hRequest
  generalize hNext : fleet.served node id manager cycle call = next
  have hMemory : next.memory = memory' := by rw [← hNext, served, hPerform]
  have hWrites : next.writes = if (attempt.stageAfter (fleet.lockRow? cycle.name)).hasWon
      then fleet.writes ++ [⟨node, cycle.name, fleet.now⟩] else fleet.writes := by
    rw [← hNext, ← hWrote, served, hPerform]
  have hSpaceNext : next.space = fleet.space := by rw [← hNext]; rfl
  rw [← hMemory, hName] at hChange
  obtain ⟨hSelf, hOther⟩ := lockRow?_of_changesRow hSpaceNext hChange
  refine ⟨fun event => ?_, hChange.locks⟩
  have hMoves := Manager.moves_of_attempting hCycle hPhase ⟨fleet.now, 0⟩ (.reply reply)
  refine change_of_answered hManager hCycle ?_ ?_ hMoves ?_
  · rw [← hNext, served, hPerform]
  · rw [← hNext]
    rfl
  have hMoved : attempt.resume (.reply reply)
      = { attempt with stage := attempt.stageAfter (fleet.lockRow? cycle.name) } := by
    rw [Attempt.resume, hStage]
  show fleet.Effect next node manager cycle (.attempting (attempt.resume (.reply reply)))
  rw [hMoved]
  cases hWon : (attempt.stageAfter (fleet.lockRow? cycle.name)).hasWon with
  | false =>
      rw [hWon, if_neg Bool.false_ne_true] at hWrites
      rw [Attempt.rowAfter_eq_self hWon] at hSelf
      refine .quiet ?_ hWrites ?_
      · intro name
        by_cases hEq : name = cycle.name
        · rw [hEq, hSelf]
        · exact hOther name hEq
      · rw [hPhase]
        exact .looked hRequest hWon
  | true =>
      rw [hWon, if_pos rfl] at hWrites
      rcases Attempt.hasWon_cases hRequest hWon with
        ⟨now, hInserting, hFree, hEnd⟩ | ⟨read, now, row, hReplacing, hOld, hVersion, hEnd⟩
      · have hFirst : next.lockRow? cycle.name
            = some (.first cycle.name manager.options.identity now) := by
          rw [hSelf, hFree, Attempt.rowAfter, hInserting, hName, hIdentity]
          rfl
        refine .won hPhase (.inl ⟨hInserting, hFree⟩) hFirst rfl rfl hOther hWrites ?_
        rw [hEnd]
        rfl
      · have hTaken : next.lockRow? cycle.name
            = some (row.takenBy attempt.claimant read.version now) := by
          rw [hSelf, hOld]
          simp [Attempt.rowAfter, hReplacing, hVersion]
        refine .won hPhase (.inr ⟨read, row, hReplacing, hOld, hVersion, ?_⟩) hTaken hIdentity rfl
          hOther hWrites ?_
        · show row.version < read.version + 1
          omega
        · rw [hEnd]
          rfl

/-- The call of a renewal, served. -/
theorem change_of_renewal (hLegal : fleet.Legal) {beat : Heartbeat}
    {renewal : Renewal} {signal : SignalId} (hManager : fleet.managers[node]? = some manager)
    (hCycle : manager.cycles[id]? = some cycle)
    (hPhase : cycle.phase = .renewing beat renewal signal)
    (hRequest : renewal.request? = some (.call call)) :
    (∀ event, Change fleet (fleet.served node id manager cycle call) event) ∧
      (fleet.served node id manager cycle call).memory.HoldsLocks fleet.space := by
  have hClaimant := hLegal.renewals node id manager.options cycle beat renewal signal
    (cycle? hManager hCycle) hPhase
  have hName : renewal.claimant.name = cycle.name := by rw [hClaimant]
  have hIdentity : renewal.claimant.identity = manager.options.identity := by rw [hClaimant]
  have hSpace : renewal.claimant.space = fleet.space := by
    rw [hClaimant]
    exact hLegal.spaces _ (List.mem_map_of_mem (List.mem_of_getElem? hManager))
  have hRow : fleet.memory.lockRow? fleet.space renewal.claimant.name
      = fleet.lockRow? cycle.name := by rw [hName, lockRow?]
  obtain ⟨reply, memory', hPerform, hChange, hResume, hWrote⟩ :=
    Renewal.perform_eq hSpace hLegal.locks hRow hRequest
  generalize hNext : fleet.served node id manager cycle call = next
  have hMemory : next.memory = memory' := by rw [← hNext, served, hPerform]
  have hWrites : next.writes = if (renewal.stageAfter (fleet.lockRow? cycle.name)).hasRenewed
      then fleet.writes ++ [⟨node, cycle.name, fleet.now⟩] else fleet.writes := by
    rw [← hNext, ← hWrote, served, hPerform]
  have hSpaceNext : next.space = fleet.space := by rw [← hNext]; rfl
  rw [← hMemory, hName] at hChange
  obtain ⟨hSelf, hOther⟩ := lockRow?_of_changesRow hSpaceNext hChange
  refine ⟨fun event => ?_, hChange.locks⟩
  have hMoves := Manager.moves_of_renewing hCycle hPhase ⟨fleet.now, 0⟩ (.reply reply)
  refine change_of_answered hManager hCycle ?_ ?_ hMoves ?_
  · rw [← hNext, served, hPerform]
  · rw [← hNext]
    rfl
  show fleet.Effect next node manager cycle
    (.renewing beat (renewal.resume (.reply reply)) signal)
  rw [hResume]
  cases hRenewed : (renewal.stageAfter (fleet.lockRow? cycle.name)).hasRenewed with
  | false =>
      rw [hRenewed, if_neg Bool.false_ne_true] at hWrites
      rw [Renewal.rowAfter_eq_self hRenewed] at hSelf
      refine .quiet ?_ hWrites ?_
      · intro name
        by_cases hEq : name = cycle.name
        · rw [hEq, hSelf]
        · exact hOther name hEq
      · obtain ⟨now, hStage⟩ := Renewal.stage_of_request?_call hRequest
        rw [hPhase, Renewal.stageAfter, hStage]
        refine .missed hStage ?_
        intro hEq
        rw [Renewal.stageAfter, hStage, hEq] at hRenewed
        cases hRenewed
  | true =>
      rw [hRenewed, if_pos rfl] at hWrites
      obtain ⟨now, row, hStage, hOld, hOwner, hEnd, hAfter⟩ :=
        Renewal.hasRenewed_cases hRequest hRenewed
      rw [hAfter] at hSelf
      refine .renewed hPhase hStage hOld hSelf (hOwner.trans hIdentity) hOther hWrites ?_
      rw [hEnd]

/-- A name is registered with a new cycle, or nothing happens. -/
theorem change_of_register (hManager : fleet.managers[node]? = some manager) (name : String)
    (interval : IntervalClass) :
    Change fleet (fleet.withManager node (manager.run name interval).2.1)
      (.register node name interval) := by
  have hIdle : Change fleet (fleet.withManager node manager) (.register node name interval) := by
    rw [withManager_self hManager]
    exact .idle (fun _ _ => rfl) (fun _ => rfl) rfl rfl
  unfold Manager.run
  split
  · exact hIdle
  · split
    · exact hIdle
    · split
      · exact hIdle
      · obtain ⟨hNew, hOther⟩ := cycle?_of_concat hManager
          (Cycle.start name interval manager.options.retry (manager.policy interval).lease)
          (manager.registry.insert name ⟨interval, .acquiring, none⟩)
        exact .begun rfl hManager rfl rfl rfl hNew hOther (fun _ => rfl) rfl rfl

/-- **Whatever an event does is a change.** -/
theorem change_of_step (hLegal : fleet.Legal) {next : Fleet} {event : Event}
    (hStep : Step fleet event next) : Change fleet next event := by
  cases hStep with
  | prepare hManager =>
      refine .idle (fun _ _ => rfl) (fun name => ?_) rfl rfl
      exact Memory.lockRow?_eq_of_rows_eq (Memory.rows_ensure _ _ _) name
  | register name interval hManager => exact change_of_register hManager name interval
  | raiseFlag hManager =>
      exact .idle (cycle?_withManager_of_cycles_eq hManager rfl rfl) (fun _ => rfl) rfl rfl
  | cancelRegistered hManager =>
      exact .idle (cycle?_withManager_of_cycles_eq hManager rfl rfl) (fun _ => rfl) rfl rfl
  | turn draw hManager hCycle =>
      exact change_of_stepped hManager hCycle fun phase' hMove => .turned hMove
  | expire hManager hCycle hNeed hDue =>
      exact change_of_stepped hManager hCycle fun phase' hMove => .expired hNeed hDue hMove
  | wake hManager hCycle =>
      exact change_of_stepped hManager hCycle fun phase' hMove => .woken hMove
  | @read node id manager cycle reading hManager hCycle hNeed hReading =>
      rcases Cycle.Phase.need_eq_time hNeed with
        ⟨attempt, hPhase, hRequest⟩ | ⟨beat, renewal, signal, hPhase, hRequest⟩
      · refine change_of_answered hManager hCycle rfl rfl
          (Manager.moves_of_attempting hCycle hPhase _ _) (.quiet (fun _ => rfl) rfl ?_)
        rw [hPhase]
        exact .timed hRequest hReading
      · refine change_of_answered hManager hCycle rfl rfl
          (Manager.moves_of_renewing hCycle hPhase _ _) (.quiet (fun _ => rfl) rfl ?_)
        have hStage := Renewal.stage_of_request?_time hRequest
        have hMoved : renewal.resume (.time reading)
            = { renewal with stage := .writing reading } := by
          simp only [Renewal.resume, hStage]
        rw [hPhase]
        show fleet.Quiet manager cycle _ (.renewing beat (renewal.resume (.time reading)) signal)
        rw [hMoved]
        exact .stamped hStage hReading
  | @serve node id manager cycle call hManager hCycle hNeed =>
      rcases Cycle.Phase.need_eq_answer hNeed with
        ⟨attempt, hPhase, hRequest⟩ | ⟨beat, renewal, signal, hPhase, hRequest⟩
      · exact (hLegal.change_of_attempt hManager hCycle hPhase hRequest).1 _
      · exact (hLegal.change_of_renewal hManager hCycle hPhase hRequest).1 _
  | @fail node id manager cycle call error hManager hCycle hNeed =>
      rcases Cycle.Phase.need_eq_answer hNeed with
        ⟨attempt, hPhase, hRequest⟩ | ⟨beat, renewal, signal, hPhase, hRequest⟩
      · refine change_of_answered hManager hCycle rfl rfl
          (Manager.moves_of_attempting hCycle hPhase _ _) (.quiet (fun _ => rfl) rfl ?_)
        rw [hPhase]
        exact .failed error hRequest
      · refine change_of_answered hManager hCycle rfl rfl
          (Manager.moves_of_renewing hCycle hPhase _ _) (.quiet (fun _ => rfl) rfl ?_)
        obtain ⟨now, hStage⟩ := Renewal.stage_of_request?_call hRequest
        have hMoved : renewal.resume (.reply (.error error))
            = { renewal with stage := .finished (.error (.store error)) } := by
          simp only [Renewal.resume, hStage, Renewal.afterWrite]
        rw [hPhase]
        show fleet.Quiet manager cycle _
          (.renewing beat (renewal.resume (.reply (.error error))) signal)
        rw [hMoved]
        exact .missed hStage (by simp)
  | pass nanos hRests => exact .passed hRests rfl

end Legal

/-! ## The invariant of runs -/

section

variable {fleet next : Fleet} {event : Event}

/-- The managers after an event. -/
theorem Step.managers_cases (hStep : Step fleet event next) :
    next.managers = fleet.managers ∨
      ∃ node manager after, fleet.managers[node]? = some manager ∧
        next.managers = fleet.managers.set node after ∧ after.options = manager.options ∧
        (manager.Coherent → after.Coherent) := by
  cases hStep with
  | prepare hManager => exact .inl rfl
  | pass nanos hRests => exact .inl rfl
  | @register node manager name interval hManager =>
      exact .inr ⟨node, manager, _, hManager, rfl, manager.options_run name interval,
        fun h => h.run name interval⟩
  | @raiseFlag node manager hManager =>
      exact .inr ⟨node, manager, _, hManager, rfl, rfl, fun h => h.raiseFlag⟩
  | @cancelRegistered node manager hManager =>
      exact .inr ⟨node, manager, _, hManager, rfl, rfl, fun h => h.cancelRegistered⟩
  | @turn node id manager _ _ hManager =>
      exact .inr ⟨node, manager, _, hManager, rfl, manager.options_step id _ _,
        fun h => h.step id _ _⟩
  | @read node id manager _ _ hManager =>
      exact .inr ⟨node, manager, _, hManager, rfl, manager.options_step id _ _,
        fun h => h.step id _ _⟩
  | @serve node id manager _ _ hManager =>
      exact .inr ⟨node, manager, _, hManager, rfl, manager.options_step id _ _,
        fun h => h.step id _ _⟩
  | @fail node id manager _ _ _ hManager =>
      exact .inr ⟨node, manager, _, hManager, rfl, manager.options_step id _ _,
        fun h => h.step id _ _⟩
  | @expire node id manager _ _ hManager =>
      exact .inr ⟨node, manager, _, hManager, rfl, manager.options_step id _ _,
        fun h => h.step id _ _⟩
  | @wake node id manager _ hManager =>
      exact .inr ⟨node, manager, _, hManager, rfl, manager.options_step id _ _,
        fun h => h.step id _ _⟩

/-- Options stay as they are. -/
theorem Step.options (hStep : Step fleet event next) :
    next.managers.map Manager.options = fleet.managers.map Manager.options := by
  rcases hStep.managers_cases with hSame | ⟨node, manager, after, hManager, hNext, hOptions, -⟩
  · rw [hSame]
  · obtain ⟨hBound, hGet⟩ := List.getElem?_eq_some_iff.mp hManager
    rw [hNext, List.map_set, hOptions, ← hGet, ← List.getElem_map Manager.options,
      List.set_getElem_self]
    rwa [List.length_map]

/-- The lock table and the first reading of the clock stay as they are. -/
theorem Step.frame (hStep : Step fleet event next) :
    next.base = fleet.base ∧ next.space = fleet.space := by
  cases hStep <;> exact ⟨rfl, rfl⟩

/-- An attempt of a cycle after a quiet move has its claimant and its lease from before, or
has just begun. -/
theorem Quiet.attempt_cases {manager : Manager} {cycle : Cycle} {phase : Cycle.Phase}
    {attempt : Attempt} (h : fleet.Quiet manager cycle phase (.attempting attempt)) :
    (phase = .retrying ∧ attempt = .start (manager.claimant cycle.name)
      (manager.policy cycle.interval).lease) ∨
    ∃ earlier, phase = .attempting earlier ∧ attempt.claimant = earlier.claimant ∧
      attempt.lease = earlier.lease := by
  cases h with
  | turned hMove => cases hMove with
    | attempt hFlag => exact .inl ⟨rfl, rfl⟩
  | expired hNeed hDue hMove => cases hMove
  | woken hMove => cases hMove
  | timed hRequest hReading => exact .inr ⟨_, rfl, rfl, rfl⟩
  | looked hRequest hLost => exact .inr ⟨_, rfl, rfl, rfl⟩
  | failed error hRequest => exact .inr ⟨_, rfl, rfl, rfl⟩

/-- A renewal of a cycle after a quiet move has its claimant from before, or has just
begun. -/
theorem Quiet.renewal_cases {manager : Manager} {cycle : Cycle} {phase : Cycle.Phase}
    {beat : Heartbeat} {renewal : Renewal} {signal : SignalId}
    (h : fleet.Quiet manager cycle phase (.renewing beat renewal signal)) :
    renewal = .start (manager.claimant cycle.name) ∨
    ∃ earlier, phase = .renewing beat earlier signal ∧ renewal.claimant = earlier.claimant := by
  cases h with
  | turned hMove => cases hMove
  | expired hNeed hDue hMove => cases hMove with
    | beat beat signal => exact .inl rfl
  | woken hMove => cases hMove
  | stamped hStage hReading => exact .inr ⟨_, rfl, rfl⟩
  | missed hStage hFailed => exact .inr ⟨_, rfl, rfl⟩

/-- A cycle that is there after an event was there before, or is the one that has begun or
has moved. -/
theorem cycle?_cases {node id : Nat} {options : Manager.Options} {moved cycle : Cycle}
    {other number : Nat} (hMoved : next.cycle? node id = some (options, moved))
    (hCycles : ∀ other number, other ≠ node ∨ number ≠ id →
      next.cycle? other number = fleet.cycle? other number)
    {owner : Manager.Options} (h : next.cycle? other number = some (owner, cycle)) :
    (other = node ∧ number = id ∧ owner = options ∧ cycle = moved) ∨
      (other ≠ node ∨ number ≠ id) ∧ fleet.cycle? other number = some (owner, cycle) := by
  by_cases hNe : other ≠ node ∨ number ≠ id
  · exact .inr ⟨hNe, (hCycles other number hNe).symm.trans h⟩
  · obtain ⟨hNode, hId⟩ := not_or.mp hNe
    obtain rfl := not_not.mp hNode
    obtain rfl := not_not.mp hId
    obtain ⟨hOptions, hCycle⟩ := Prod.mk.inj (Option.some.inj (hMoved.symm.trans h))
    exact .inl ⟨rfl, rfl, hOptions.symm, hCycle.symm⟩

/-- **Where a cycle comes from**: it was there, or it was registered, or it has moved. -/
theorem Change.cycle_cases (hChange : Change fleet next event) {node id : Nat}
    {options : Manager.Options} {cycle : Cycle}
    (h : next.cycle? node id = some (options, cycle)) :
    fleet.cycle? node id = some (options, cycle) ∨
      cycle.phase = .retrying ∧ event = .register node cycle.name cycle.interval ∨
      ∃ manager old, manager.options = options ∧ fleet.cycle? node id = some (options, old) ∧
        cycle.name = old.name ∧ cycle.interval = old.interval ∧
        fleet.Effect next node manager old cycle.phase := by
  cases hChange with
  | idle hCycles hRows hWrites hNow => exact .inl ((hCycles node id).symm.trans h)
  | passed hRests hNext =>
      subst hNext
      exact .inl h
  | begun hEvent hManager hRetrying hName hInterval hNew hCycles hRows hWrites hNow =>
      rcases cycle?_cases hNew hCycles h with ⟨rfl, -, -, rfl⟩ | ⟨-, hOld⟩
      · rw [hName, hInterval]
        exact .inr (.inl ⟨hRetrying, hEvent⟩)
      · exact .inl hOld
  | moved hManager hOld hName hInterval hMoved hCycles hNow hEffect =>
      rcases cycle?_cases hMoved hCycles h with ⟨rfl, rfl, rfl, rfl⟩ | ⟨-, hSame⟩
      · exact .inr (.inr ⟨_, _, rfl, Legal.cycle? hManager hOld, hName, hInterval, hEffect⟩)
      · exact .inl hSame

/-- Time passes only while every cycle rests. -/
theorem Change.now_cases (hChange : Change fleet next event) :
    next.now = fleet.now ∨ ∃ nanos, fleet.rests nanos = true ∧
      ∀ node id, next.cycle? node id = fleet.cycle? node id := by
  cases hChange with
  | idle hCycles hRows hWrites hNow => exact .inl hNow
  | begun hEvent hManager hRetrying hName hInterval hNew hCycles hRows hWrites hNow =>
      exact .inl hNow
  | moved hManager hOld hName hInterval hMoved hCycles hNow hEffect => exact .inl hNow
  | passed hRests hNext =>
      subst hNext
      exact .inr ⟨_, hRests, fun _ _ => rfl⟩

/-- New managers have no cycles. -/
theorem cycle?_around {database table : String} {base : Instant} {memory : Memory}
    {managers : List Manager} {space : Space} (hNew : ∀ manager ∈ managers, manager.IsNew space)
    (node id : Nat) : (around database table base memory managers).cycle? node id = none := by
  rw [Option.eq_none_iff_forall_ne_some]
  rintro ⟨options, cycle⟩ hCycle
  obtain ⟨manager, hManager, -, hFound⟩ := cycle?_eq_some_iff.mp hCycle
  obtain ⟨-, capacity, hMade⟩ := hNew manager (List.mem_of_getElem? hManager)
  have hEmpty := Manager.cycles_of_new hMade
  rw [hEmpty] at hFound
  cases hFound

namespace Legal

/-- New managers around a lock table. -/
theorem around {database table : String} {base : Instant} {memory : Memory}
    {managers : List Manager} (hLocks : memory.HoldsLocks (lockSpace database table))
    (hNew : ∀ manager ∈ managers, manager.IsNew (lockSpace database table)) :
    (Fleet.around database table base memory managers).Legal := by
  refine ⟨hLocks, ?_, ?_, ?_, ?_, ?_, ?_⟩
  · intro options hOptions
    obtain ⟨manager, hManager, rfl⟩ := List.mem_map.mp hOptions
    exact (hNew manager hManager).1
  · intro options hOptions
    obtain ⟨manager, hManager, rfl⟩ := List.mem_map.mp hOptions
    obtain ⟨-, capacity, hMade⟩ := hNew manager hManager
    exact (Manager.Options.of_validate (Manager.eq_of_new hMade).1).1
  · intro manager hManager
    obtain ⟨-, capacity, hMade⟩ := hNew manager hManager
    exact .of_new hMade
  · intro write hWrite
    cases hWrite
  · intro node id options cycle attempt hCycle
    rw [cycle?_around hNew] at hCycle
    cases hCycle
  · intro node id options cycle beat renewal signal hCycle
    rw [cycle?_around hNew] at hCycle
    cases hCycle

/-- The last write of a node is not in the future. -/
theorem lastWrite?_le (hLegal : fleet.Legal) {node wrote : Nat} {name : String}
    (h : fleet.lastWrite? node name = some wrote) : wrote ≤ fleet.now := by
  obtain ⟨write, hWrite, rfl⟩ := List.mem_map.mp (List.mem_of_getLast? h)
  exact hLegal.past write (List.mem_filter.mp hWrite).1

theorem step_attempts (hLegal : fleet.Legal) (hChange : Change fleet next event) :
    ∀ node id options cycle attempt, next.cycle? node id = some (options, cycle) →
      cycle.phase = .attempting attempt →
      attempt.claimant = ⟨options.space, options.identity, cycle.name⟩ ∧
        attempt.lease = (options.policies.get cycle.interval).lease := by
  intro node id options cycle attempt hCycle hPhase
  rcases hChange.cycle_cases hCycle with
    hSame | ⟨hRetrying, -⟩ | ⟨manager, old, rfl, hOld, hName, hInterval, hEffect⟩
  · exact hLegal.attempts node id options cycle attempt hSame hPhase
  · rw [hRetrying] at hPhase
    cases hPhase
  · have hBefore : ∀ earlier : Attempt, old.phase = .attempting earlier →
        attempt.claimant = earlier.claimant → attempt.lease = earlier.lease →
        attempt.claimant = ⟨manager.options.space, manager.options.identity, cycle.name⟩ ∧
          attempt.lease = (manager.options.policies.get cycle.interval).lease := by
      intro earlier hEarlier hClaimant hLease
      rw [hClaimant, hLease, hName, hInterval]
      exact hLegal.attempts node id manager.options old earlier hOld hEarlier
    rw [hPhase] at hEffect
    cases hEffect with
    | quiet hRows hWrites hQuiet =>
        rcases hQuiet.attempt_cases with ⟨-, rfl⟩ | ⟨earlier, hEarlier, hClaimant, hLease⟩
        · rw [hName, hInterval]
          exact ⟨rfl, rfl⟩
        · exact hBefore earlier hEarlier hClaimant hLease
    | won hAttempt hStage hRow hOwner hTime hOther hWrites hNext =>
        obtain rfl := Cycle.Phase.attempting.inj hNext
        exact hBefore _ hAttempt rfl rfl
    | renewed hRenewing hStage hOldRow hRow hOwner hOther hWrites hNext => cases hNext

theorem step_renewals (hLegal : fleet.Legal) (hChange : Change fleet next event) :
    ∀ node id options cycle beat renewal signal, next.cycle? node id = some (options, cycle) →
      cycle.phase = .renewing beat renewal signal →
      renewal.claimant = ⟨options.space, options.identity, cycle.name⟩ := by
  intro node id options cycle beat renewal signal hCycle hPhase
  rcases hChange.cycle_cases hCycle with
    hSame | ⟨hRetrying, -⟩ | ⟨manager, old, rfl, hOld, hName, hInterval, hEffect⟩
  · exact hLegal.renewals node id options cycle beat renewal signal hSame hPhase
  · rw [hRetrying] at hPhase
    cases hPhase
  · rw [hPhase] at hEffect
    rw [hName]
    cases hEffect with
    | quiet hRows hWrites hQuiet =>
        rcases hQuiet.renewal_cases with rfl | ⟨earlier, hEarlier, hClaimant⟩
        · rfl
        · rw [hClaimant]
          exact hLegal.renewals node id _ old _ earlier signal hOld hEarlier
    | won hAttempt hStage hRow hOwner hTime hOther hWrites hNext => cases hNext
    | renewed hRenewing hStage hOldRow hRow hOwner hOther hWrites hNext =>
        obtain ⟨rfl, rfl, rfl⟩ := Cycle.Phase.renewing.inj hNext
        have hBefore := hLegal.renewals node id _ old _ _ _ hOld hRenewing
        exact hBefore

theorem step_past (hLegal : fleet.Legal) (hChange : Change fleet next event) :
    ∀ write ∈ next.writes, write.time ≤ next.now := by
  have hAppend : ∀ write : Write, write.time = fleet.now →
      ∀ other ∈ fleet.writes ++ [write], other.time ≤ fleet.now := by
    intro write hTime other hOther
    rcases List.mem_append.mp hOther with hOld | hNew
    · exact hLegal.past other hOld
    · rw [List.mem_singleton.mp hNew]
      exact Nat.le_of_eq hTime
  cases hChange with
  | idle hCycles hRows hWrites hNow =>
      rw [hWrites, hNow]
      exact hLegal.past
  | begun hEvent hManager hRetrying hName hInterval hNew hCycles hRows hWrites hNow =>
      rw [hWrites, hNow]
      exact hLegal.past
  | moved hManager hCycle hName hInterval hMoved hCycles hNow hEffect =>
      rw [hNow]
      cases hEffect with
      | quiet hRows hWrites hQuiet =>
          rw [hWrites]
          exact hLegal.past
      | won hAttempt hStage hRow hOwner hTime hOther hWrites hNext =>
          rw [hWrites]
          exact hAppend _ rfl
      | renewed hRenewing hStage hOldRow hRow hOwner hOther hWrites hNext =>
          rw [hWrites]
          exact hAppend _ rfl
  | @passed nanos hRests hNext =>
      subst hNext
      intro write hWrite
      have hBefore := hLegal.past write hWrite
      show write.time ≤ fleet.now + nanos
      omega

theorem step_locks (hLegal : fleet.Legal) (hStep : Step fleet event next) :
    next.memory.HoldsLocks fleet.space := by
  cases hStep with
  | prepare hManager => exact hLegal.locks.of_rows_eq (Memory.rows_ensure _ _ _)
  | @serve node id manager cycle call hManager hCycle hNeed =>
      rcases Cycle.Phase.need_eq_answer hNeed with
        ⟨attempt, hPhase, hRequest⟩ | ⟨beat, renewal, signal, hPhase, hRequest⟩
      · exact (hLegal.change_of_attempt hManager hCycle hPhase hRequest).2
      · exact (hLegal.change_of_renewal hManager hCycle hPhase hRequest).2
  | _ => exact hLegal.locks

/-- Every event keeps the invariant. -/
theorem step (hLegal : fleet.Legal) (hStep : Step fleet event next) : next.Legal := by
  have hChange := hLegal.change_of_step hStep
  obtain ⟨-, hSpace⟩ := hStep.frame
  refine ⟨?_, ?_, ?_, ?_, hLegal.step_past hChange, hLegal.step_attempts hChange,
    hLegal.step_renewals hChange⟩
  · rw [hSpace]
    exact hLegal.step_locks hStep
  · rw [hStep.options, hSpace]
    exact hLegal.spaces
  · rw [hStep.options]
    exact hLegal.accepted
  · intro manager hManager
    rcases hStep.managers_cases with hSame | ⟨node, old, after, hOld, hNext, -, hCoherent⟩
    · rw [hSame] at hManager
      exact hLegal.coherent manager hManager
    · rw [hNext] at hManager
      rcases List.mem_or_eq_of_mem_set hManager with hBefore | rfl
      · exact hLegal.coherent manager hBefore
      · exact hCoherent (hLegal.coherent old (List.mem_of_getElem? hOld))

/-- Every run keeps the invariant. -/
theorem run {start : Fleet} {events : List Event} (hLegal : start.Legal)
    (hRun : start.run? events = some fleet) : fleet.Legal :=
  runs?_induction (motive := fun _ fleet => fleet.Legal) hLegal
    (fun _ _ _ _ _ hBefore hStep => hBefore.step (step_of_step? hStep)) hRun

end Legal

/-- **Every cycle was registered** by an event of the run, and its node has the options that
it began with. -/
theorem registered_of_run {start : Fleet} {events : List Event} (hLegal : start.Legal)
    (hNone : ∀ node id, start.cycle? node id = none) (hRun : start.run? events = some fleet)
    {node id : Nat} {options : Manager.Options} {cycle : Cycle}
    (hCycle : fleet.cycle? node id = some (options, cycle)) :
    .register node cycle.name cycle.interval ∈ events ∧
      ∃ manager, start.managers[node]? = some manager ∧ manager.options = options := by
  have hAll : fleet.Legal ∧
      fleet.managers.map Manager.options = start.managers.map Manager.options ∧
      ∀ node id options cycle, fleet.cycle? node id = some (options, cycle) →
        .register node cycle.name cycle.interval ∈ events := by
    refine runs?_induction (motive := fun events fleet => fleet.Legal ∧
      fleet.managers.map Manager.options = start.managers.map Manager.options ∧
      ∀ node id options cycle, fleet.cycle? node id = some (options, cycle) →
        .register node cycle.name cycle.interval ∈ events) ⟨hLegal, rfl, ?_⟩ ?_ hRun
    · intro node id options cycle hCycle
      rw [hNone] at hCycle
      cases hCycle
    · rintro done before event next - ⟨hBefore, hOptions, hDone⟩ hNext
      have hStep := step_of_step? hNext
      refine ⟨hBefore.step hStep, hStep.options.trans hOptions, ?_⟩
      intro other number owner cycle hCycle
      rcases (hBefore.change_of_step hStep).cycle_cases hCycle with
        hSame | ⟨-, hEvent⟩ | ⟨manager, old, rfl, hOld, hName, hInterval, -⟩
      · exact List.mem_append_left _ (hDone other number owner cycle hSame)
      · rw [← hEvent]
        exact List.mem_append_right _ (List.mem_singleton_self event)
      · rw [hName, hInterval]
        exact List.mem_append_left _ (hDone other number _ old hOld)
  obtain ⟨-, hOptions, hRegistered⟩ := hAll
  refine ⟨hRegistered node id options cycle hCycle, ?_⟩
  obtain ⟨manager, hManager, rfl, -⟩ := cycle?_eq_some_iff.mp hCycle
  have hStart : (start.managers.map Manager.options)[node]? = some manager.options := by
    rw [← hOptions, List.getElem?_map, hManager]
    rfl
  rw [List.getElem?_map] at hStart
  exact Option.map_eq_some_iff.mp hStart

end

end Fleet
end Leasehold
