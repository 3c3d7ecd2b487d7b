import Leasehold.Proofs.Fleet.Change

/-!
# The pace of heartbeats

A cycle that has its lock wrote the row some time ago, and its heartbeats say how long ago
that can be: each one that failed is a period that has passed since the write, and the job
is cancelled before there are too many of them.

* `Cycle.Phase.grips`: the cycle has its lock, and its job may run.
* `Cycle.Phase.Pace`: how a cycle that has its lock stands to the time of its last write.
* `Fleet.Paced`: every cycle that has its lock keeps the pace; `Paced.run` shows it for
  every run.
* `Fleet.Paced.of_isLive`: a live hold was written at most so many periods ago as
  heartbeats may fail.
-/

namespace Leasehold

namespace Cycle

/-- Whether a cycle has its lock and its job may run. -/
def Phase.grips : Phase → Bool
  | .attempting attempt => attempt.stage.hasWon
  | .acquired _ | .marked _ _ | .starting _ _ | .beating _ _ | .renewing _ _ _ | .losing _ _
  | .stopping _ => true
  | _ => false

/-- **The pace of a cycle** that has its lock, given the time of its last write.  Up to the
start of the job no time passes.  Then the next heartbeat is due one period after the write
and one more for each heartbeat that failed. -/
def Phase.Pace (period maxFailures now wrote : Nat) : Phase → Prop
  | .attempting _ | .acquired _ | .marked _ _ | .starting _ _ => wrote = now
  | .beating beat _ =>
    beat.failures < maxFailures ∧ beat.due = wrote + (beat.failures + 1) * period ∧
      now ≤ beat.due
  | .renewing beat renewal _ =>
    beat.due = now + period ∧
      (renewal.stage.hasRenewed = true ∧ wrote = now ∨
        renewal.stage.hasRenewed = false ∧ beat.failures < maxFailures ∧
          now = wrote + (beat.failures + 1) * period)
  | .losing failures _ => failures = maxFailures ∧ now = wrote + maxFailures * period
  | .stopping _ => now ≤ wrote + maxFailures * period
  | _ => True

variable {phase : Phase} {period maxFailures now wrote : Nat}

theorem Phase.isLive_of_grips (h : phase.grips = true) : phase.isLive = true := by
  cases phase with
  | «over» => cases h
  | _ => rfl

theorem Phase.grips_of_signal? {signal : SignalId} (h : phase.signal? = some signal) :
    phase.grips = true := by
  cases phase with
  | marked version other => rfl
  | starting version other => rfl
  | beating beat other => rfl
  | renewing beat renewal other => rfl
  | losing failures other => rfl
  | stopping other => rfl
  | _ => cases h

/-- A cycle that has its lock still has something to do. -/
theorem Phase.need_ne_finished_of_grips (h : phase.grips = true) : phase.need ≠ .finished :=
  Phase.need_ne_finished_of_isLive (Phase.isLive_of_grips h)

/-- **No write is too old.**  A cycle that has its lock wrote the row at most as many periods
ago as heartbeats may fail. -/
theorem Phase.Pace.now_le (h : phase.Pace period maxFailures now wrote)
    (hGrips : phase.grips = true) : now ≤ wrote + maxFailures * period := by
  have hPeriods : ∀ failures, failures < maxFailures →
      wrote + (failures + 1) * period ≤ wrote + maxFailures * period := by
    intro failures hFailures
    have hMul : (failures + 1) * period ≤ maxFailures * period :=
      Nat.mul_le_mul_right period hFailures
    omega
  cases phase with
  | attempting attempt =>
      rw [show wrote = now from h]
      exact Nat.le_add_right _ _
  | acquired version =>
      rw [show wrote = now from h]
      exact Nat.le_add_right _ _
  | marked version signal =>
      rw [show wrote = now from h]
      exact Nat.le_add_right _ _
  | starting version signal =>
      rw [show wrote = now from h]
      exact Nat.le_add_right _ _
  | beating beat signal =>
      obtain ⟨hFailures, hDue, hNow⟩ := h
      have hBound := hPeriods beat.failures hFailures
      omega
  | renewing beat renewal signal =>
      rcases h.2 with ⟨-, hWrote⟩ | ⟨-, hFailures, hNow⟩
      · omega
      · have hBound := hPeriods beat.failures hFailures
        omega
  | losing failures signal => exact Nat.le_of_eq h.2
  | stopping signal => exact h
  | _ => cases hGrips

/-- A cycle that has its lock rests only for its next heartbeat. -/
theorem Phase.Pace.pass {due later : Nat} (h : phase.Pace period maxFailures now wrote)
    (hGrips : phase.grips = true) (hNeed : phase.need = .pause due) (hLater : later ≤ due) :
    phase.Pace period maxFailures later wrote := by
  cases phase with
  | beating beat signal =>
      obtain ⟨hFailures, hDue, -⟩ := h
      have hHere : beat.due = due := Need.pause.inj hNeed
      exact ⟨hFailures, hDue, hHere ▸ hLater⟩
  | attempting attempt =>
      cases hStage : attempt.stage with
      | finished result => simp [need, Attempt.request?, hStage, Need.ofRequest] at hNeed
      | _ => simp [grips, hStage, Attempt.Stage.hasWon] at hGrips
  | renewing beat renewal signal =>
      cases hStage : renewal.stage <;>
        simp [need, Renewal.request?, hStage, Need.ofRequest] at hNeed
  | waiting time => cases hGrips
  | cooling time => cases hGrips
  | _ => cases hNeed

end Cycle

/-! ## Quiet moves -/

/-- An attempt whose result is a lock has got it. -/
theorem Attempt.hasWon_of_result? {attempt : Attempt} {version : Int}
    (h : attempt.result? = some (.ok (.acquired version))) : attempt.stage.hasWon = true := by
  cases hStage : attempt.stage with
  | finished result =>
      simp only [result?, hStage, Option.some.injEq] at h
      rw [h]
      rfl
  | _ => simp [result?, hStage] at h

/-- The clock gives no lock. -/
theorem Attempt.hasWon_time {attempt : Attempt} (reading : Instant)
    (h : attempt.request? = some .time) :
    (attempt.nextStage (.time reading)).hasWon = false := by
  cases hStage : attempt.stage with
  | stamping => simp [nextStage, hStage, Stage.hasWon]
  | judging row =>
      simp only [nextStage, hStage, afterJudgement]
      split
      · exact hasWon_claim row
      · rfl
  | claiming row => simp [nextStage, hStage, Stage.hasWon]
  | _ => simp [request?, hStage] at h

/-- A call that fails gives no lock. -/
theorem Attempt.hasWon_error {attempt : Attempt} {call : Call} (error : StoreError)
    (h : attempt.request? = some (.call call)) :
    (attempt.nextStage (.reply (.error error))).hasWon = false := by
  cases hStage : attempt.stage with
  | counting => simp [nextStage, hStage, afterCount, Stage.hasWon]
  | inserting now => simp [nextStage, hStage, afterInsert, Stage.hasWon]
  | searching => simp [nextStage, hStage, afterSearch, Stage.hasWon]
  | replacing row now => simp [nextStage, hStage, afterReplace, Stage.hasWon]
  | _ => simp [request?, hStage] at h

/-- The end of a renewal says whether it has renewed the lock. -/
theorem Renewal.hasRenewed_of_result? {renewal : Renewal} {result : Except LockError Bool}
    (h : renewal.result? = some result) :
    renewal.stage.hasRenewed = true ↔ result = .ok true := by
  cases hStage : renewal.stage with
  | finished other =>
      simp only [result?, hStage, Option.some.injEq] at h
      subst h
      rcases other with error | renewed
      · simp [Stage.hasRenewed]
      · simp [Stage.hasRenewed]
  | _ => simp [result?, hStage] at h

/-! ## The heartbeats of a cycle -/

namespace Cycle.Phase.Pace

variable {period : Span} {maxFailures now wrote : Nat} {beat : Heartbeat} {renewal : Renewal}
  {signal : SignalId} {result : Except LockError Bool}

/-- A job starts with no heartbeat failed. -/
theorem start {version : Int}
    (h : (starting version signal).Pace period.nanos maxFailures now wrote)
    (hAccepted : 0 < maxFailures) :
    (beating (.start now period) signal).Pace period.nanos maxFailures now wrote := by
  have hWrote : wrote = now := h
  refine ⟨hAccepted, ?_, Nat.le_add_right _ _⟩
  simp only [Heartbeat.start]
  omega

/-- A heartbeat that begins when it is due has its schedule kept. -/
theorem tick {claimant : Claimant}
    (h : (beating beat signal).Pace period.nanos maxFailures now wrote) (hDue : beat.due ≤ now) :
    (renewing (beat.tick now period) (.start claimant) signal).Pace period.nanos maxFailures now
      wrote := by
  obtain ⟨hFailures, hNext, hNow⟩ := h
  have hHere : beat.due = now := Nat.le_antisymm hDue hNow
  rw [Heartbeat.tick_of_le _ (Nat.le_of_eq hHere.symm)]
  rw [hHere] at hNext ⊢
  exact ⟨rfl, .inr ⟨rfl, hFailures, hNext⟩⟩

/-- A renewal that does not succeed has not renewed the lock. -/
theorem miss {time : Instant}
    (h : (renewing beat renewal signal).Pace period.nanos maxFailures now wrote)
    (hStage : renewal.stage = .writing time) (hFailed : result ≠ .ok true) :
    (renewing beat { renewal with stage := .finished result } signal).Pace period.nanos maxFailures
      now wrote := by
  obtain ⟨hDue, hCases⟩ := h
  rw [hStage] at hCases
  have hNot : (Renewal.Stage.finished result).hasRenewed = false := by
    rcases result with error | renewed
    · rfl
    · cases renewed with
      | false => rfl
      | true => exact absurd rfl hFailed
  rcases hCases with ⟨hRenewed, -⟩ | ⟨-, hBefore⟩
  · cases hRenewed
  · exact ⟨hDue, .inr ⟨hNot, hBefore⟩⟩

/-- After a renewal that failed, one period more has passed than heartbeats had failed. -/
theorem now_of_failed (h : (renewing beat renewal signal).Pace period.nanos maxFailures now wrote)
    (hResult : renewal.result? = some result) (hFailed : result ≠ .ok true) :
    beat.failures < maxFailures ∧ now = wrote + (beat.failures + 1) * period.nanos := by
  rcases h.2 with ⟨hRenewed, -⟩ | ⟨-, hNow⟩
  · exact absurd ((Renewal.hasRenewed_of_result? hResult).mp hRenewed) hFailed
  · exact hNow

/-- A renewal that succeeded has just written the row. -/
theorem recover (h : (renewing beat renewal signal).Pace period.nanos maxFailures now wrote)
    (hResult : renewal.result? = some (.ok true)) (hAccepted : 0 < maxFailures) :
    (beating beat.recover signal).Pace period.nanos maxFailures now wrote := by
  obtain ⟨hDue, hStage⟩ := h
  have hRenewed := (Renewal.hasRenewed_of_result? hResult).mpr rfl
  have hWrote : wrote = now := by
    rcases hStage with ⟨-, hWrote⟩ | ⟨hNot, -⟩
    · exact hWrote
    · rw [hRenewed] at hNot
      cases hNot
  simp only [Pace, Heartbeat.recover]
  omega

/-- One more heartbeat has failed, and the next is due one period later. -/
theorem falter (h : (renewing beat renewal signal).Pace period.nanos maxFailures now wrote)
    (hResult : renewal.result? = some result) (hFailed : result ≠ .ok true)
    (hFailures : beat.failures + 1 < maxFailures) :
    (beating beat.fail signal).Pace period.nanos maxFailures now wrote := by
  obtain ⟨-, hNow⟩ := h.now_of_failed hResult hFailed
  have hDue : beat.due = now + period.nanos := h.1
  refine ⟨hFailures, ?_, ?_⟩
  · show beat.due = wrote + (beat.failures + 1 + 1) * _
    rw [hDue, Nat.add_mul (beat.failures + 1) 1]
    omega
  · show now ≤ beat.due
    omega

/-- The last heartbeat that may fail has failed. -/
theorem lose (h : (renewing beat renewal signal).Pace period.nanos maxFailures now wrote)
    (hResult : renewal.result? = some result) (hFailed : result ≠ .ok true)
    (hFailures : maxFailures ≤ beat.failures + 1) :
    (losing (beat.failures + 1) signal).Pace period.nanos maxFailures now wrote := by
  obtain ⟨hBefore, hNow⟩ := h.now_of_failed hResult hFailed
  have hLast : beat.failures + 1 = maxFailures := by omega
  rw [hLast] at hNow
  exact ⟨hLast, hNow⟩

end Cycle.Phase.Pace

namespace Fleet

section

variable {fleet next : Fleet} {event : Event}

/-- **No cycle gets its lock by a quiet move.** -/
theorem Quiet.grips {manager : Manager} {cycle : Cycle} {phase phase' : Cycle.Phase}
    (h : fleet.Quiet manager cycle phase phase') (hGrips : phase'.grips = true) :
    phase.grips = true := by
  cases h with
  | turned hMove =>
      cases hMove with
      | win hResult => exact Attempt.hasWon_of_result? hResult
      | mark | look | start | recover | falter | lose => rfl
      | _ => cases hGrips
  | expired hNeed hDue hMove =>
      cases hMove with
      | beat => rfl
      | _ => cases hGrips
  | woken hMove =>
      cases hMove with
      | wakeBeating => rfl
      | _ => cases hGrips
  | timed hRequest hReading =>
      rw [Cycle.Phase.grips, Attempt.hasWon_time _ hRequest] at hGrips
      cases hGrips
  | looked hRequest hLost =>
      rw [Cycle.Phase.grips, hLost] at hGrips
      cases hGrips
  | failed error hRequest =>
      rw [Cycle.Phase.grips, Attempt.hasWon_error error hRequest] at hGrips
      cases hGrips
  | stamped => rfl
  | missed => rfl

/-- **Quiet moves keep the pace.** -/
theorem Quiet.pace {manager : Manager} {cycle : Cycle} {phase phase' : Cycle.Phase} {wrote : Nat}
    (h : fleet.Quiet manager cycle phase phase') (hGrips : phase'.grips = true)
    (hAccepted : 0 < manager.options.maxFailures)
    (hPace : phase.Pace (manager.policy cycle.interval).heartbeat.nanos manager.options.maxFailures
      fleet.now wrote) :
    phase'.Pace (manager.policy cycle.interval).heartbeat.nanos manager.options.maxFailures
      fleet.now wrote := by
  have hGripped := h.grips hGrips
  cases h with
  | turned hMove =>
      cases hMove with
      | win | mark | look => exact hPace
      | start version signal => exact Cycle.Phase.Pace.start hPace hAccepted
      | recover hResult => exact Cycle.Phase.Pace.recover hPace hResult hAccepted
      | falter hResult hFailed hFailures =>
          exact Cycle.Phase.Pace.falter hPace hResult hFailed hFailures
      | lose hResult hFailed hFailures =>
          exact Cycle.Phase.Pace.lose hPace hResult hFailed hFailures
      | _ => cases hGrips
  | expired hNeed hDue hMove =>
      cases hMove with
      | beat beat signal =>
          exact Cycle.Phase.Pace.tick hPace (Cycle.Need.pause.inj hNeed ▸ hDue)
      | _ => cases hGrips
  | woken hMove =>
      cases hMove with
      | wakeBeating beat signal => exact hPace.now_le rfl
      | _ => cases hGrips
  | timed | looked | failed => exact hPace
  | stamped hStage hReading =>
      obtain ⟨hDue, hCases⟩ := hPace
      rw [hStage] at hCases
      exact ⟨hDue, hCases⟩
  | missed hStage hFailed => exact Cycle.Phase.Pace.miss hPace hStage hFailed

/-! ## The pace along a run -/

/-- Every cycle that has its lock keeps the pace. -/
def Paced (fleet : Fleet) : Prop :=
  ∀ node id options cycle, fleet.cycle? node id = some (options, cycle) →
    cycle.phase.grips = true →
    ∃ wrote, fleet.lastWrite? node cycle.name = some wrote ∧
      cycle.phase.Pace (options.policies.get cycle.interval).heartbeat.nanos options.maxFailures
        fleet.now wrote

/-- The options of a cycle are those of a manager. -/
theorem options_mem_of_cycle? {node id : Nat} {options : Manager.Options} {cycle : Cycle}
    (h : fleet.cycle? node id = some (options, cycle)) :
    options ∈ fleet.managers.map Manager.options := by
  obtain ⟨manager, hManager, rfl, -⟩ := cycle?_eq_some_iff.mp h
  exact List.mem_map_of_mem (List.mem_of_getElem? hManager)

/-- A node has one cycle of a name that is not over. -/
theorem Legal.eq_of_name (hLegal : fleet.Legal) {node i j : Nat} {first second : Manager.Options}
    {c d : Cycle} (hFirst : fleet.cycle? node i = some (first, c))
    (hSecond : fleet.cycle? node j = some (second, d)) (hName : c.name = d.name)
    (hC : c.phase.isLive = true) (hD : d.phase.isLive = true) : i = j := by
  obtain ⟨manager, hManager, -, hCycleC⟩ := cycle?_eq_some_iff.mp hFirst
  obtain ⟨other, hOther, -, hCycleD⟩ := cycle?_eq_some_iff.mp hSecond
  obtain rfl : manager = other := Option.some.inj (hManager.symm.trans hOther)
  have hCoherent := hLegal.coherent manager (List.mem_of_getElem? hManager)
  exact hCoherent.unique i j c d hCycleC hCycleD hName hC hD

/-- While time passes, every cycle is over or waits. -/
theorem need_of_rests {nanos node id : Nat} {options : Manager.Options} {cycle : Cycle}
    (hRests : fleet.rests nanos = true) (h : fleet.cycle? node id = some (options, cycle)) :
    cycle.phase.need = .finished ∨
      ∃ due, cycle.phase.need = .pause due ∧ fleet.now + nanos ≤ due := by
  obtain ⟨manager, hManager, -, hCycle⟩ := cycle?_eq_some_iff.mp h
  have hAll := List.all_eq_true.mp hRests manager (List.mem_of_getElem? hManager)
  have hRest := List.all_eq_true.mp hAll cycle (List.mem_of_getElem? hCycle)
  unfold cycleRests at hRest
  split at hRest
  · next hNeed => exact .inl hNeed
  · next due hNeed =>
    rw [Bool.and_eq_true, decide_eq_true_eq] at hRest
    exact .inr ⟨due, hNeed, hRest.2⟩
  · cases hRest

/-- The write of a node on a row is the last one on it by another cycle of the node only if
that cycle is over. -/
theorem Legal.lastWrite?_of_other (hLegal : fleet.Legal) {node id other number : Nat}
    {options owner : Manager.Options} {cycle writer : Cycle} {time : Nat}
    (hWriter : fleet.cycle? node id = some (owner, writer))
    (hCycle : fleet.cycle? other number = some (options, cycle))
    (hNe : other ≠ node ∨ number ≠ id) (hLive : writer.phase.isLive = true)
    (hGrips : cycle.phase.grips = true)
    (hWrites : next.writes = fleet.writes ++ [⟨node, writer.name, time⟩]) :
    next.lastWrite? other cycle.name = fleet.lastWrite? other cycle.name := by
  rw [lastWrite?_append hWrites, if_neg]
  rintro ⟨hNode, hName⟩
  have hNode : node = other := hNode
  subst hNode
  have hSame : number = id := hLegal.eq_of_name hCycle hWriter hName.symm
    (Cycle.Phase.isLive_of_grips hGrips) hLive
  exact hNe.elim (fun h => h rfl) fun h => h hSame

/-- Every event keeps the pace. -/
theorem Paced.step (hPaced : fleet.Paced) (hLegal : fleet.Legal)
    (hChange : Change fleet next event) : next.Paced := by
  intro other number options cycle hCycle hGrips
  cases hChange with
  | idle hCycles hRows hWrites hNow =>
      rw [hCycles] at hCycle
      rw [lastWrite?_of_writes_eq hWrites, hNow]
      exact hPaced other number options cycle hCycle hGrips
  | begun hEvent hManager hRetrying hName hInterval hNew hCycles hRows hWrites hNow =>
      rcases cycle?_cases hNew hCycles hCycle with ⟨-, -, -, rfl⟩ | ⟨-, hOld⟩
      · rw [hRetrying] at hGrips
        cases hGrips
      · rw [lastWrite?_of_writes_eq hWrites, hNow]
        exact hPaced other number options cycle hOld hGrips
  | @passed nanos hRests hNext =>
      subst hNext
      obtain ⟨wrote, hLast, hPace⟩ := hPaced other number options cycle hCycle hGrips
      refine ⟨wrote, hLast, ?_⟩
      rcases need_of_rests hRests hCycle with hFinished | ⟨due, hNeed, hDue⟩
      · exact absurd hFinished (Cycle.Phase.need_ne_finished_of_grips hGrips)
      · exact hPace.pass hGrips hNeed hDue
  | @moved node id manager old moved hManager hOld hName hInterval hMoved hCycles hNow hEffect =>
      have hBefore : fleet.cycle? node id = some (manager.options, old) :=
        Legal.cycle? hManager hOld
      rcases cycle?_cases hMoved hCycles hCycle with ⟨rfl, rfl, rfl, rfl⟩ | ⟨hNe, hSame⟩
      · rw [hName, hInterval, hNow]
        have hAccepted := hLegal.accepted _ (options_mem_of_cycle? hBefore)
        cases hEffect with
        | quiet hRows hWrites hQuiet =>
            rw [lastWrite?_of_writes_eq hWrites]
            obtain ⟨wrote, hLast, hPace⟩ := hPaced _ _ _ old hBefore (hQuiet.grips hGrips)
            exact ⟨wrote, hLast, hQuiet.pace hGrips hAccepted hPace⟩
        | won hPhase hStage hRow hOwner hTime hOther hWrites hNext =>
            refine ⟨fleet.now, ?_, ?_⟩
            · rw [lastWrite?_append hWrites]
              exact if_pos ⟨rfl, rfl⟩
            · rw [hNext]
              exact rfl
        | @renewed beat renewal signal now row hPhase hStage hOldRow hRow hOwner hOther hWrites
            hNext =>
            have hGripped : old.phase.grips = true := by rw [hPhase]; rfl
            obtain ⟨wrote, -, hPace⟩ := hPaced _ _ _ old hBefore hGripped
            rw [hPhase] at hPace
            refine ⟨fleet.now, ?_, ?_⟩
            · rw [lastWrite?_append hWrites]
              exact if_pos ⟨rfl, rfl⟩
            · rw [hNext]
              exact ⟨hPace.1, .inl ⟨rfl, rfl⟩⟩
      · rw [hNow]
        have hLive : next.lastWrite? other cycle.name = fleet.lastWrite? other cycle.name := by
          cases hEffect with
          | quiet hRows hWrites hQuiet => exact lastWrite?_of_writes_eq hWrites other cycle.name
          | won hPhase hStage hRow hOwner hTime hOther hWrites hNext =>
              exact hLegal.lastWrite?_of_other hBefore hSame hNe (by rw [hPhase]; rfl) hGrips
                hWrites
          | renewed hPhase hStage hOldRow hRow hOwner hOther hWrites hNext =>
              exact hLegal.lastWrite?_of_other hBefore hSame hNe (by rw [hPhase]; rfl) hGrips
                hWrites
        rw [hLive]
        exact hPaced other number options cycle hSame hGrips

theorem Paced.around {database table : String} {base : Instant} {memory : Memory}
    {managers : List Manager} {space : Space} (hNew : ∀ manager ∈ managers, manager.IsNew space) :
    (Fleet.around database table base memory managers).Paced := by
  intro node id options cycle hCycle
  rw [cycle?_around hNew] at hCycle
  cases hCycle

/-- Every run keeps the pace. -/
theorem Paced.run {start : Fleet} {events : List Event} (hPaced : start.Paced)
    (hLegal : start.Legal) (hRun : start.run? events = some fleet) : fleet.Paced := by
  have hBoth : fleet.Legal ∧ fleet.Paced := by
    refine runs?_induction (motive := fun _ fleet => fleet.Legal ∧ fleet.Paced) ⟨hLegal, hPaced⟩
      ?_ hRun
    rintro _ before event next - ⟨hBefore, hPace⟩ hStep
    have hChange := hBefore.change_of_step (step_of_step? hStep)
    exact ⟨hBefore.step (step_of_step? hStep), hPace.step hBefore hChange⟩
  exact hBoth.2

/-- **A live hold is young.**  A node that holds a name under a signal that is not cancelled
has a cycle of the name that has its lock, and it wrote the row at most as many periods ago
as heartbeats may fail. -/
theorem Paced.of_isLive (hPaced : fleet.Paced) (hLegal : fleet.Legal) {node : Nat} {name : String}
    (hLive : fleet.IsLive node name) :
    ∃ id options cycle wrote, fleet.cycle? node id = some (options, cycle) ∧ cycle.name = name ∧
      cycle.phase.grips = true ∧ fleet.lastWrite? node name = some wrote ∧
      fleet.now ≤ wrote
        + options.maxFailures * (options.policies.get cycle.interval).heartbeat.nanos := by
  obtain ⟨manager, hManager, hHeld⟩ := hLive
  have hCoherent := hLegal.coherent manager (List.mem_of_getElem? hManager)
  obtain ⟨id, cycle, signal, hCycle, rfl, hSignal⟩ := hCoherent.exists_of_isLive hHeld
  have hGrips := Cycle.Phase.grips_of_signal? hSignal
  have hHere := Legal.cycle? hManager hCycle
  obtain ⟨wrote, hLast, hPace⟩ := hPaced node id _ cycle hHere hGrips
  exact ⟨id, _, cycle, wrote, hHere, rfl, hGrips, hLast, hPace.now_le hGrips⟩

end

end Fleet
end Leasehold
