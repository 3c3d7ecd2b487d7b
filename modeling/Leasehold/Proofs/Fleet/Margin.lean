import Leasehold.Proofs.Fleet.Exclusion

/-!
# The margin between a lease and its heartbeats

A policy has a lease and a heartbeat period, and a manager allows some heartbeats in a row
to fail.  A job whose heartbeats all fail is cancelled as many periods after the last write
as heartbeats may fail, and the row is up for takeover once the lease is over.  The first
must not come after the second; options are accepted without a look at this.

* `LeasePolicy.IsSafe`: nodes that keep a policy never hold a name together.
* `Fleet.Leads`: a run from one fleet to another.
* `Fleet.exists_two_holders`: a policy with no margin lets two nodes hold a name.
* `Manager.Options.Timing`, `Manager.Options.timing_of_validate`: what accepted options
  promise.
-/

namespace Leasehold

/-- **No two holders.**  New managers that share a lock table and a clock, have distinct
identities, and register a name under a policy and with a number of failures that are the
same for all of them, never hold it together. -/
def LeasePolicy.IsSafe (policy : LeasePolicy) (maxFailures : Nat) (base : Instant) : Prop :=
  ∀ (database table name : String) (memory : Memory) (managers : List Manager)
    (events : List Fleet.Event) (fleet : Fleet),
    memory.HoldsLocks (lockSpace database table) →
    (∀ manager ∈ managers, manager.IsNew (lockSpace database table)) →
    (managers.map fun manager => manager.options.identity).Nodup →
    (∀ node interval manager, .register node name interval ∈ events →
      managers[node]? = some manager →
      manager.policy interval = policy ∧ manager.options.maxFailures = maxFailures) →
    (Fleet.around database table base memory managers).run? events = some fleet →
    ∀ i j, fleet.IsLive i name → fleet.IsLive j name → i = j

namespace Manager

variable {options : Options} {interval : IntervalClass} {phase : Cycle.Phase}

/-- A manager that has registered one name and does not have its lock. -/
def contending (options : Options) (interval : IntervalClass) (phase : Cycle.Phase) : Manager :=
  { fresh options with
    registry := OrderedMap.insert ∅ "job" ⟨interval, .acquiring, none⟩
    cycles :=
      [⟨"job", interval, .start options.retry (options.policies.get interval).lease, phase⟩] }

/-- A manager that has registered one name and makes an attempt. -/
def trying (options : Options) (interval : IntervalClass) (stage : Attempt.Stage) : Manager :=
  contending options interval (.attempting
    ⟨⟨options.space, options.identity, "job"⟩, (options.policies.get interval).lease, stage⟩)

/-- A manager that has registered one name and holds it. -/
def holding (options : Options) (interval : IntervalClass) (phase : Cycle.Phase) : Manager :=
  { contending options interval phase with
    registry :=
      (OrderedMap.insert ∅ "job" ⟨interval, .acquiring, none⟩).modify "job" fun registration =>
        { registration with state := .held, signal := some 0 }
    signals := ⟨[false]⟩ }

theorem isLive_holding : (holding options interval phase).IsLive "job" :=
  ⟨⟨interval, .held, some 0⟩, 0, rfl, rfl, rfl, rfl⟩

end Manager

namespace Fleet

/-! ## Runs from one fleet to another -/

section

variable {fleet next last : Fleet} {interval : IntervalClass}

/-- A run that leads from one fleet to another and registers names under one class only. -/
def Leads (interval : IntervalClass) (fleet next : Fleet) : Prop :=
  ∃ events, (∀ node name other, .register node name other ∈ events → other = interval) ∧
    fleet.run? events = some next

theorem Leads.refl : Leads interval fleet fleet :=
  ⟨[], fun _ _ _ h => (List.not_mem_nil h).elim, rfl⟩

theorem Leads.trans (hFirst : Leads interval fleet next) (hSecond : Leads interval next last) :
    Leads interval fleet last := by
  obtain ⟨events, hEvents, hRun⟩ := hFirst
  obtain ⟨more, hMore, hRest⟩ := hSecond
  refine ⟨events ++ more, ?_, ?_⟩
  · intro node name other h
    rcases List.mem_append.mp h with hHere | hThere
    · exact hEvents node name other hHere
    · exact hMore node name other hThere
  · rw [run?, runs?_append, show runs? step? fleet events = some next from hRun]
    exact hRest

theorem Leads.of_step? {event : Event}
    (hEvent : ∀ node name other, event = .register node name other → other = interval)
    (hStep : fleet.step? event = some next) : Leads interval fleet next := by
  refine ⟨[event], ?_, ?_⟩
  · intro node name other h
    exact hEvent node name other (List.mem_singleton.mp h).symm
  · rw [run?, runs?, hStep]
    rfl

theorem Leads.of_move (node id : Nat) (act : Act)
    (hStep : fleet.step? (.move node id act) = some next) : Leads interval fleet next :=
  .of_step? (fun _ _ _ h => Event.noConfusion h) hStep

theorem step?_move {node id : Nat} {manager : Manager} {cycle : Cycle} (act : Act)
    (hManager : fleet.managers[node]? = some manager) (hCycle : manager.cycles[id]? = some cycle) :
    fleet.step? (.move node id act) = fleet.act? node id manager cycle act := by
  simp only [step?, hManager, hCycle]

/-- The store serves a node that makes an attempt. -/
theorem leads_serve (node : Nat) {options : Manager.Options} {attempt : Attempt} {call : Call}
    {row? : Option LockRow}
    (hManager : fleet.managers[node]? = some (.contending options interval (.attempting attempt)))
    (hSpace : attempt.claimant.space = fleet.space) (hName : attempt.claimant.name = "job")
    (hLocks : fleet.memory.HoldsLocks fleet.space) (hRow : fleet.lockRow? "job" = row?)
    (hCall : attempt.request? = some (.call call)) :
    ∃ memory writes, memory.HoldsLocks fleet.space ∧
      memory.lockRow? fleet.space "job" = attempt.rowAfter row? ∧
      Leads interval fleet
        { fleet with
          memory := memory
          writes := writes
          managers := fleet.managers.set node (.contending options interval
            (.attempting { attempt with stage := attempt.stageAfter row? })) } := by
  have hHere : fleet.memory.lockRow? fleet.space attempt.claimant.name = row? := by
    rw [hName]
    exact hRow
  obtain ⟨reply, memory, hPerform, hChange, hStage, -⟩ :=
    Attempt.perform_eq hSpace hLocks hHere hCall
  rw [hName] at hChange
  have hNeed : (Cycle.Phase.attempting attempt).need = .answer call := by
    rw [Cycle.Phase.need, hCall]
    rfl
  have hResumed : attempt.resume (.reply reply)
      = { attempt with stage := attempt.stageAfter row? } := by
    rw [Attempt.resume, hStage]
  refine ⟨memory, if call.wrote reply then fleet.writes ++ [⟨node, "job", fleet.now⟩]
    else fleet.writes, hChange.locks, hChange.lockRow?_self, .of_move node 0 .serve ?_⟩
  rw [step?_move .serve hManager rfl]
  simp only [act?, hNeed, served, hPerform, stepped, withManager]
  rw [← hResumed]
  rfl

end

/-! ## Two nodes -/

section

variable {fleet : Fleet} {memory : Memory} {now : Nat} {writes : List Write} {reading : Instant}
  {options other : Manager.Options} {interval : IntervalClass} {first second : Manager}

/-- Two nodes around the lock table of a fleet. -/
def duel (fleet : Fleet) (now : Nat) (memory : Memory) (writes : List Write)
    (first second : Manager) : Fleet :=
  { fleet with now := now, memory := memory, writes := writes, managers := [first, second] }

/-- A name that has no row is had at once. -/
theorem leads_insert (hSpace : options.space = fleet.space)
    (hLocks : memory.HoldsLocks fleet.space) (hFree : memory.lockRow? fleet.space "job" = none)
    (hReading : fleet.base.after? now = some reading) :
    ∃ memory' writes', memory'.HoldsLocks fleet.space ∧
      memory'.lockRow? fleet.space "job" = some (.first "job" options.identity reading) ∧
      Leads interval (fleet.duel now memory writes (.fresh options) second)
        (fleet.duel now memory' writes'
          (.holding options interval
            (.beating (.start now (options.policies.get interval).heartbeat) 0)) second) := by
  have hRegistered : Leads interval (fleet.duel now memory writes (.fresh options) second)
      (fleet.duel now memory writes (.contending options interval .retrying) second) :=
    .of_step? (fun _ _ _ h => (Event.register.inj h).2.2.symm)
      (rfl : step? _ (.register 0 "job" interval) = _)
  have hBegun : Leads interval
      (fleet.duel now memory writes (.contending options interval .retrying) second)
      (fleet.duel now memory writes (.trying options interval .counting) second) :=
    .of_move 0 0 (.turn 0) rfl
  obtain ⟨counted, writes₁, hLocks₁, hFree₁, hCounted⟩ := @leads_serve
    (fleet.duel now memory writes (.trying options interval .counting) second) interval 0 options
    _ _ none rfl hSpace rfl hLocks hFree rfl
  have hStamped : Leads interval
      (fleet.duel now counted writes₁ (.trying options interval .stamping) second)
      (fleet.duel now counted writes₁ (.trying options interval (.inserting reading)) second) := by
    refine .of_move 0 0 .read ?_
    show (fleet.base.after? now).map _ = _
    rw [hReading]
    rfl
  obtain ⟨inserted, writes₂, hLocks₂, hRow, hInserted⟩ := @leads_serve
    (fleet.duel now counted writes₁ (.trying options interval (.inserting reading)) second)
    interval 0 options _ _ none rfl hSpace rfl hLocks₁ hFree₁ rfl
  have hAcquired : Leads interval
      (fleet.duel now inserted writes₂
        (.trying options interval (.finished (.ok (.acquired 0)))) second)
      (fleet.duel now inserted writes₂ (.contending options interval (.acquired 0)) second) :=
    .of_move 0 0 (.turn 0) rfl
  have hMarked : Leads interval
      (fleet.duel now inserted writes₂ (.contending options interval (.acquired 0)) second)
      (fleet.duel now inserted writes₂ (.holding options interval (.marked 0 0)) second) :=
    .of_move 0 0 (.turn 0) rfl
  have hLooked : Leads interval
      (fleet.duel now inserted writes₂ (.holding options interval (.marked 0 0)) second)
      (fleet.duel now inserted writes₂ (.holding options interval (.starting 0 0)) second) :=
    .of_move 0 0 (.turn 0) rfl
  have hStarted : Leads interval
      (fleet.duel now inserted writes₂ (.holding options interval (.starting 0 0)) second)
      (fleet.duel now inserted writes₂ (.holding options interval
        (.beating (.start now (options.policies.get interval).heartbeat) 0)) second) :=
    .of_move 0 0 (.turn 0) rfl
  refine ⟨inserted, writes₂, hLocks₂, hRow, ?_⟩
  exact hRegistered.trans <| hBegun.trans <| hCounted.trans <| hStamped.trans <|
    hInserted.trans <| hAcquired.trans <| hMarked.trans <| hLooked.trans hStarted

/-- Until the next heartbeat time passes. -/
theorem leads_pass {beat : Heartbeat} {signal : SignalId} {later : Nat} (hNow : now ≤ later)
    (hLater : later ≤ beat.due) :
    Leads interval
      (fleet.duel now memory writes (.holding options interval (.beating beat signal))
        (.fresh other))
      (fleet.duel later memory writes (.holding options interval (.beating beat signal))
        (.fresh other)) := by
  have hEnd : now + (later - now) = later := by omega
  have hRests : (fleet.duel now memory writes (.holding options interval (.beating beat signal))
      (.fresh other)).rests (later - now) = true := by
    have hDue : now + (later - now) ≤ beat.due := by omega
    simpa [rests, cycleRests, duel, Manager.holding, Manager.contending, Manager.fresh,
      Cycle.Phase.need] using hDue
  refine .of_step? (fun _ _ _ h => Event.noConfusion h)
    (show step? _ (.pass (later - now)) = _ from ?_)
  rw [step?, if_pos hRests]
  simp only [duel, hEnd]

/-- While heartbeats may still fail, one that fails keeps the job alive for a period. -/
theorem leads_failure {beat : Heartbeat} {signal : SignalId} (hNow : now ≤ beat.due)
    (hReading : fleet.base.after? beat.due = some reading)
    (hFailures : beat.failures + 1 < options.maxFailures) :
    Leads interval
      (fleet.duel now memory writes (.holding options interval (.beating beat signal))
        (.fresh other))
      (fleet.duel beat.due memory writes
        (.holding options interval (.beating
          ⟨beat.due + (options.policies.get interval).heartbeat.nanos, beat.failures + 1⟩ signal))
        (.fresh other)) := by
  have hPassed : Leads interval
      (fleet.duel now memory writes (.holding options interval (.beating beat signal))
        (.fresh other))
      (fleet.duel beat.due memory writes (.holding options interval (.beating beat signal))
        (.fresh other)) := leads_pass hNow (Nat.le_refl _)
  have hTick : beat.tick beat.due (options.policies.get interval).heartbeat
      = ⟨beat.due + (options.policies.get interval).heartbeat.nanos, beat.failures⟩ :=
    Heartbeat.tick_of_le _ (Nat.le_refl _)
  generalize hNext : beat.due + (options.policies.get interval).heartbeat.nanos = due at hTick
  let renewal : Renewal := .start ⟨options.space, options.identity, "job"⟩
  have hExpired : Leads interval
      (fleet.duel beat.due memory writes (.holding options interval (.beating beat signal))
        (.fresh other))
      (fleet.duel beat.due memory writes
        (.holding options interval (.renewing ⟨due, beat.failures⟩ renewal signal))
        (.fresh other)) := by
    refine .of_move 0 0 .expire ?_
    show (if beat.due ≤ beat.due then _ else none) = _
    rw [if_pos (Nat.le_refl _), ← hTick]
    rfl
  have hStamped : Leads interval
      (fleet.duel beat.due memory writes
        (.holding options interval (.renewing ⟨due, beat.failures⟩ renewal signal))
        (.fresh other))
      (fleet.duel beat.due memory writes
        (.holding options interval
          (.renewing ⟨due, beat.failures⟩ { renewal with stage := .writing reading } signal))
        (.fresh other)) := by
    refine .of_move 0 0 .read ?_
    show (fleet.base.after? beat.due).map _ = _
    rw [hReading]
    rfl
  let failed : Renewal := { renewal with stage := .finished (.error (.store .negativeCount)) }
  have hFailed : Leads interval
      (fleet.duel beat.due memory writes
        (.holding options interval
          (.renewing ⟨due, beat.failures⟩ { renewal with stage := .writing reading } signal))
        (.fresh other))
      (fleet.duel beat.due memory writes
        (.holding options interval (.renewing ⟨due, beat.failures⟩ failed signal))
        (.fresh other)) :=
    .of_move 0 0 (.fail .negativeCount) rfl
  have hFaltered : Leads interval
      (fleet.duel beat.due memory writes
        (.holding options interval (.renewing ⟨due, beat.failures⟩ failed signal))
        (.fresh other))
      (fleet.duel beat.due memory writes
        (.holding options interval (.beating ⟨due, beat.failures + 1⟩ signal))
        (.fresh other)) := by
    have hMore : ¬ options.maxFailures ≤ beat.failures + 1 := by omega
    have hStep : ((Manager.holding options interval
        (.renewing ⟨due, beat.failures⟩ failed signal)).step 0 ⟨beat.due, 0⟩ .turn).1
          = .holding options interval (.beating ⟨due, beat.failures + 1⟩ signal) := by
      show (if options.maxFailures ≤ beat.failures + 1 then _ else _ : Manager × List _).1 = _
      rw [if_neg hMore]
      rfl
    exact .of_move 0 0 (.turn 0) (congrArg (fun manager =>
      some (fleet.duel beat.due memory writes manager (.fresh other))) hStep)
  exact hPassed.trans <| hExpired.trans <| hStamped.trans <| hFailed.trans hFaltered

/-- As many heartbeats fail in a row as may fail without an end of the job. -/
theorem leads_failures {limit : Nat} (count : Nat) (hCount : count < options.maxFailures)
    (hLimit : count * (options.policies.get interval).heartbeat.nanos ≤ limit)
    (hClock : ∀ time ≤ limit, ∃ reading, fleet.base.after? time = some reading) :
    Leads interval
      (fleet.duel 0 memory writes (.holding options interval
        (.beating (.start 0 (options.policies.get interval).heartbeat) 0)) (.fresh other))
      (fleet.duel (count * (options.policies.get interval).heartbeat.nanos) memory writes
        (.holding options interval (.beating
          ⟨(count + 1) * (options.policies.get interval).heartbeat.nanos, count⟩ 0))
        (.fresh other)) := by
  generalize hPeriod : (options.policies.get interval).heartbeat = period at hLimit ⊢
  induction count with
  | zero =>
      rw [Nat.zero_mul, Nat.zero_add, Nat.one_mul, Heartbeat.start, Nat.zero_add]
      exact .refl
  | succ count ih =>
      have hNext : (count + 1 + 1) * period.nanos = (count + 1) * period.nanos + period.nanos :=
        Nat.succ_mul _ _
      have hStep : (count + 1) * period.nanos = count * period.nanos + period.nanos :=
        Nat.succ_mul _ _
      obtain ⟨reading, hReading⟩ := hClock _ hLimit
      have hFailure : Leads interval _ _ := @leads_failure fleet memory
        (count * period.nanos) writes reading options other interval
        ⟨(count + 1) * period.nanos, count⟩ 0 (by rw [hStep]; exact Nat.le_add_right _ _)
        hReading hCount
      rw [hPeriod] at hFailure
      rw [hNext]
      exact (ih (by omega) (by omega)).trans hFailure

/-- A row that has expired is taken over at once. -/
theorem leads_takeover {row : LockRow} (hSpace : options.space = fleet.space)
    (hLocks : memory.HoldsLocks fleet.space) (hRow : memory.lockRow? fleet.space "job" = some row)
    (hOwner : row.owner ≠ options.identity) (hReading : fleet.base.after? now = some reading)
    (hExpired : row.isExpired reading (options.policies.get interval).lease = true)
    (hRaisable : row.isRaisable = true) :
    ∃ memory' writes',
      Leads interval (fleet.duel now memory writes first (.fresh options))
        (fleet.duel now memory' writes' first
          (.holding options interval (.marked (row.version + 1) 0))) := by
  have hRegistered : Leads interval (fleet.duel now memory writes first (.fresh options))
      (fleet.duel now memory writes first (.contending options interval .retrying)) :=
    .of_step? (fun _ _ _ h => (Event.register.inj h).2.2.symm)
      (rfl : step? _ (.register 1 "job" interval) = _)
  have hBegun : Leads interval
      (fleet.duel now memory writes first (.contending options interval .retrying))
      (fleet.duel now memory writes first (.trying options interval .counting)) :=
    .of_move 1 0 (.turn 0) rfl
  obtain ⟨counted, writes₁, hLocks₁, hRow₁, hCounted⟩ := @leads_serve
    (fleet.duel now memory writes first (.trying options interval .counting)) interval 1 options
    _ _ (some row) rfl hSpace rfl hLocks hRow rfl
  obtain ⟨searched, writes₂, hLocks₂, hRow₂, hSearched⟩ := @leads_serve
    (fleet.duel now counted writes₁ first (.trying options interval .searching)) interval 1 options
    _ _ (some row) rfl hSpace rfl hLocks₁ hRow₁ rfl
  have hJudging : Attempt.stageAfter ⟨⟨options.space, options.identity, "job"⟩,
      (options.policies.get interval).lease, .searching⟩ (some row) = .judging row := by
    have hForeign : row.isOwnedBy options.identity = false := by
      rw [LockRow.isOwnedBy, beq_eq_false_iff_ne]
      exact hOwner
    simp only [Attempt.stageAfter, hForeign, Bool.false_eq_true, if_false]
  rw [hJudging] at hSearched
  have hJudged : Leads interval
      (fleet.duel now searched writes₂ first (.trying options interval (.judging row)))
      (fleet.duel now searched writes₂ first (.trying options interval (.claiming row))) := by
    have hStep : ((Manager.trying options interval (.judging row)).step 0 ⟨now, 0⟩
        (.response (.time reading))).1 = .trying options interval (.claiming row) := by
      have hVerdict : Attempt.afterJudgement row (options.policies.get interval).lease reading
          = .claiming row := (if_pos hExpired).trans (if_pos hRaisable)
      show Manager.trying options interval (Attempt.afterJudgement row _ reading) = _
      rw [hVerdict]
    refine .of_move 1 0 .read ?_
    show (fleet.base.after? now).map _ = _
    rw [hReading]
    exact congrArg (fun manager => some (fleet.duel now searched writes₂ first manager)) hStep
  have hClaimed : Leads interval
      (fleet.duel now searched writes₂ first (.trying options interval (.claiming row)))
      (fleet.duel now searched writes₂ first
        (.trying options interval (.replacing row reading))) := by
    refine .of_move 1 0 .read ?_
    show (fleet.base.after? now).map _ = _
    rw [hReading]
    rfl
  obtain ⟨replaced, writes₃, -, -, hReplaced⟩ := @leads_serve
    (fleet.duel now searched writes₂ first (.trying options interval (.replacing row reading)))
    interval 1 options _ _ (some row) rfl hSpace rfl hLocks₂ hRow₂ rfl
  have hTaken : Attempt.stageAfter ⟨⟨options.space, options.identity, "job"⟩,
      (options.policies.get interval).lease, .replacing row reading⟩ (some row)
        = .finished (.ok (.acquired (row.version + 1))) := by
    simp only [Attempt.stageAfter, if_true]
  rw [hTaken] at hReplaced
  have hAcquired : Leads interval
      (fleet.duel now replaced writes₃ first
        (.trying options interval (.finished (.ok (.acquired (row.version + 1))))))
      (fleet.duel now replaced writes₃ first
        (.contending options interval (.acquired (row.version + 1)))) :=
    .of_move 1 0 (.turn 0) rfl
  have hMarked : Leads interval
      (fleet.duel now replaced writes₃ first
        (.contending options interval (.acquired (row.version + 1))))
      (fleet.duel now replaced writes₃ first
        (.holding options interval (.marked (row.version + 1) 0))) :=
    .of_move 1 0 (.turn 0) rfl
  refine ⟨replaced, writes₃, ?_⟩
  exact hRegistered.trans <| hBegun.trans <| hCounted.trans <| hSearched.trans <|
    hJudged.trans <| hClaimed.trans <| hReplaced.trans <| hAcquired.trans hMarked

end

end Fleet

namespace Manager.Options

/-- The options with another identity, on the standard lock table. -/
def withIdentity (options : Options) (identity : String) : Options :=
  { options with identity := identity, space := standardLockSpace }

theorem validate_withIdentity {options : Options} {identity : String}
    (h : options.validate = .ok ()) (hIdentity : identity.isEmpty = false) :
    (options.withIdentity identity).validate = .ok () := by
  unfold validate at h ⊢
  split at h
  · cases h
  · simp only [withIdentity, hIdentity, Bool.false_eq_true, if_false]
    exact h

end Manager.Options

namespace Fleet

/-- **No margin, two holders.**  If heartbeats may fail for longer than the lease, then a node
whose heartbeats fail still holds a name when another node takes it over. -/
theorem exists_two_holders {options : Manager.Options} {interval : IntervalClass}
    {base reading : Instant} (hAccepted : options.validate = .ok ())
    (hValid : base.isValid = true) (hLeap : base.inLeapSecond = false)
    (hClock : base.after? ((options.policies.get interval).lease.nanos + 1) = some reading)
    (hOver : (options.policies.get interval).lease.nanos
      < options.maxFailures * (options.policies.get interval).heartbeat.nanos) :
    ∃ fleet, Leads interval
        (around Lock.standardDatabase Lock.standardTable base (.ofLocks standardLockSpace [])
          [.fresh (options.withIdentity "a"), .fresh (options.withIdentity "b")]) fleet ∧
      fleet.IsLive 0 "job" ∧ fleet.IsLive 1 "job" := by
  generalize hStart : around Lock.standardDatabase Lock.standardTable base
    (.ofLocks standardLockSpace [])
    [.fresh (options.withIdentity "a"), .fresh (options.withIdentity "b")] = start
  have hBase : start.base = base := by rw [← hStart]; rfl
  have hSpace : start.space = standardLockSpace := by rw [← hStart]; rfl
  have hDuel : start = start.duel 0 (.ofLocks standardLockSpace []) []
      (.fresh (options.withIdentity "a")) (.fresh (options.withIdentity "b")) := by
    rw [← hStart]; rfl
  obtain ⟨-, hPolicies⟩ := Manager.Options.of_validate hAccepted
  have hPeriod : 0 < (options.policies.get interval).heartbeat.nanos := (hPolicies interval).1
  have hReadable : ∀ time ≤ (options.policies.get interval).lease.nanos + 1,
      ∃ reading, start.base.after? time = some reading := by
    intro time hTime
    rw [hBase]
    exact Instant.exists_after?_of_le hValid hLeap hTime hClock
  -- The heartbeats that are due within the lease.
  generalize hCount : (options.policies.get interval).lease.nanos
    / (options.policies.get interval).heartbeat.nanos = count
  have hWithin : count * (options.policies.get interval).heartbeat.nanos
      ≤ (options.policies.get interval).lease.nanos := by
    rw [← hCount]
    exact Nat.div_mul_le_self _ _
  have hNext : (options.policies.get interval).lease.nanos + 1
      ≤ (count + 1) * (options.policies.get interval).heartbeat.nanos := by
    rw [← hCount, Nat.mul_comm]
    exact Nat.lt_mul_div_succ _ hPeriod
  have hFew : count < options.maxFailures :=
    Nat.lt_of_mul_lt_mul_right (Nat.lt_of_le_of_lt hWithin hOver)
  obtain ⟨written, hWritten⟩ := hReadable 0 (Nat.zero_le _)
  have hLocks : (Memory.ofLocks standardLockSpace []).HoldsLocks start.space := by
    rw [hSpace]
    exact Memory.holdsLocks_ofLocks List.Pairwise.nil
  obtain ⟨memory, writes, hLocks', hRow, hInserted⟩ := @leads_insert start
    (.ofLocks standardLockSpace []) 0 [] written (options.withIdentity "a") interval
    (.fresh (options.withIdentity "b")) hSpace.symm hLocks (by rw [hSpace]; rfl) hWritten
  have hFailed := @leads_failures start memory writes (options.withIdentity "a")
    (options.withIdentity "b") interval _ count hFew (Nat.le_succ_of_le hWithin) hReadable
  have hPassed := @leads_pass start memory _ writes (options.withIdentity "a")
    (options.withIdentity "b") interval
    ⟨(count + 1) * (options.policies.get interval).heartbeat.nanos, count⟩ 0 _
    (Nat.le_succ_of_le hWithin) hNext
  have hOwner : (LockRow.first "job" "a" written).owner ≠ "b" := show "a" ≠ "b" by decide
  have hRead : start.base.after? ((options.policies.get interval).lease.nanos + 1)
      = some reading := by
    rw [hBase]
    exact hClock
  rw [hBase] at hWritten
  have hExpired : (LockRow.first "job" "a" written).isExpired reading
      (options.policies.get interval).lease = true := by
    rw [LockRow.isExpired_after?_iff hValid hLeap (Nat.zero_le _) hWritten hClock]
    omega
  obtain ⟨memory', writes', hTaken⟩ := @leads_takeover start memory _ writes reading
    (options.withIdentity "b") interval (.holding (options.withIdentity "a") interval
      (.beating ⟨(count + 1) * (options.policies.get interval).heartbeat.nanos, count⟩ 0))
    _ hSpace.symm hLocks' hRow hOwner hRead hExpired rfl
  rw [hDuel]
  refine ⟨_, hInserted.trans (hFailed.trans (hPassed.trans hTaken)), ?_, ?_⟩
  · exact ⟨_, rfl, Manager.isLive_holding⟩
  · exact ⟨_, rfl, Manager.isLive_holding⟩

end Fleet

/-! ## What accepted options promise -/

/-- **Heartbeats that fit into the lease are safe.** -/
theorem LeasePolicy.isSafe_of_le {policy : LeasePolicy} {maxFailures : Nat}
    (h : maxFailures * policy.heartbeat.nanos ≤ policy.lease.nanos) (base : Instant) :
    policy.IsSafe maxFailures base := by
  intro database table name memory managers events fleet hLocks hNew hDistinct hRegister hRun
  have hRespects : ∀ node interval manager, .register node name interval ∈ events →
      managers[node]? = some manager → manager.options.Respects interval policy.lease := by
    intro node interval manager hEvent hManager
    obtain ⟨hPolicy, hFailures⟩ := hRegister node interval manager hEvent hManager
    have hSame : manager.options.policies.get interval = policy := hPolicy
    rw [Manager.Options.Respects, hSame, hFailures]
    exact ⟨rfl, h⟩
  have hBegin : (Fleet.around database table base memory managers).Legal := .around hLocks hNew
  have hStart : (Fleet.around database table base memory managers).Exclusive name policy.lease :=
    .around hNew hDistinct name policy.lease
  have hExclusive := hStart.run hBegin (.around hNew) (Fleet.cycle?_around hNew) hRespects hRun
  exact fun i j hI hJ => hExclusive.eq_of_isLive (hBegin.run hRun) hI hJ

namespace Manager.Options

variable {options : Options} {interval : IntervalClass}

/-- **Heartbeats that do not fit into the lease are not safe.** -/
theorem not_isSafe_of_lt {base reading : Instant} (hAccepted : options.validate = .ok ())
    (hValid : base.isValid = true) (hLeap : base.inLeapSecond = false)
    (hClock : base.after? ((options.policies.get interval).lease.nanos + 1) = some reading)
    (hOver : (options.policies.get interval).lease.nanos
      < options.maxFailures * (options.policies.get interval).heartbeat.nanos) :
    ¬ (options.policies.get interval).IsSafe options.maxFailures base := by
  intro hSafe
  obtain ⟨fleet, ⟨events, hEvents, hRun⟩, hFirst, hSecond⟩ :=
    Fleet.exists_two_holders hAccepted hValid hLeap hClock hOver
  have hNew : ∀ manager ∈ [Manager.fresh (options.withIdentity "a"),
      Manager.fresh (options.withIdentity "b")], manager.IsNew standardLockSpace := by
    intro manager hManager
    simp only [List.mem_cons, List.not_mem_nil, or_false] at hManager
    rcases hManager with rfl | rfl
    · exact isNew_fresh (validate_withIdentity hAccepted (by decide))
    · exact isNew_fresh (validate_withIdentity hAccepted (by decide))
  have hBoth : (0 : Nat) = 1 := by
    refine hSafe _ _ "job" _ _ events fleet (Memory.holdsLocks_ofLocks List.Pairwise.nil) hNew
      (show ["a", "b"].Nodup by decide) ?_ hRun 0 1 hFirst hSecond
    intro node other manager hEvent hManager
    rw [hEvents node "job" other hEvent]
    have hMember := List.mem_of_getElem? hManager
    simp only [List.mem_cons, List.not_mem_nil, or_false] at hMember
    rcases hMember with rfl | rfl
    · exact ⟨rfl, rfl⟩
    · exact ⟨rfl, rfl⟩
  cases hBoth

/-- **What options promise** for a class: when a job whose heartbeats fail is cancelled, when
its row is up for takeover, and whether the first comes before the second. -/
structure Timing (options : Options) (interval : IntervalClass) : Prop where
  cancelled : ∀ (database table name : String) (base : Instant) (memory : Memory)
    (managers : List Manager) (events : List Fleet.Event) (fleet : Fleet) (node : Nat),
    memory.HoldsLocks (lockSpace database table) →
    (∀ manager ∈ managers, manager.IsNew (lockSpace database table)) →
    managers[node]?.map Manager.options = some options →
    (∀ other, .register node name other ∈ events → other = interval) →
    (Fleet.around database table base memory managers).run? events = some fleet →
    fleet.IsLive node name →
    ∃ wrote, fleet.lastWrite? node name = some wrote ∧
      fleet.now ≤ wrote + options.maxFailures * (options.policies.get interval).heartbeat.nanos
  expired : ∀ (base now : Instant) (row : LockRow) (wrote time : Nat),
    base.isValid = true → base.inLeapSecond = false → wrote ≤ time →
    base.after? wrote = some row.updateTime → base.after? time = some now →
    (Attempt.afterJudgement row (options.policies.get interval).lease now = Attempt.claim row ↔
      wrote + (options.policies.get interval).lease.nanos < time)
  safe : ∀ base reading : Instant,
    base.isValid = true → base.inLeapSecond = false →
    base.after? ((options.policies.get interval).lease.nanos + 1) = some reading →
    ((options.policies.get interval).IsSafe options.maxFailures base ↔
      options.maxFailures * (options.policies.get interval).heartbeat.nanos
        ≤ (options.policies.get interval).lease.nanos)

/-- A row is claimed if it has expired. -/
theorem afterJudgement_eq_claim_iff {row : LockRow} {lease : Span} {now : Instant} :
    Attempt.afterJudgement row lease now = Attempt.claim row ↔ row.isExpired now lease = true := by
  unfold Attempt.afterJudgement
  split
  · next hExpired => exact ⟨fun _ => hExpired, fun _ => rfl⟩
  · next hFresh =>
    refine ⟨fun hClaim => ?_, fun hExpired => absurd hExpired hFresh⟩
    rcases Attempt.claim_cases row with ⟨-, hStage⟩ | ⟨-, hStage⟩ <;>
      · rw [hStage] at hClaim
        cases hClaim

/-- A job is cancelled as many periods after the last write as heartbeats may fail. -/
theorem cancelled_in_time {database table name : String} {base : Instant} {memory : Memory}
    {managers : List Manager} {events : List Fleet.Event} {fleet : Fleet} {node : Nat}
    (hLocks : memory.HoldsLocks (lockSpace database table))
    (hNew : ∀ manager ∈ managers, manager.IsNew (lockSpace database table))
    (hOptions : managers[node]?.map Manager.options = some options)
    (hRegister : ∀ other, .register node name other ∈ events → other = interval)
    (hRun : (Fleet.around database table base memory managers).run? events = some fleet)
    (hLive : fleet.IsLive node name) :
    ∃ wrote, fleet.lastWrite? node name = some wrote ∧
      fleet.now ≤ wrote
        + options.maxFailures * (options.policies.get interval).heartbeat.nanos := by
  have hBegin : (Fleet.around database table base memory managers).Legal := .around hLocks hNew
  have hPaced : fleet.Paced := (Fleet.Paced.around hNew).run hBegin hRun
  obtain ⟨id, owner, cycle, wrote, hCycle, rfl, -, hLast, hNow⟩ :=
    hPaced.of_isLive (hBegin.run hRun) hLive
  obtain ⟨hEvent, manager, hManager, hOwner⟩ :=
    Fleet.registered_of_run hBegin (Fleet.cycle?_around hNew) hRun hCycle
  have hHere : managers[node]? = some manager := hManager
  rw [hHere] at hOptions
  obtain rfl : manager.options = options := Option.some.inj hOptions
  obtain rfl := hOwner
  rw [hRegister cycle.interval hEvent] at hNow
  exact ⟨wrote, hLast, hNow⟩

/-- **Accepted options are safe if the failures fit into the lease**, and only then: a job is
cancelled as many periods after the last write as heartbeats may fail, its row is up for
takeover once the lease is over, and acceptance does not compare the two. -/
theorem timing_of_validate (hAccepted : options.validate = .ok ()) (interval : IntervalClass) :
    options.Timing interval := by
  constructor
  · intro database table name base memory managers events fleet node hLocks hNew hOptions
      hRegister hRun hLive
    exact cancelled_in_time hLocks hNew hOptions hRegister hRun hLive
  · intro base now row wrote time hValid hLeap hLE hRow hNow
    rw [afterJudgement_eq_claim_iff]
    exact LockRow.isExpired_after?_iff hValid hLeap hLE hRow hNow
  · intro base reading hValid hLeap hClock
    constructor
    · intro hSafe
      rcases Nat.lt_or_ge (options.policies.get interval).lease.nanos
        (options.maxFailures * (options.policies.get interval).heartbeat.nanos) with hOver | hFits
      · exact absurd hSafe (not_isSafe_of_lt hAccepted hValid hLeap hClock hOver)
      · exact hFits
    · exact fun hFits => LeasePolicy.isSafe_of_le hFits base

/-- The standard options, which are safe. -/
theorem timing_standard : (ofIdentity "a").Timing .short :=
  timing_of_validate (by decide) .short

end Manager.Options

namespace Fleet

/-- Options that are accepted, with a heartbeat that is only just shorter than the lease. -/
def tightOptions (identity : String) : Manager.Options :=
  { Manager.Options.ofIdentity identity with
    policies := PolicyTable.standard.set .short ⟨.ofSeconds 10, .ofSeconds 9⟩ }

/-- A node gets a lock, its first heartbeat fails, and another node comes when the lease is
over. -/
def lateCancel : List Event :=
  [.register 0 "job" .short, .move 0 0 (.turn 0), .move 0 0 .serve, .move 0 0 .read,
    .move 0 0 .serve, .move 0 0 (.turn 0), .move 0 0 (.turn 0), .move 0 0 (.turn 0),
    .move 0 0 (.turn 0), .pass 9000000000, .move 0 0 .expire, .move 0 0 .read,
    .move 0 0 (.fail (.reported "timeout")), .move 0 0 (.turn 0), .pass 1000000001,
    .register 1 "job" .short, .move 1 0 (.turn 0), .move 1 0 .serve, .move 1 0 .serve,
    .move 1 0 .read, .move 1 0 .read, .move 1 0 .serve, .move 1 0 (.turn 0),
    .move 1 0 (.turn 0)]

/-- **Accepted options are not safe.**  The row is taken over, and both nodes run the job. -/
theorem two_holders_of_lateCancel :
    (tightOptions "a").validate = .ok () ∧ (tightOptions "b").validate = .ok () ∧
      ∃ fleet,
        (around Lock.standardDatabase Lock.standardTable ⟨0, 0⟩ (.ofLocks standardLockSpace [])
          [.fresh (tightOptions "a"), .fresh (tightOptions "b")]).run? lateCancel = some fleet ∧
        (fleet.lockRow? "job").map LockRow.owner = some "b" ∧
        fleet.IsLive 0 "job" ∧ fleet.IsLive 1 "job" := by
  have hEvaluated :
      ((around Lock.standardDatabase Lock.standardTable ⟨0, 0⟩ (.ofLocks standardLockSpace [])
        [.fresh (tightOptions "a"), .fresh (tightOptions "b")]).run? lateCancel).any (fun fleet =>
          decide ((fleet.lockRow? "job").map LockRow.owner = some "b" ∧
            fleet.IsLive 0 "job" ∧ fleet.IsLive 1 "job")) = true := by
    decide
  obtain ⟨fleet, hRun, hHeld⟩ := (Option.any_eq_true _ _).mp hEvaluated
  exact ⟨by decide, by decide, fleet, hRun, of_decide_eq_true hHeld⟩

end Fleet

end Leasehold
