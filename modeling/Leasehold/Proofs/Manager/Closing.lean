import Leasehold.Proofs.Lock.RowStep
import Leasehold.Proofs.Manager.Drain

/-!
# What a shutdown leaves behind

A manager whose flag was raised frees every name without the passing of time, and does little on
the way: no attempt begins, a name has no more heartbeats than are due already, and no row changes
hands but by an attempt that is under way.

* `Session.begun`: how often the cycle of a name has come into a phase that passes a test.
* `Session.overdue`: the heartbeats of a name that are due.
* `Memory.HasTenure`: who holds the row of a name, and since which takeover.
* `Session.Stored`: a session around a memory store.
* `Session.Stored.Keeps`: what is kept while no attempt on a name is under way.
* `Session.Drains`, `Session.drains_of_run`: what a manager does after its flag was raised.
-/

namespace Leasehold

namespace Session

variable {start session next : Session} {event : Event} {events : List Event} {name : String}

/-! ## What begins -/

/-- Whether the cycle of a name is in a phase that passes a test. -/
def stands (session : Session) (test : Cycle.Phase → Bool) (name : String) : Bool :=
  (session.manager.driver? name).any fun cycle => test cycle.phase

/-- How often the cycle of a name has come into a phase that passes a test. -/
def begun (start : Session) (events : List Event) (test : Cycle.Phase → Bool) (name : String) :
    Nat :=
  (trace step? start events).countP fun (before, _, after) =>
    !before.stands test name && after.stands test name

theorem begun_snoc (hRun : start.run? events = some session)
    (hStep : session.step? event = some next) (test : Cycle.Phase → Bool) (name : String) :
    begun start (events ++ [event]) test name
      = begun start events test name
        + if !session.stands test name && next.stands test name then 1 else 0 := by
  rw [begun, trace_snoc hRun hStep, List.countP_append, List.countP_singleton, begun]

/-- The heartbeats of a name that are due. -/
def overdue (session : Session) (name : String) : Nat :=
  ((session.manager.driver? name).map fun cycle =>
    cycle.phase.overdue session.now (session.manager.policy cycle.interval).heartbeat).getD 0

theorem overdue_of_driver? {cycle : Cycle} (h : session.manager.driver? name = some cycle) :
    session.overdue name
      = cycle.phase.overdue session.now (session.manager.policy cycle.interval).heartbeat := by
  rw [overdue, h]
  rfl

theorem stands_of_driver? {cycle : Cycle} (h : session.manager.driver? name = some cycle)
    (test : Cycle.Phase → Bool) : session.stands test name = test cycle.phase := by
  rw [stands, h]
  rfl

/-- After a move the cycle of a name stands where it has moved to, unless it has come to its
end. -/
theorem stands_of_moved {moved : Cycle}
    (h : session.manager.driver? name = if moved.phase.isLive then some moved else none)
    {test : Cycle.Phase → Bool} (hOver : test .over = false) :
    session.stands test name = test moved.phase := by
  cases hPhase : moved.phase with
  | «over» =>
      rw [hPhase] at h
      rw [stands, h, hOver]
      rfl
  | _ =>
      rw [hPhase] at h
      rw [stands_of_driver? h, hPhase]

/-- Its heartbeats are those of the phase that it has moved to. -/
theorem overdue_of_moved {moved : Cycle}
    (h : session.manager.driver? name = if moved.phase.isLive then some moved else none) :
    session.overdue name
      = moved.phase.overdue session.now (session.manager.policy moved.interval).heartbeat := by
  cases hPhase : moved.phase with
  | «over» =>
      rw [hPhase] at h
      rw [overdue, h]
      rfl
  | _ =>
      rw [hPhase] at h
      rw [overdue_of_driver? h, hPhase]

/-- More heartbeats than these are never due. -/
theorem overdue_le {cycle : Cycle} (h : session.manager.driver? name = some cycle) :
    session.overdue name
      ≤ Heartbeat.tolerance / (session.manager.policy cycle.interval).heartbeat.nanos + 1 := by
  rw [overdue_of_driver? h]
  cases cycle.phase with
  | beating beat signal => exact beat.overdue_le _ _
  | renewing beat renewal signal => exact beat.overdue_le _ _
  | _ => exact Nat.zero_le _

namespace Closing

/-- **No attempt begins.** -/
theorem isTrying_of_step? (h : session.Closing) (hStep : session.step? event = some next)
    (hTrying : next.stands Cycle.Phase.isTrying name = true) :
    session.stands Cycle.Phase.isTrying name = true := by
  cases h.sound.progress hStep name with
  | idle hState hDriver hBooks =>
      rw [stands, ← hDriver]
      exact hTrying
  | registered hState hDriver hNextState hNextDriver hBegun hBooks =>
      rw [stands_of_driver? hNextDriver, hBegun] at hTrying
      cases hTrying
  | @moved id draw stimulus cycle moved registration hEvent hCycle hName hSuits hMoves hState
      hShows hDriver hNextState hNextDriver hBooks =>
      rw [stands_of_driver? hDriver]
      rw [stands_of_moved hNextDriver rfl] at hTrying
      exact hMoves.move.isTrying_of_flag h.flag hTrying

/-- So none has begun in any run. -/
theorem begun_isTrying (h : session.Closing) (events : List Event) (name : String) :
    begun session events Cycle.Phase.isTrying name = 0 := by
  refine List.countP_eq_zero.mpr fun step hStep => ?_
  obtain ⟨before, event, after⟩ := step
  obtain ⟨early, late, hOccurs⟩ := exists_occurs_of_mem_trace hStep
  intro hBegun
  obtain ⟨hBefore, hAfter⟩ := Bool.and_eq_true_iff.mp hBegun
  rw [(h.run hOccurs.run).isTrying_of_step? hOccurs.step hAfter] at hBefore
  cases hBefore

/-- A heartbeat begins only if it is due, and is due no more then. -/
theorem overdue_of_step? (h : session.Closing) (hStep : session.step? event = some next)
    (hTime : ∀ nanos, event ≠ .pass nanos) (name : String) :
    next.overdue name
        + (if !session.stands Cycle.Phase.isRenewing name
            && next.stands Cycle.Phase.isRenewing name then 1 else 0)
      ≤ session.overdue name := by
  have hNow := now_of_step? hStep hTime
  have hPolicy : next.manager.policy = session.manager.policy := by
    funext interval
    rw [Manager.policy, (change_of_step? hStep).options, Manager.policy]
  cases h.sound.progress hStep name with
  | idle hState hDriver hBooks =>
      rw [overdue, stands, stands, hDriver, hNow, hPolicy, Bool.not_and_self]
      exact Nat.le_refl _
  | registered hState hDriver hNextState hNextDriver hBegun hBooks =>
      have hNone : Cycle.Phase.isRenewing .retrying = false := rfl
      rw [overdue_of_driver? hNextDriver, stands_of_driver? hNextDriver, hBegun, hNone,
        Bool.and_false]
      exact Nat.zero_le _
  | @moved id draw stimulus cycle moved registration hEvent hCycle hName hSuits hMoves hState
      hShows hDriver hNextState hNextDriver hBooks =>
      rw [overdue_of_moved hNextDriver, stands_of_moved hNextDriver rfl,
        overdue_of_driver? hDriver, stands_of_driver? hDriver, hNow, hPolicy, hMoves.interval]
      exact hMoves.move.overdue_add_le hSuits (h.periods cycle.interval)

/-- **No more heartbeats begin than are due**, unless time passes. -/
theorem begun_isRenewing_le (h : session.Closing) (hRun : session.run? events = some next)
    (hTime : ∀ nanos, .pass nanos ∉ events) (name : String) :
    next.overdue name + begun session events Cycle.Phase.isRenewing name
      ≤ session.overdue name := by
  refine timeless_induction (motive := fun events later =>
    later.overdue name + begun session events Cycle.Phase.isRenewing name
      ≤ session.overdue name) (Nat.le_refl _) ?_ hRun hTime
  intro events before event after hBefore ih hStep hEvent
  have hLast := (h.run hBefore).overdue_of_step? hStep hEvent name
  rw [begun_snoc hBefore hStep]
  omega

end Closing

end Session

/-! ## The rows -/

/-- Who holds a row, and since which takeover. -/
def LockRow.tenure (row : LockRow) : String × Int := (row.owner, row.version)

/-- A renewal leaves its row in the same hands. -/
theorem Renewal.tenure_rowAfter (renewal : Renewal) (row? : Option LockRow) :
    (renewal.rowAfter row?).map LockRow.tenure = row?.map LockRow.tenure := by
  unfold rowAfter
  split
  · cases row? with
    | none => rfl
    | some row =>
        rw [Option.map_some, Option.map_some]
        split <;> rfl
  · rfl

namespace Memory

/-- **The row of a name is in certain hands**: there is a lock table in which it has this owner
and this version, or in which there is no such row. -/
structure HasTenure (memory : Memory) (space : Space) (name : String)
    (tenure? : Option (String × Int)) : Prop where
  locks : memory.HoldsLocks space
  tenure : (memory.lockRow? space name).map LockRow.tenure = tenure?

/-- A call on one row leaves every row in the same hands if it leaves this one there. -/
theorem ChangesRow.hasTenure {memory later : Memory} {space : Space} {name other : String}
    {row? : Option LockRow} {tenure? : Option (String × Int)}
    (h : memory.ChangesRow later space other row?) (hTenure : memory.HasTenure space name tenure?)
    (hRow : name = other → row?.map LockRow.tenure = tenure?) :
    later.HasTenure space name tenure? := by
  refine ⟨h.locks, ?_⟩
  by_cases hName : name = other
  · rw [hName, h.lockRow?_self]
    exact hRow hName
  · rw [h.lockRow?_of_ne hName]
    exact hTenure.tenure

end Memory

/-- The call that a cycle waits for. -/
def Cycle.Need.call? : Need → Option Call
  | .answer call => some call
  | _ => none

theorem Cycle.Need.eq_of_call? {need : Need} {call : Call} (h : need.call? = some call) :
    need = .answer call := by
  cases need with
  | answer other => exact congrArg Need.answer (Option.some.inj h)
  | _ => cases h

namespace Session

/-- The call that an event answers. -/
def answered? (session : Session) : Event → Option Call
  | .move id _ (.response (.reply _)) =>
    (session.manager.cycles[id]?).bind fun cycle => cycle.phase.need.call?
  | _ => none

/-- A session around a memory store. -/
structure Stored where
  session : Session
  memory : Memory

namespace Stored

/-- The store after an event, and whether it has served the call that the event answers. -/
def served (stored : Stored) (event : Event × Bool) : Memory :=
  match stored.session.answered? event.1, event.2 with
  | some call, true => (stored.memory.perform call).2
  | _, _ => stored.memory

/-- One event; the answer to a call may say anything, whether or not the store has served it. -/
def step? (stored : Stored) (event : Event × Bool) : Option Stored :=
  (stored.session.step? event.1).map fun next => ⟨next, stored.served event⟩

/-- A run of events. -/
def run? (stored : Stored) (events : List (Event × Bool)) : Option Stored :=
  runs? step? stored events

/-- **What is kept while no attempt on a name is under way**: the owner and the version of its
row. -/
structure Keeps (database table name : String) (tenure? : Option (String × Int))
    (stored : Stored) : Prop where
  closing : stored.session.Closing
  space : stored.session.manager.options.space = lockSpace database table
  quiet : stored.session.stands Cycle.Phase.isTrying name = false
  row : stored.memory.HasTenure (lockSpace database table) name tenure?

variable {stored next : Stored} {event : Event × Bool} {events : List (Event × Bool)}
  {database table name : String} {tenure? : Option (String × Int)}

namespace Keeps

/-- The call of an attempt that is under way is one on the row of another name. -/
theorem perform_attempt (h : Keeps database table name tenure? stored) {attempt : Attempt}
    {id : Nat} {cycle : Cycle} {call : Call}
    (hCycle : stored.session.manager.cycles[id]? = some cycle)
    (hPhase : cycle.phase = .attempting attempt) (hCall : attempt.request? = some (.call call)) :
    (stored.memory.perform call).2.HasTenure (lockSpace database table) name tenure? := by
  have hClaimant : attempt.claimant = stored.session.manager.claimant cycle.name := by
    have hFits := h.closing.sound.fits id cycle hCycle
    rw [hPhase] at hFits
    exact hFits
  have hSpace : attempt.claimant.space = lockSpace database table := by
    rw [hClaimant]
    exact h.space
  have hOther : name ≠ attempt.claimant.name := by
    rintro rfl
    have hDriver := h.closing.sound.coherent.driver?_eq_some hCycle (by rw [hPhase]; rfl)
    have hQuiet : stored.session.stands Cycle.Phase.isTrying cycle.name = false := by
      have hName := h.quiet
      rw [hClaimant] at hName
      exact hName
    rw [stands_of_driver? hDriver, hPhase] at hQuiet
    exact absurd (Attempt.result?_of_request? hCall) (Bool.eq_false_iff.mp hQuiet)
  obtain ⟨reply, memory, hPerform, hChange, -⟩ := Attempt.perform_eq hSpace h.row.locks rfl hCall
  rw [hPerform]
  exact hChange.hasTenure h.row fun hName => absurd hName hOther

/-- The call of a renewal says only that the owner of a row is alive. -/
theorem perform_renewal (h : Keeps database table name tenure? stored) {beat : Heartbeat}
    {renewal : Renewal} {signal : SignalId} {id : Nat} {cycle : Cycle} {call : Call}
    (hCycle : stored.session.manager.cycles[id]? = some cycle)
    (hPhase : cycle.phase = .renewing beat renewal signal)
    (hCall : renewal.request? = some (.call call)) :
    (stored.memory.perform call).2.HasTenure (lockSpace database table) name tenure? := by
  have hClaimant : renewal.claimant = stored.session.manager.claimant cycle.name := by
    have hFits := h.closing.sound.fits id cycle hCycle
    rw [hPhase] at hFits
    exact hFits
  have hSpace : renewal.claimant.space = lockSpace database table := by
    rw [hClaimant]
    exact h.space
  obtain ⟨reply, memory, hPerform, hChange, -⟩ := Renewal.perform_eq hSpace h.row.locks rfl hCall
  rw [hPerform]
  apply hChange.hasTenure h.row
  rintro rfl
  rw [Renewal.tenure_rowAfter]
  exact h.row.tenure

/-- So an answered call leaves the row in the same hands. -/
theorem perform (h : Keeps database table name tenure? stored) {happening : Event} {call : Call}
    (hCall : stored.session.answered? happening = some call) :
    (stored.memory.perform call).2.HasTenure (lockSpace database table) name tenure? := by
  unfold answered? at hCall
  split at hCall
  · obtain ⟨cycle, hCycle, hNeed⟩ := Option.bind_eq_some_iff.mp hCall
    rcases Cycle.Phase.need_eq_answer (Cycle.Need.eq_of_call? hNeed) with
      ⟨attempt, hPhase, hAttempt⟩ | ⟨beat, renewal, signal, hPhase, hRenewal⟩
    · exact h.perform_attempt hCycle hPhase hAttempt
    · exact h.perform_renewal hCycle hPhase hRenewal
  · cases hCall

/-- **Every event keeps the owner and the version.** -/
theorem step (h : Keeps database table name tenure? stored)
    (hStep : stored.step? event = some next) : Keeps database table name tenure? next := by
  obtain ⟨session, hSession, rfl⟩ := Option.map_eq_some_iff.mp hStep
  have hQuiet : session.stands Cycle.Phase.isTrying name = false := by
    refine Bool.eq_false_iff.mpr fun hTrying => ?_
    have hBefore := h.closing.isTrying_of_step? hSession hTrying
    rw [h.quiet] at hBefore
    cases hBefore
  have hRow : (stored.served event).HasTenure (lockSpace database table) name tenure? := by
    unfold served
    split
    · next call hCall _ => exact h.perform hCall
    · exact h.row
  refine ⟨h.closing.step hSession, ?_, hQuiet, hRow⟩
  rw [(change_of_step? hSession).options]
  exact h.space

/-- So does every run. -/
theorem run (h : Keeps database table name tenure? stored)
    (hRun : stored.run? events = some next) : Keeps database table name tenure? next :=
  runs?_induction (motive := fun _ later => Keeps database table name tenure? later) h
    (fun _ _ _ _ _ hBefore hStep => hBefore.step hStep) hRun

end Keeps
end Stored

/-! ## The whole -/

/-- **What a manager does after its flag was raised**: without the passing of time it frees every
name. -/
structure Drains (database table : String) (session : Session) : Prop where
  /-- There is only so much work left that can be done before time passes, -/
  bounded : ∀ (events : List Event) (later : Session), session.run? events = some later →
    (∀ nanos, .pass nanos ∉ events) → events.countP Event.isWork ≤ session.work
  /-- it can be done to its end from wherever it has come, -/
  finished : ∀ (events : List Event) (later : Session), session.run? events = some later →
    ∃ more last, later.run? more = some last ∧ (∀ event ∈ more, event.isWork = true) ∧ last.Still
  /-- and wherever it is done to its end, no name is registered and none ever will be. -/
  emptied : ∀ (events : List Event) (later : Session), session.run? events = some later →
    later.Still → ∀ (more : List Event) (last : Session), later.run? more = some last →
      last.manager.registered = []
  /-- No attempt begins any more, -/
  attempts : ∀ (events : List Event) (name : String),
    begun session events Cycle.Phase.isTrying name = 0
  /-- a name has no more heartbeats than are due already, -/
  renewals : ∀ (events : List Event) (later : Session), session.run? events = some later →
    (∀ nanos, .pass nanos ∉ events) → ∀ name,
      begun session events Cycle.Phase.isRenewing name ≤ session.overdue name
  /-- which fit into the time that a heartbeat may be late, -/
  due : ∀ (name : String) (cycle : Cycle), session.manager.driver? name = some cycle →
    session.overdue name
      ≤ 1 + Heartbeat.tolerance / (session.manager.policy cycle.interval).heartbeat.nanos
  /-- so that there is one at most if the period is longer, -/
  single : ∀ (name : String) (cycle : Cycle), session.manager.driver? name = some cycle →
    Heartbeat.tolerance < (session.manager.policy cycle.interval).heartbeat.nanos →
      session.overdue name ≤ 1
  /-- and a row on which no attempt is under way keeps its owner and its version. -/
  rows : ∀ (memory : Memory), memory.HoldsLocks (lockSpace database table) →
    ∀ (events : List (Event × Bool)) (later : Stored),
      Stored.run? ⟨session, memory⟩ events = some later →
      ∀ name, session.stands Cycle.Phase.isTrying name = false →
        (later.memory.lockRow? (lockSpace database table) name).map LockRow.tenure
          = (memory.lockRow? (lockSpace database table) name).map LockRow.tenure

/-- **A shutdown drains its manager.** -/
theorem drains_of_run {options : Manager.Options} {capacity : Nat} {manager : Manager}
    {database table : String} (hNew : Manager.new options capacity = .ok manager)
    (hSpace : options.space = lockSpace database table) {events : List Event} {session : Session}
    (hRun : (around manager).run? events = some session)
    (hFlag : session.manager.shutDown = true) : Drains database table session := by
  have hClosing := Closing.of_run hNew hRun hFlag
  constructor
  case bounded =>
    intro events later hLater hTime
    have hWork := hClosing.count_le_work hLater hTime
    omega
  case finished => exact fun events later hLater => (hClosing.run hLater).exists_still
  case emptied =>
    intro events later hLater hStill more last hLast
    have hThere := hClosing.run hLater
    exact (hThere.run hLast).registered_eq_nil (hThere.still_of_run hStill hLast)
  case attempts => exact hClosing.begun_isTrying
  case renewals =>
    intro events later hLater hTime name
    have hBegun := hClosing.begun_isRenewing_le hLater hTime name
    omega
  case due =>
    intro name cycle hDriver
    rw [Nat.add_comm]
    exact overdue_le hDriver
  case single =>
    intro name cycle hDriver hLonger
    have hDue := overdue_le hDriver
    rwa [Nat.div_eq_of_lt hLonger] at hDue
  case rows =>
    intro memory hLocks events later hLater name hQuiet
    have hOptions : session.manager.options.space = lockSpace database table := by
      rw [options_of_run hRun, (Manager.eq_of_new hNew).2]
      exact hSpace
    have hStart : Stored.Keeps database table name
        ((memory.lockRow? (lockSpace database table) name).map LockRow.tenure)
        ⟨session, memory⟩ := ⟨hClosing, hOptions, hQuiet, hLocks, rfl⟩
    exact (hStart.run hLater).row.tenure

/-- A lock is held, its first heartbeat has been due for a nanosecond, an attempt on another lock
is under way, and the manager is shut down. -/
def lateShutdown : List Event :=
  .enter "job" .short :: .enroll 0 :: firstLease 0
    ++ [.enter "other" .medium, .enroll 0, .move 1 0 .turn, .pass 60000000001, .raiseFlag,
      .cancelRegistered]

/-- The store then, with a row of the lock and one of another node. -/
def sharedStore : Memory :=
  .ofLocks standardLockSpace [⟨"far", 7, "b", ⟨0, 0⟩⟩, ⟨"job", 0, "a", ⟨0, 0⟩⟩]

theorem drains_of_lateShutdown :
    Manager.new (.ofIdentity "a") 1 = .ok soleManager ∧
      ∃ session, (around soleManager).run? lateShutdown = some session ∧
        session.manager.shutDown = true ∧
        session.manager.registered = [("job", .short), ("other", .medium)] ∧
        (∃ events later, session.run? events = some later ∧
          (∀ event ∈ events, event.isWork = true) ∧ later.manager.registered = []) ∧
        session.overdue "job" = 1 ∧
        sharedStore.HoldsLocks standardLockSpace ∧
        ∀ (events : List (Event × Bool)) (later : Stored),
          Stored.run? ⟨session, sharedStore⟩ events = some later →
          (later.memory.lockRow? standardLockSpace "job").map LockRow.tenure = some ("a", 0) ∧
          (later.memory.lockRow? standardLockSpace "far").map LockRow.tenure = some ("b", 7) := by
  have hNew : Manager.new (.ofIdentity "a") 1 = .ok soleManager := rfl
  have hRuns : ((around soleManager).run? lateShutdown).isSome = true := by decide
  obtain ⟨session, hRun⟩ := Option.isSome_iff_exists.mp hRuns
  have hEnd : ((around soleManager).run? lateShutdown).map (fun session =>
      (session.manager.shutDown, session.manager.registered, session.overdue "job",
        session.stands Cycle.Phase.isTrying "job", session.stands Cycle.Phase.isTrying "far"))
      = some (true, [("job", .short), ("other", .medium)], 1, false, false) := by decide
  rw [hRun, Option.map_some] at hEnd
  simp only [Option.some.injEq, Prod.mk.injEq] at hEnd
  obtain ⟨hFlag, hRegistered, hDue, hJob, hFar⟩ := hEnd
  have hLocks : sharedStore.HoldsLocks standardLockSpace :=
    Memory.holdsLocks_ofLocks (by decide)
  have hDrains := drains_of_run hNew (rfl : _ = lockSpace Lock.standardDatabase Lock.standardTable)
    hRun hFlag
  obtain ⟨events, later, hLater, hWork, hStill⟩ := hDrains.finished [] session rfl
  refine ⟨hNew, session, hRun, hFlag, hRegistered, ⟨events, later, hLater, hWork, ?_⟩, hDue,
    hLocks, ?_⟩
  · exact hDrains.emptied events later hLater hStill [] later rfl
  · intro events later hLater
    exact ⟨hDrains.rows sharedStore hLocks events later hLater "job" hJob,
      hDrains.rows sharedStore hLocks events later hLater "far" hFar⟩

/-- A manager whose heartbeats are a millisecond apart. -/
def hastyOptions : Manager.Options :=
  { Manager.Options.ofIdentity "a" with
    policies := { PolicyTable.standard with short := ⟨.ofSeconds 10, .ofMillis 1⟩ } }

/-- Its first heartbeat takes four milliseconds, and it is shut down then. -/
def slowBeat : List Event :=
  .enter "job" .short :: .enroll 0 :: firstLease 0
    ++ [.pass 1000000, .move 0 0 .deadline, .move 0 0 (.response (.time ⟨0, 1000000⟩)),
      .pass 4000000, .raiseFlag, .cancelRegistered]

/-- The heartbeat ends and the next one begins, and so once more. -/
def twoBeats : List Event :=
  [.move 0 0 (.response (.reply (.ok (.number 1)))), .move 0 0 .turn, .move 0 0 .deadline,
    .move 0 0 (.response (.time ⟨0, 5000000⟩)), .move 0 0 (.response (.reply (.ok (.number 1)))),
    .move 0 0 .turn, .move 0 0 .deadline]

/-- **Heartbeats that are due already may still begin**: a name can have two of them. -/
theorem two_heartbeats_of_slowBeat :
    ¬∀ (options : Manager.Options) (capacity : Nat) (manager : Manager) (events : List Event)
      (session : Session) (more : List Event) (later : Session) (name : String),
      Manager.new options capacity = .ok manager →
      (around manager).run? events = some session → session.manager.shutDown = true →
      session.run? more = some later → (∀ nanos, .pass nanos ∉ more) →
      begun session more Cycle.Phase.isRenewing name ≤ 1 := by
  intro hClaim
  have hNew : Manager.new hastyOptions 1
      = .ok { soleManager with options := hastyOptions } := rfl
  have hRuns : ((around { soleManager with options := hastyOptions }).run? slowBeat).isSome
      = true := by decide
  obtain ⟨session, hRun⟩ := Option.isSome_iff_exists.mp hRuns
  have hEnd : ((around { soleManager with options := hastyOptions }).run? slowBeat).map
      (fun session => (session.manager.shutDown, (session.run? twoBeats).isSome,
        begun session twoBeats Cycle.Phase.isRenewing "job"))
      = some (true, true, 2) := by decide
  rw [hRun, Option.map_some] at hEnd
  simp only [Option.some.injEq, Prod.mk.injEq] at hEnd
  obtain ⟨hFlag, hMore, hTwo⟩ := hEnd
  obtain ⟨later, hLater⟩ := Option.isSome_iff_exists.mp hMore
  have hOne := hClaim hastyOptions 1 _ slowBeat session twoBeats later "job" hNew hRun hFlag hLater
    (by simp [twoBeats])
  rw [hTwo] at hOne
  exact absurd hOne (by decide)

end Session
end Leasehold
