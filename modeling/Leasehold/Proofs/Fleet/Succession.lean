import Leasehold.Proofs.Fleet.Handoff
import Leasehold.Proofs.Manager.Drain

/-!
# Succession

A task that waits alone for the row of a silent owner has a run in which it gets the lock: each of
its steps brings it nearer to the attempt that is due.

* `Cycle.Phase.distance`: the steps that are left up to the end of the next attempt.
* `Fleet.IsAlone`: no other task moves.
* `Handoff.Nears`: a calm run, and how far it is from its goal; `Handoff.Nears.exists_next` is one
  step.
* `Handoff.exists_won`: the lock is got.
-/

namespace Leasehold

/-- The steps that are left to a task in pursuit up to the end of its next attempt, at most. -/
def Cycle.Phase.distance (now : Nat) : Cycle.Phase → Nat
  | .waiting due => if now < due then 9 else 8
  | .retrying => 7
  | .attempting attempt => attempt.stage.rest + 1
  | _ => 0

theorem Cycle.Phase.distance_waiting (now due : Nat) :
    8 ≤ (Cycle.Phase.waiting due).distance now ∧ (Cycle.Phase.waiting due).distance now ≤ 9 := by
  simp only [distance]
  split <;> omega

/-- **A move brings a task nearer to the end of its attempt**, but for a miss. -/
theorem Cycle.Move.distance_lt {manager : Manager} {cycle : Cycle} {now draw : Nat} {flag : Bool}
    {stimulus : Stimulus} {phase phase' : Cycle.Phase}
    (h : Cycle.Move manager cycle ⟨now, draw⟩ stimulus phase phase')
    (hSuits : stimulus.suits now flag phase.need = true) (hPhase : phase.isSettled = false) :
    phase'.distance now < phase.distance now ∨
      ∃ attempt due, phase = .attempting attempt ∧ phase' = .waiting due := by
  cases h with
  | quit | win => exact .inl (Nat.succ_pos _)
  | attempt => exact .inl (Nat.lt_succ_self 6)
  | miss => exact .inr ⟨_, _, rfl, rfl⟩
  | answer attempt response => exact .inl (Nat.succ_lt_succ (Attempt.rest_resume hSuits))
  | retry due => exact .inl (Cycle.Phase.distance_waiting now due).1
  | wakeWaiting due =>
      refine .inl (Nat.lt_of_lt_of_le ?_ (Cycle.Phase.distance_waiting now due).1)
      exact Nat.succ_pos 7
  | _ => cases hPhase

namespace Fleet

variable {fleet next : Fleet} {node id : Nat} {manager : Manager} {cycle : Cycle}

/-- No task but one moves any more. -/
def IsAlone (fleet : Fleet) (node id : Nat) : Prop :=
  ∀ other number options cycle, fleet.cycle? other number = some (options, cycle) →
    other ≠ node ∨ number ≠ id → cycle.phase.need = .finished

/-- A move of the task leaves the others as they are. -/
theorem IsAlone.act {act : Act} (h : fleet.IsAlone node id)
    (hManager : fleet.managers[node]? = some manager) (hCycle : manager.cycles[id]? = some cycle)
    (hAct : fleet.act? node id manager cycle act = some next) : next.IsAlone node id := by
  obtain ⟨draw, stimulus, hManagers, hSuits⟩ := exists_suits_of_act? hAct
  obtain ⟨moved, hMoves⟩ : ∃ moved, manager.Moves
      (manager.step id ⟨fleet.now, draw⟩ stimulus).1 id cycle ⟨fleet.now, draw⟩ stimulus moved :=
    Manager.exists_moves_of_suits hCycle hSuits
  intro other number options task hTask hOther
  have hSame := (cycle?_of_moves hManager hCycle hMoves).2 other number hOther
  refine h other number options task ?_ hOther
  rw [← hSame, ← hTask, cycle?, cycle?, hManagers, withManager]

/-- While the task pauses, time passes up to the end of the pause. -/
theorem IsAlone.rests {due : Nat} (h : fleet.IsAlone node id)
    (hManager : fleet.managers[node]? = some manager) (hCycle : manager.cycles[id]? = some cycle)
    (hNeed : cycle.phase.need = .pause due) (hFlag : manager.shutDown = false)
    (hNow : fleet.now ≤ due) : fleet.rests (due - fleet.now) = true := by
  refine List.all_eq_true.mpr fun other hOther => List.all_eq_true.mpr fun task hTask => ?_
  obtain ⟨place, hPlace⟩ := List.getElem?_of_mem hOther
  obtain ⟨number, hNumber⟩ := List.getElem?_of_mem hTask
  by_cases hOwn : place = node ∧ number = id
  · obtain ⟨rfl, rfl⟩ := hOwn
    obtain rfl := Option.some.inj (hManager.symm.trans hPlace)
    obtain rfl := Option.some.inj (hCycle.symm.trans hNumber)
    have hTime : fleet.now + (due - fleet.now) ≤ due := by omega
    simp [cycleRests, hNeed, hFlag, hTime]
  · have hOver : task.phase.need = .finished :=
      h place number other.options task (Legal.cycle? hPlace hNumber) (by omega)
    rw [cycleRests, hOver]

/-- What a task needs is there: its pause is over, or the clock can be read. -/
def IsReady (fleet : Fleet) : Cycle.Need → Prop
  | .pause due => due ≤ fleet.now
  | .time => fleet.reading?.isSome = true
  | .finished => False
  | _ => True

/-- A task that is ready moves, and no call fails. -/
theorem IsReady.exists_act (h : fleet.IsReady cycle.phase.need) (node id : Nat)
    (manager : Manager) :
    ∃ act next, (∀ error, act ≠ .fail error) ∧
      fleet.act? node id manager cycle act = some next := by
  generalize hNeed : cycle.phase.need = need at h
  cases need with
  | nothing => exact ⟨.turn 0, _, by simp, by simp only [act?, hNeed]; rfl⟩
  | answer call => exact ⟨.serve, _, by simp, by simp only [act?, hNeed]; rfl⟩
  | time =>
      obtain ⟨reading, hReading⟩ := Option.isSome_iff_exists.mp h
      exact ⟨.read, _, by simp, by simp only [act?, hNeed, hReading]; rfl⟩
  | pause due =>
      have hDue : due ≤ fleet.now := h
      exact ⟨.expire, _, by simp, by simp only [act?, hNeed, if_pos hDue]; rfl⟩
  | finished => exact h.elim

end Fleet

namespace Handoff

variable {handoff : Handoff} {start fleet next : Fleet} {events : List Fleet.Event}
  {node id k distance : Nat} {manager : Manager} {cycle : Cycle} {pursuit : Pursuit}
  {changes : List (Nat × Option LockRow)}

/-- **A calm run, and its distance from the end of the attempt that is due.** -/
structure Nears (handoff : Handoff) (k node id : Nat) (start : Fleet) (events : List Fleet.Event)
    (fleet : Fleet) (distance : Nat) : Prop where
  run : start.run? events = some fleet
  calm : handoff.CalmRun node id start events
  alone : fleet.IsAlone node id
  left : ∃ manager cycle, fleet.managers[node]? = some manager ∧
    manager.cycles[id]? = some cycle ∧
    10 * (k - (start.pursuit node id events).delays.length) + cycle.phase.distance fleet.now
      = distance

/-- There are no more delays than those before the attempt that is due. -/
theorem Stands.length_le {phase : Cycle.Phase}
    (h : handoff.Stands k pursuit changes fleet phase) : pursuit.delays.length ≤ k := by
  cases h with
  | awaiting hMeets hRow hChanges hCount => exact hCount
  | taking hResult hNow hReading hChanges hCount => exact Nat.le_of_eq hCount
  | taken hSettled hReading hChanges hCount => exact Nat.le_of_eq hCount

/-- A hand-off that has not ended is pursued. -/
theorem Stands.isSettled {phase : Cycle.Phase}
    (h : handoff.Stands k pursuit changes fleet phase) (hEnds : pursuit.ends = []) :
    phase.isSettled = false := by
  cases h with
  | awaiting hMeets => exact isSettled_of_meets hMeets
  | taking => rfl
  | taken hSettled hReading hChanges hCount hWon =>
      rw [hEnds] at hWon
      cases hWon

/-- A task in pursuit is ready, once the pause after its last attempt is over. -/
theorem isReady_of_pursuit {phase : Cycle.Phase} (hPhase : phase.isSettled = false)
    (hReading : fleet.reading?.isSome = true)
    (hDue : ∀ due, phase = .waiting due → due ≤ fleet.now) : fleet.IsReady phase.need := by
  cases phase with
  | retrying => trivial
  | waiting due => exact hDue due rfl
  | attempting attempt =>
      rw [Cycle.Phase.need]
      cases attempt.request? with
      | none => trivial
      | some request =>
          cases request with
          | time => exact hReading
          | call call => trivial
  | _ => cases hPhase

/-- No event takes back a delay. -/
theorem length_le_note (pursuit : Pursuit) (now : Nat) (phase phase' : Cycle.Phase) :
    pursuit.delays.length ≤ (pursuit.note now phase phase').delays.length := by
  unfold Pursuit.note
  split <;> simp

/-- While the task pauses, time passes. -/
theorem Nears.exists_passed {due : Nat}
    (h : handoff.Nears k node id start events fleet distance)
    (hManager : fleet.managers[node]? = some manager) (hCycle : manager.cycles[id]? = some cycle)
    (hFlag : manager.shutDown = false) (hPhase : cycle.phase = .waiting due)
    (hEarly : fleet.now < due) :
    ∃ event next less, less < distance ∧
      handoff.Nears k node id start (events ++ [event]) next less := by
  obtain ⟨manager', cycle', hManager', hCycle', rfl⟩ := h.left
  obtain rfl := Option.some.inj (hManager.symm.trans hManager')
  obtain rfl := Option.some.inj (hCycle.symm.trans hCycle')
  have hNeed : cycle.phase.need = .pause due := by rw [hPhase]; rfl
  have hRests := h.alone.rests hManager hCycle hNeed hFlag (Nat.le_of_lt hEarly)
  have hStep : fleet.step? (.pass (due - fleet.now))
      = some { fleet with now := fleet.now + (due - fleet.now) } := if_pos hRests
  have hTime : fleet.now + (due - fleet.now) = due := by omega
  rw [hTime] at hStep
  have hBefore := Fleet.standing?_of_cycle hManager hCycle
  have hAfter : Fleet.standing? { fleet with now := due } node id
      = some ⟨due, manager.shutDown, cycle⟩ := Fleet.standing?_of_cycle hManager hCycle
  have hSeen : start.pursuit node id (events ++ [.pass (due - fleet.now)])
      = start.pursuit node id events := by
    rw [Fleet.pursuit, Pursuit.along_snoc h.run hStep hBefore hAfter, Pursuit.seen,
      Pursuit.note_self, hFlag, Pursuit.look_false]
    rfl
  refine ⟨_, _, _, ?_, Fleet.run?_snoc h.run hStep,
    h.calm.snoc h.run hStep ⟨by simp, by simp, fun _ => rfl⟩, h.alone, manager, cycle, hManager,
    hCycle, rfl⟩
  rw [hSeen, hPhase]
  simp only [Cycle.Phase.distance, if_pos hEarly, if_neg (Nat.lt_irrefl due)]
  omega

/-- A task in pursuit that is ready moves. -/
theorem Nears.exists_moved (h : handoff.Nears k node id start events fleet distance)
    (hBegins : handoff.Begins node id start) (hDue : handoff.IsDue k)
    (hManager : fleet.managers[node]? = some manager) (hCycle : manager.cycles[id]? = some cycle)
    (hFlag : manager.shutDown = false) (hPhase : cycle.phase.isSettled = false)
    (hReady : fleet.IsReady cycle.phase.need) :
    ∃ event next less, less < distance ∧
      handoff.Nears k node id start (events ++ [event]) next less := by
  obtain ⟨manager', cycle', hManager', hCycle', rfl⟩ := h.left
  obtain rfl := Option.some.inj (hManager.symm.trans hManager')
  obtain rfl := Option.some.inj (hCycle.symm.trans hCycle')
  obtain ⟨act, next, hFails, hAct⟩ := hReady.exists_act node id manager
  have hStep : fleet.step? (.move node id act) = some next := by
    simp only [Fleet.step?, hManager, hCycle]
    exact hAct
  have hCalm : handoff.Calm node id fleet (.move node id act) next := by
    refine ⟨by simp, fun error hEq => ?_, fun hOther => absurd rfl (hOther act)⟩
    exact hFails error (Fleet.Event.move.inj hEq).2.2
  have hRun := Fleet.run?_snoc h.run hStep
  have hAll := h.calm.snoc h.run hStep hCalm
  obtain ⟨draw, stimulus, moved, hNow, hAfter, hMoved, hSuits, hMoves⟩ :=
    Fleet.exists_moves_of_act? hManager hCycle hAct
  have hLater := Fleet.standing?_of_cycle hAfter hMoved
  have hSeen : start.pursuit node id (events ++ [.move node id act])
      = (start.pursuit node id events).note fleet.now cycle.phase moved.phase := by
    rw [Fleet.pursuit, Pursuit.along_snoc h.run hStep (Fleet.standing?_of_cycle hManager hCycle)
      hLater, Pursuit.seen, hMoves.shutDown, hFlag, Pursuit.look_false]
    rfl
  refine ⟨_, next, _, ?_, hRun, hAll, h.alone.act hManager hCycle hAct, _, moved, hAfter, hMoved,
    rfl⟩
  -- The delays after a miss are still no more than those before the attempt that is due.
  obtain ⟨⟨_, _, _, _, hStands⟩, -⟩ := hBegins.run hDue hRun hAll
  have hCount := hStands.length_le
  rw [hSeen] at hCount
  rw [hSeen, hNow]
  rcases hMoves.move.distance_lt hSuits hPhase with hLess | ⟨attempt, due, hTrying, hWaiting⟩
  · have hLonger := length_le_note (start.pursuit node id events) fleet.now cycle.phase moved.phase
    omega
  · have hBound := (Cycle.Phase.distance_waiting fleet.now due).2
    rw [hTrying, hWaiting] at hCount ⊢
    have hMissed : ((start.pursuit node id events).note fleet.now (.attempting attempt)
        (.waiting due)).delays.length = (start.pursuit node id events).delays.length + 1 := by
      rw [Pursuit.note, List.length_append, List.length_singleton]
    omega

/-- **One step nearer.** -/
theorem Nears.exists_next (h : handoff.Nears k node id start events fleet distance)
    (hBegins : handoff.Begins node id start) (hDue : handoff.IsDue k)
    (hClock : (handoff.base.after? (handoff.time k)).isSome = true)
    (hEnds : (start.pursuit node id events).ends = []) :
    ∃ event next less, less < distance ∧
      handoff.Nears k node id start (events ++ [event]) next less := by
  obtain ⟨⟨manager, cycle, hWaits, hPursued, hStands⟩, -⟩ := hBegins.run hDue h.run h.calm
  have hPursuit : (start.pursuit node id events).Stands handoff.start
    (.start .fixed handoff.lease) fleet.now cycle.backoff cycle.phase := hPursued.stands
  have hPhase := hStands.isSettled hEnds
  by_cases hPause : ∃ due, cycle.phase = .waiting due ∧ fleet.now < due
  · obtain ⟨due, hWaiting, hEarly⟩ := hPause
    exact h.exists_passed hWaits.managed hWaits.found hWaits.flag hWaiting hEarly
  · have hLate : fleet.now ≤ handoff.time k := by
      refine Nat.le_trans (hPursuit.of_not_isSettled hPhase).2 ?_
      rw [hPursuit.generates.sum_eq]
      exact Nat.add_le_add_left (Nat.mul_le_mul_right _ hStands.length_le) _
    obtain ⟨last, hLast⟩ := Option.isSome_iff_exists.mp hClock
    obtain ⟨reading, hNow⟩ := Instant.exists_after?_of_le hDue.clock.1 hDue.clock.2 hLate hLast
    have hReading : fleet.reading?.isSome = true := by
      rw [Fleet.reading?, hWaits.base, hNow]
      rfl
    refine h.exists_moved hBegins hDue hWaits.managed hWaits.found hWaits.flag hPhase ?_
    refine isReady_of_pursuit hPhase hReading fun due hWaiting => ?_
    by_contra hEarly
    exact hPause ⟨due, hWaiting, Nat.lt_of_not_le hEarly⟩

/-- A calm run that nears the attempt that is due gets there. -/
theorem Nears.exists_won (h : handoff.Nears k node id start events fleet distance)
    (hBegins : handoff.Begins node id start) (hDue : handoff.IsDue k)
    (hClock : (handoff.base.after? (handoff.time k)).isSome = true) :
    ∃ more last, start.run? more = some last ∧ handoff.CalmRun node id start more ∧
      (start.pursuit node id more).ends ≠ [] := by
  induction distance using Nat.strong_induction_on generalizing events fleet with
  | h distance ih =>
    by_cases hEnds : (start.pursuit node id events).ends = []
    · obtain ⟨event, next, less, hLess, hNearer⟩ := h.exists_next hBegins hDue hClock hEnds
      exact ih less hLess hNearer
    · exact ⟨events, fleet, h.run, h.calm, hEnds⟩

/-- **The lock is got.**  If no other task moves, and the clock can still be read when the attempt
is due, a calm run ends with the lock. -/
theorem Begins.exists_won (h : handoff.Begins node id start) (hDue : handoff.IsDue k)
    (hAlone : start.IsAlone node id)
    (hClock : (handoff.base.after? (handoff.time k)).isSome = true) :
    ∃ events fleet, start.run? events = some fleet ∧ handoff.CalmRun node id start events ∧
      (start.pursuit node id events).ends
        = [(handoff.time k, .acquired (handoff.row.version + 1))] := by
  obtain ⟨manager, cycle, hWaits, -⟩ := h.task
  have hNears : handoff.Nears k node id start [] start _ :=
    ⟨rfl, by simp [CalmRun, trace], hAlone, manager, cycle, hWaits.managed, hWaits.found, rfl⟩
  obtain ⟨events, fleet, hRun, hCalm, hEnds⟩ := hNears.exists_won h hDue hClock
  exact ⟨events, fleet, hRun, hCalm, ((h.run hDue hRun hCalm).account.won hEnds).1⟩

end Handoff

/-- **The pursuit of a lock, and the hand-off by expiry.**
* Under every policy the pursuit of a task that is on time has its exact account, whatever the
  results of its attempts and whenever a shutdown comes; and every sequence of results occurs.
* Under the fixed policy a task that alone waits for the row of a silent owner gets the lock with
  the first attempt that is due more than a lease after the last write, and its earlier attempts
  leave the row as it was. -/
theorem acquisition_and_handoff :
    (∀ (start : Session) (id : Nat) (cycle : Cycle), start.manager.cycles[id]? = some cycle →
      cycle.phase = .retrying →
      (∀ events session, start.runOnTime? id events = some session →
        (start.pursuit id events).Exact start.now cycle.backoff session.now) ∧
      (start.manager.shutDown = false →
        ∀ (draws : Nat → Nat) (outcomes : Nat → Except LockError Outcome) (n : Nat),
          (∀ k ≤ n, Attempt.CanYield start.manager.options.identity
            (start.manager.policy cycle.interval).lease (outcomes k)) →
          (∀ k < n, acquiredVersion? (outcomes k) = none) →
          start.Admits id cycle.backoff draws outcomes n)) ∧
    ∀ (handoff : Handoff) (k node id : Nat) (start : Fleet), handoff.Begins node id start →
      handoff.IsDue k →
      (∀ events fleet, start.run? events = some fleet → handoff.CalmRun node id start events →
        (start.pursuit node id events).Exact handoff.start (.start .fixed handoff.lease)
          fleet.now ∧
        handoff.Account k (start.pursuit node id events) (handoff.rowChanges start events)
          fleet.now) ∧
      (start.IsAlone node id → (handoff.base.after? (handoff.time k)).isSome = true →
        ∃ events fleet, start.run? events = some fleet ∧
          handoff.CalmRun node id start events ∧ (start.pursuit node id events).ends
            = [(handoff.time k, .acquired (handoff.row.version + 1))]) := by
  constructor
  · intro start id cycle hCycle hPhase
    constructor
    · intro events session hRun
      exact Session.exact_of_run hCycle hPhase hRun
    · intro hFlag draws outcomes n hMay hMissed
      exact Session.admits_of_missed hCycle hPhase rfl hFlag draws hMay hMissed
  · intro handoff k node id start hBegins hDue
    constructor
    · intro events fleet hRun hCalm
      have hHolds := hBegins.run hDue hRun hCalm
      obtain ⟨manager, cycle, -, hPursued, -⟩ := hHolds.task
      exact ⟨hPursued.stands.exact, hHolds.account⟩
    · intro hAlone hClock
      exact hBegins.exists_won hDue hAlone hClock

/-- The results of three attempts: the race for a row is lost, a call fails, and the lock is got. -/
def thirdTime : Nat → Except LockError Outcome
  | 0 => .ok .lostRace
  | 1 => .error (.store (.reported "timeout"))
  | _ => .ok (.acquired 4)

/-- A manager that has just registered a name. -/
def wantingJob : Session :=
  ((Session.around Session.soleManager).run? [.enter "job" .short, .enroll 0]).get (by decide)

/-- A row that was written at the moment at which the wait for it begins. -/
def freshRow : Handoff :=
  ⟨⟨0, 0⟩, ⟨"job", 3, "a", ⟨0, 0⟩⟩, "b", .ofSeconds 600, 0⟩

/-- A node that finds this row. -/
def nodeOfFreshRow : Fleet :=
  .around Lock.standardDatabase Lock.standardTable ⟨0, 0⟩
    (.ofLocks standardLockSpace [freshRow.row]) [.fresh (.ofIdentity "b")]

/-- The node has just registered the name of the row. -/
def heirOfFreshRow : Fleet := (nodeOfFreshRow.run? [.register 0 "job" .short]).get (by decide)

theorem freshRow_begins : freshRow.Begins 0 0 heirOfFreshRow := by
  have hNode : nodeOfFreshRow.Legal := by
    refine .around (Memory.holdsLocks_ofLocks (List.pairwise_singleton _ _)) ?_
    intro manager hManager
    rw [List.mem_singleton] at hManager
    subst hManager
    exact Manager.isNew_fresh (by decide)
  have hRun : nodeOfFreshRow.run? [.register 0 "job" .short] = some heirOfFreshRow :=
    (Option.some_get _).symm
  refine ⟨hNode.run hRun, rfl, by decide, _, _, ⟨rfl, rfl, rfl, rfl, rfl, rfl, rfl⟩, rfl, rfl⟩

theorem freshRow_isDue : freshRow.IsDue 2 := by
  refine ⟨by decide, by decide, by decide, by decide, ?_, fun j hOver => ?_⟩
  · show (0 : Int) + 600000000000 < 0 + 1200000000000
    omega
  · have hLong : (0 : Int) * 1000000000 + 0 + 600000000000
        < 0 * 1000000000 + 0 + ((0 + j * 600000000000 : Nat) : Int) := hOver
    omega

theorem heirOfFreshRow_isAlone : heirOfFreshRow.IsAlone 0 0 := by
  intro other number options cycle hCycle hOther
  obtain ⟨manager, hManager, -, hFound⟩ := Fleet.cycle?_eq_some_iff.mp hCycle
  obtain ⟨hNode, rfl⟩ := List.getElem?_eq_some_iff.mp hManager
  obtain ⟨hId, -⟩ := List.getElem?_eq_some_iff.mp hFound
  obtain rfl : other = 0 := Nat.lt_one_iff.mp hNode
  obtain rfl : number = 0 := Nat.lt_one_iff.mp hId
  exact absurd hOther (by decide)

/-- An attempt at the moment at which the lease ends comes too early, and the lock is got a lease
later; a lost race and a failed call only cost a delay each. -/
theorem acquisition_and_handoff_freshRow :
    (∃ cycle, wantingJob.manager.cycles[0]? = some cycle ∧ cycle.phase = .retrying ∧
      wantingJob.manager.shutDown = false ∧
      ∃ events session, wantingJob.runOnTime? 0 events = some session ∧
        (wantingJob.pursuit 0 events).Exact wantingJob.now cycle.backoff session.now ∧
        (wantingJob.pursuit 0 events).ends = [(1200000000000, .acquired 4)]) ∧
    freshRow.Begins 0 0 heirOfFreshRow ∧ freshRow.IsDue 2 ∧
    ∃ events fleet, heirOfFreshRow.run? events = some fleet ∧
      freshRow.CalmRun 0 0 heirOfFreshRow events ∧
      (heirOfFreshRow.pursuit 0 0 events).begun.length = 3 ∧
      (heirOfFreshRow.pursuit 0 0 events).ends = [(1200000000000, .acquired 4)] := by
  constructor
  · obtain ⟨cycle, hCycle, hPhase, hBackoff, hInterval⟩ : ∃ cycle,
        wantingJob.manager.cycles[0]? = some cycle ∧ cycle.phase = .retrying ∧
          cycle.backoff = .start .fixed (.ofSeconds 600) ∧ cycle.interval = .short :=
      ⟨_, rfl, rfl, rfl, rfl⟩
    have hFlag : wantingJob.manager.shutDown = false := rfl
    obtain ⟨hExact, hAdmits⟩ := acquisition_and_handoff.1 wantingJob 0 cycle hCycle hPhase
    have hMay : ∀ k ≤ 2, Attempt.CanYield wantingJob.manager.options.identity
        (wantingJob.manager.policy cycle.interval).lease (thirdTime k) := by
      intro k hBound
      match k with
      | 0 => trivial
      | 1 => exact ⟨_, rfl⟩
      | _ + 2 => exact show (4 : Int) ≤ Word.maxInt 64 by decide
    have hMissed : ∀ k < 2, acquiredVersion? (thirdTime k) = none := by decide
    obtain ⟨events, session, hRun, -, -, hEnds⟩ :=
      (hAdmits hFlag (fun _ => 0) thirdTime 2 hMay hMissed).1 4 rfl
    refine ⟨cycle, hCycle, hPhase, hFlag, events, session, hRun, hExact events session hRun, ?_⟩
    rw [hEnds, hBackoff]
    rfl
  · obtain ⟨hSeen, hGot⟩ := acquisition_and_handoff.2 freshRow 2 0 0 heirOfFreshRow freshRow_begins
      freshRow_isDue
    obtain ⟨events, fleet, hRun, hCalm, hEnds⟩ := hGot heirOfFreshRow_isAlone (by decide)
    obtain ⟨-, hAccount⟩ := hSeen events fleet hRun hCalm
    refine ⟨freshRow_begins, freshRow_isDue, events, fleet, hRun, hCalm, ?_, hEnds⟩
    exact (hAccount.won (by rw [hEnds]; exact List.cons_ne_nil _ _)).2.1

end Leasehold
