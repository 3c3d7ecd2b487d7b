import Leasehold.Proofs.Manager.Pursuit
import Leasehold.Proofs.Manager.Punctual

/-!
# Acquisition on time

A task of a session that is on time pursues its lock as its account says, and its attempts may turn
out in every way.

* `Manager.Moves.backoff`: what a move does to the waits of its cycle.
* `Session.goes_of_stepOnTime?`: what can become of a task of a session.
* `Session.pursuit`: what is seen of it; `Session.exact_of_run` is its account.
* `Attempt.CanYield`: the results that attempts can have.
* `Session.Admits`, `Session.admits_of_missed`: every sequence of results occurs, and a shutdown may
  come in any delay.
-/

namespace Leasehold

/-! ## What a move does to the waits of its cycle -/

namespace Manager

variable {manager : Manager} {id : Nat} {cycle moved : Cycle} {moment : Moment}
  {stimulus : Stimulus}

/-- The end of an attempt moves the cycle, with the waits that go with it. -/
theorem cycles_concludeAttempt (result : Except LockError Outcome) :
    ∃ phase, (manager.concludeAttempt id cycle moment result).1.cycles
        = manager.cycles.set id
          { cycle with backoff := cycle.backoffAfter phase, phase := phase } := by
  unfold concludeAttempt
  split
  · next version => exact ⟨.acquired version, rfl⟩
  · exact ⟨.waiting (moment.now + (cycle.backoff.delay moment.draw).nanos), rfl⟩

/-- So does the end of a renewal. -/
theorem cycles_concludeRenewal (beat : Heartbeat) (signal : SignalId)
    (result : Except LockError Bool) :
    ∃ phase, (manager.concludeRenewal id cycle beat signal result).1.cycles
        = manager.cycles.set id
          { cycle with backoff := cycle.backoffAfter phase, phase := phase } := by
  unfold concludeRenewal
  split
  · exact ⟨.beating _ signal, rfl⟩
  · split
    · exact ⟨.losing _ signal, rfl⟩
    · exact ⟨.beating _ signal, rfl⟩

/-- Every step does so, or leaves the cycles alone. -/
theorem cycles_step_cases (stimulus : Stimulus) (hCycle : manager.cycles[id]? = some cycle) :
    (manager.step id moment stimulus).1.cycles = manager.cycles ∨
      ∃ phase, (manager.step id moment stimulus).1.cycles
        = manager.cycles.set id
          { cycle with backoff := cycle.backoffAfter phase, phase := phase } := by
  simp only [step, hCycle]
  cases stimulus with
  | turn =>
      simp only [turn]
      split
      · split
        · exact .inr ⟨.leaving, rfl⟩
        · exact .inr ⟨.attempting _, rfl⟩
      · split
        · exact .inr (cycles_concludeAttempt _)
        · exact .inl rfl
      · exact .inr ⟨.marked _ _, rfl⟩
      · next version signal _ =>
        refine .inr ⟨.starting version signal, ?_⟩
        rw [lookAtFlag]
        split <;> rfl
      · exact .inr ⟨.beating _ _, rfl⟩
      · split
        · exact .inr (cycles_concludeRenewal _ _ _)
        · exact .inl rfl
      · exact .inr ⟨.demoting _, rfl⟩
      · exact .inr ⟨.cooling _, rfl⟩
      · exact .inr ⟨.over, rfl⟩
      · exact .inr ⟨.leaving, rfl⟩
      · exact .inr ⟨.over, rfl⟩
      all_goals exact .inl rfl
  | response response =>
      simp only [respond]
      split
      · exact .inr ⟨.attempting _, rfl⟩
      · exact .inr ⟨.renewing _ _ _, rfl⟩
      · exact .inl rfl
  | deadline =>
      simp only [expire]
      split
      · exact .inr ⟨.retrying, rfl⟩
      · exact .inr ⟨.renewing _ _ _, rfl⟩
      · exact .inr ⟨.departing, rfl⟩
      · exact .inl rfl
  | shutdown =>
      simp only [interrupt]
      split
      · exact .inr ⟨.leaving, rfl⟩
      · exact .inr ⟨.stopping _, rfl⟩
      · exact .inr ⟨.departing, rfl⟩
      · exact .inl rfl

/-- **What a move does to the waits of its cycle.** -/
theorem Moves.backoff (hCycle : manager.cycles[id]? = some cycle)
    (hMoves : manager.Moves (manager.step id moment stimulus).1 id cycle moment stimulus moved) :
    moved.backoff = cycle.backoffAfter moved.phase := by
  obtain ⟨hBound, -⟩ := List.getElem?_eq_some_iff.mp hCycle
  have hMoved : (manager.step id moment stimulus).1.cycles[id]? = some moved := by
    rw [hMoves.cycles, List.getElem?_set_self hBound]
  rcases cycles_step_cases stimulus hCycle with hSame | ⟨phase, hSet⟩
  · rw [hSame, hCycle] at hMoved
    obtain rfl := Option.some.inj hMoved
    -- No cycle moves from one delay straight to another.
    have hMove := hMoves.move
    cases hPhase : cycle.phase with
    | waiting due =>
        rw [hPhase] at hMove
        cases hMove
    | _ => rfl
  · rw [hSet, List.getElem?_set_self hBound] at hMoved
    obtain rfl := Option.some.inj hMoved
    rfl

/-- A move of another cycle leaves the cycle alone. -/
theorem Moves.getElem?_cycles_of_ne {next : Manager} {target : Nat}
    (hMoves : manager.Moves next target cycle moment stimulus moved) (hId : target ≠ id) :
    next.cycles[id]? = manager.cycles[id]? := by
  rw [hMoves.cycles, List.getElem?_set_ne hId]

end Manager

/-- **A task that is given what it waits for goes on**, with the waits that go with its move. -/
theorem Standing.Goes.of_moves {manager : Manager} {id now draw : Nat} {cycle moved : Cycle}
    {stimulus : Stimulus} (hCycle : manager.cycles[id]? = some cycle)
    (hSuits : stimulus.suits now manager.shutDown cycle.phase.need = true)
    (hMoves : manager.Moves (manager.step id ⟨now, draw⟩ stimulus).1 id cycle ⟨now, draw⟩ stimulus
      moved) :
    Goes ⟨now, manager.shutDown, cycle⟩
      ⟨now, (manager.step id ⟨now, draw⟩ stimulus).1.shutDown, moved⟩ :=
  .moved rfl hMoves.shutDown rfl hSuits hMoves.move (hMoves.backoff hCycle)

namespace Session

/-- A task of the session as it is found. -/
def standing? (session : Session) (id : Nat) : Option Standing :=
  session.manager.cycles[id]?.map fun cycle => ⟨session.now, session.manager.shutDown, cycle⟩

variable {start session next : Session} {event : Event} {events : List Event} {id : Nat}
  {cycle : Cycle} {standing before : Standing}

theorem standing?_of_cycle (hCycle : session.manager.cycles[id]? = some cycle) :
    session.standing? id = some ⟨session.now, session.manager.shutDown, cycle⟩ := by
  rw [standing?, hCycle, Option.map_some]

/-- **What can become of a task of a session** that is on time. -/
theorem goes_of_stepOnTime? (h : stepOnTime? id session event = some next)
    (hBefore : session.standing? id = some before) :
    ∃ after, next.standing? id = some after ∧ before.Goes after := by
  obtain ⟨cycle, hCycle, rfl⟩ := Option.map_eq_some_iff.mp hBefore
  have hStep := step?_of_stepOnTime? h
  by_cases hPass : ∃ nanos, event = .pass nanos
  · obtain ⟨nanos, rfl⟩ := hPass
    obtain rfl := Option.some.inj hStep
    refine ⟨_, standing?_of_cycle hCycle, .passed ?_ (Nat.le_add_right _ _) rfl rfl⟩
    simp only [stepOnTime?] at h
    split at h
    · next hRests => exact rest_cases hCycle hRests
    · cases h
  · have hNow : next.now = session.now :=
      now_of_step? hStep fun nanos hEvent => hPass ⟨nanos, hEvent⟩
    have hChange := change_of_step? hStep
    rcases hChange.cycle_cases hCycle with
      hSame | ⟨draw, stimulus, moved, rfl, hSuits, hMoves, hNext⟩
    · exact ⟨_, standing?_of_cycle hSame, .kept hNow hChange.shutDown rfl⟩
    · obtain ⟨-, -, -, rfl⟩ := exists_of_move hStep
      exact ⟨_, standing?_of_cycle hNext, .of_moves hCycle hSuits hMoves⟩

/-- What a run on time shows of a task in pursuit of its lock. -/
def pursuit (start : Session) (id : Nat) (events : List Event) : Pursuit :=
  .along (stepOnTime? id) (·.standing? id) start events

theorem pursuit_snoc {after : Standing} (hRun : start.runOnTime? id events = some session)
    (hStep : stepOnTime? id session event = some next)
    (hBefore : session.standing? id = some before) (hAfter : next.standing? id = some after) :
    start.pursuit id (events ++ [event]) = (start.pursuit id events).seen before after :=
  Pursuit.along_snoc hRun hStep hBefore hAfter

/-- **Every run on time keeps the pursuit.** -/
theorem pursued_of_run (hCycle : start.manager.cycles[id]? = some cycle)
    (hPhase : cycle.phase = .retrying) (hRun : start.runOnTime? id events = some session) :
    ∃ later, session.standing? id = some later ∧
      Pursued start.now cycle.backoff (start.pursuit id events) later :=
  Pursued.along (fun _ _ _ _ hStep hBefore => goes_of_stepOnTime? hStep hBefore)
    (standing?_of_cycle hCycle) hPhase hRun

/-- The account of a task on time. -/
theorem exact_of_run (hCycle : start.manager.cycles[id]? = some cycle)
    (hPhase : cycle.phase = .retrying) (hRun : start.runOnTime? id events = some session) :
    (start.pursuit id events).Exact start.now cycle.backoff session.now := by
  obtain ⟨later, hLater, hPursued⟩ := pursued_of_run hCycle hPhase hRun
  obtain ⟨other, -, rfl⟩ := Option.map_eq_some_iff.mp hLater
  exact hPursued.stands.exact

end Session

/-! ## Every sequence of results -/

/-- Every gap lies between two readings of a clock. -/
theorem Instant.exists_since_eq (gap : Gap) : ∃ now : Instant, now.since ⟨0, 0⟩ = gap := by
  refine ⟨⟨gap.nanos / Span.nanosPerSecond, (gap.nanos % Span.nanosPerSecond).toNat⟩, ?_⟩
  have hPositive : 0 ≤ gap.nanos % Span.nanosPerSecond := Int.emod_nonneg _ (by decide)
  have hBound : gap.nanos % Span.nanosPerSecond < Span.nanosPerSecond :=
    Int.emod_lt_of_pos _ (by decide)
  have hNormal : inLeapSecond ⟨gap.nanos / Span.nanosPerSecond,
      (gap.nanos % Span.nanosPerSecond).toNat⟩ = false := by
    refine decide_eq_false fun hLeap => ?_
    have hLeap : Span.nanosPerSecond ≤ (gap.nanos % Span.nanosPerSecond).toNat := hLeap
    omega
  have hNanos := since_nanos_of_not_leap _ ⟨0, 0⟩ hNormal (by decide)
  obtain ⟨nanos⟩ := gap
  refine congrArg Gap.mk (hNanos.trans ?_)
  have hSplit := Int.mul_ediv_add_emod nanos Span.nanosPerSecond
  simp only [Span.nanosPerSecond] at *
  omega

namespace Attempt

/-- The results that an attempt of an identity can have; a version is a word. -/
def CanYield (identity : String) (lease : Span) : Except LockError Outcome → Prop
  | .error error => ∃ cause, error = .store cause
  | .ok (.acquired version) => version ≤ Word.maxInt 64
  | .ok .lostRace => True
  | .ok (.heldElsewhere owner elapsed) => owner ≠ identity ∧ ¬ lease.toGap < elapsed

/-- An attempt has a result, or responses that it waits for bring it there. -/
inductive Yields : Attempt → Except LockError Outcome → Prop where
  | ended {attempt : Attempt} {result : Except LockError Outcome}
      (hResult : attempt.result? = some result) : Yields attempt result
  | answered {attempt : Attempt} {result : Except LockError Outcome} (response : Response)
      (hSuits : ∀ now flag, (Stimulus.response response).suits now flag
        (.ofRequest attempt.request?) = true)
      (h : Yields (attempt.resume response) result) : Yields attempt result

section

variable {claimant : Claimant} {lease : Span} {result : Except LockError Outcome}

/-- An attempt that has counted a row searches for it, and finds what the store says. -/
theorem yields_of_search {reply : Reply} {stage : Stage}
    (hStage : afterSearch claimant.identity reply = stage)
    (h : Yields ⟨claimant, lease, stage⟩ result) : Yields (.start claimant lease) result := by
  subst hStage
  exact .answered (.reply (.ok (.number 1))) (fun _ _ => rfl)
    (.answered (.reply reply) (fun _ _ => rfl) h)

/-- The stage after the search for a row. -/
theorem afterSearch_record (identity : String) (row : LockRow) :
    afterSearch identity (.ok (.records [row.toRecord]))
      = if row.isOwnedBy identity then claim row else .judging row := rfl

/-- **An attempt can have each of these results.** -/
theorem yields_of_canYield (h : CanYield claimant.identity lease result) :
    Yields (.start claimant lease) result := by
  match result, h with
  | .error _, ⟨cause, rfl⟩ =>
      exact .answered (.reply (.error cause)) (fun _ _ => rfl) (.ended rfl)
  | .ok .lostRace, _ =>
      have hSearch : afterSearch claimant.identity (.ok (.records []))
          = .finished (.ok .lostRace) := rfl
      exact yields_of_search hSearch (.ended rfl)
  | .ok (.acquired version), hWord =>
      -- The claimant finds a row of its own, one version before.
      have hClaim : claim ⟨claimant.name, version - 1, claimant.identity, ⟨0, 0⟩⟩
          = .claiming ⟨claimant.name, version - 1, claimant.identity, ⟨0, 0⟩⟩ :=
        if_pos (decide_eq_true (Int.sub_one_lt_of_le hWord))
      have hOwn : (LockRow.mk claimant.name (version - 1) claimant.identity ⟨0, 0⟩).isOwnedBy
          claimant.identity = true := beq_self_eq_true _
      have hSearch := afterSearch_record claimant.identity
        ⟨claimant.name, version - 1, claimant.identity, ⟨0, 0⟩⟩
      rw [if_pos hOwn, hClaim] at hSearch
      refine yields_of_search hSearch ?_
      refine .answered (.time ⟨0, 0⟩) (fun _ _ => rfl) ?_
      refine .answered (.reply (.ok (.number 1))) (fun _ _ => rfl) (.ended ?_)
      show some (Except.ok (Outcome.acquired (version - 1 + 1))) = _
      rw [Int.sub_add_cancel]
  | .ok (.heldElsewhere owner elapsed), ⟨hOwner, hFresh⟩ =>
      obtain ⟨now, rfl⟩ := Instant.exists_since_eq elapsed
      have hForeign : (LockRow.mk claimant.name 0 owner ⟨0, 0⟩).isOwnedBy claimant.identity
          = false := beq_eq_false_iff_ne.mpr hOwner
      have hSearch := afterSearch_record claimant.identity ⟨claimant.name, 0, owner, ⟨0, 0⟩⟩
      rw [if_neg (Bool.eq_false_iff.mp hForeign)] at hSearch
      refine yields_of_search hSearch ?_
      refine .answered (.time now) (fun _ _ => rfl) (.ended ?_)
      have hJudged : afterJudgement ⟨claimant.name, 0, owner, ⟨0, 0⟩⟩ lease now
          = .finished (.ok (.heldElsewhere owner (now.since ⟨0, 0⟩))) :=
        if_neg fun hExpired => hFresh (of_decide_eq_true hExpired)
      show Attempt.result? ⟨claimant, lease, afterJudgement _ lease now⟩ = _
      rw [hJudged]
      rfl

end

end Attempt

namespace Session

variable {start session : Session} {events : List Event} {id : Nat} {interval : IntervalClass}
  {phase : Cycle.Phase} {first : Backoff}

/-- **Results that a pursuit can have.**  After a number of misses, with delays under any draws, an
attempt gets the lock; or it is one more miss, and a shutdown comes at any time in the delay. -/
def Admits (start : Session) (id : Nat) (first : Backoff) (draws : Nat → Nat)
    (outcomes : Nat → Except LockError Outcome) (n : Nat) : Prop :=
  let delays := fun m => first.delays ((List.range m).map draws)
  (∀ version, outcomes n = .ok (.acquired version) →
    ∃ events session, start.runOnTime? id events = some session ∧
      (start.pursuit id events).results = (List.range (n + 1)).map outcomes ∧
      (start.pursuit id events).delays = delays n ∧
      (start.pursuit id events).ends = [(start.now + (delays n).sum, .acquired version)]) ∧
  (acquiredVersion? (outcomes n) = none → ∀ time, start.now + (delays n).sum ≤ time →
    time ≤ start.now + (delays (n + 1)).sum →
    ∃ events session, start.runOnTime? id events = some session ∧
      (start.pursuit id events).results = (List.range (n + 1)).map outcomes ∧
      (start.pursuit id events).delays = delays (n + 1) ∧
      (start.pursuit id events).alarm? = some ⟨time, n + 1, true⟩ ∧
      (start.pursuit id events).ends = [(time, .shutDown)])

/-- A run on time leads to a session in which the task is in a phase, and no flag is raised. -/
structure Reaches (start : Session) (id : Nat) (interval : IntervalClass) (events : List Event)
    (session : Session) (phase : Cycle.Phase) : Prop where
  run : start.runOnTime? id events = some session
  flag : session.manager.shutDown = false
  options : session.manager.options = start.manager.options
  task : ∃ cycle, session.manager.cycles[id]? = some cycle ∧ cycle.interval = interval ∧
    cycle.phase = phase

namespace Reaches

/-- The task moves when it is given what it waits for. -/
theorem exists_moved (h : Reaches start id interval events session phase) (draw : Nat)
    (stimulus : Stimulus)
    (hSuits : stimulus.suits session.now session.manager.shutDown phase.need = true) :
    ∃ event next phase' cycle, Reaches start id interval (events ++ [event]) next phase' ∧
      next.now = session.now ∧ session.manager.cycles[id]? = some cycle ∧
      cycle.interval = interval ∧
      Cycle.Move session.manager cycle ⟨session.now, draw⟩ stimulus phase phase' ∧
      start.pursuit id (events ++ [event])
        = (start.pursuit id events).note session.now phase phase' := by
  obtain ⟨cycle, hCycle, hInterval, rfl⟩ := h.task
  obtain ⟨next, moved, hStep, hNow, hMoved, hMoves⟩ := exists_move hCycle hSuits draw
  have hFlag : next.manager.shutDown = false := hMoves.shutDown.trans h.flag
  refine ⟨_, next, moved.phase, cycle, ⟨runOnTime?_snoc h.run hStep, hFlag,
    (options_of_stepOnTime? hStep).trans h.options,
    moved, hMoved, hMoves.interval.trans hInterval, rfl⟩, hNow, hCycle, hInterval, hMoves.move, ?_⟩
  rw [pursuit_snoc h.run hStep (standing?_of_cycle hCycle) (standing?_of_cycle hMoved),
    Pursuit.seen, hFlag, Pursuit.look_false]

/-- The task begins an attempt. -/
theorem exists_attempt (h : Reaches start id interval events session .retrying) :
    ∃ event next claimant, Reaches start id interval (events ++ [event]) next
        (.attempting (.start claimant (start.manager.policy interval).lease)) ∧
      claimant.identity = start.manager.options.identity ∧ next.now = session.now ∧
      start.pursuit id (events ++ [event]) = { start.pursuit id events with
        begun := (start.pursuit id events).begun ++ [session.now] } := by
  obtain ⟨event, next, phase', cycle, hReaches, hNow, -, hInterval, hMove, hShown⟩ :=
    h.exists_moved 0 .turn rfl
  cases hMove with
  | quit hFlag =>
      rw [h.flag] at hFlag
      cases hFlag
  | attempt =>
      rw [hInterval, Manager.policy, h.options, ← Manager.policy] at hReaches
      exact ⟨event, next, _, hReaches, congrArg Manager.Options.identity h.options, hNow, hShown⟩

/-- An attempt comes to a result. -/
theorem exists_result {attempt : Attempt} {result : Except LockError Outcome}
    (hYields : attempt.Yields result)
    (h : Reaches start id interval events session (.attempting attempt)) :
    ∃ more next later, Reaches start id interval more next (.attempting later) ∧
      later.result? = some result ∧ next.now = session.now ∧
      start.pursuit id more = start.pursuit id events := by
  induction hYields generalizing events session with
  | ended hResult => exact ⟨events, session, _, h, hResult, rfl, rfl⟩
  | answered response hSuits _ ih =>
      obtain ⟨event, next, phase', cycle, hReaches, hNow, -, -, hMove, hShown⟩ :=
        h.exists_moved 0 (.response response) (hSuits _ _)
      cases hMove with
      | answer =>
          obtain ⟨more, last, later, hLater, hResult, hThen, hSame⟩ := ih hReaches
          exact ⟨more, last, later, hLater, hResult, hThen.trans hNow, hSame.trans hShown⟩

/-- An attempt that gets the lock ends the pursuit. -/
theorem exists_won {attempt : Attempt} {version : Int}
    (h : Reaches start id interval events session (.attempting attempt))
    (hResult : attempt.result? = some (.ok (.acquired version))) :
    ∃ event next, Reaches start id interval (events ++ [event]) next (.acquired version) ∧
      next.now = session.now ∧
      start.pursuit id (events ++ [event])
        = (start.pursuit id events).note session.now (.attempting attempt) (.acquired version) := by
  have hEnded : attempt.request? = none :=
    attempt.request?_eq_none_iff.mpr (Option.isSome_of_eq_some hResult)
  obtain ⟨event, next, phase', cycle, hReaches, hNow, -, -, hMove, hShown⟩ :=
    h.exists_moved 0 .turn (by rw [Cycle.Phase.need, hEnded]; rfl)
  cases hMove with
  | win hOther =>
      rw [hResult] at hOther
      cases hOther
      exact ⟨event, next, hReaches, hNow, hShown⟩
  | miss hOther hMissed =>
      rw [hResult] at hOther
      obtain rfl := Option.some.inj hOther
      exact absurd rfl (hMissed version)

/-- An attempt that does not get the lock is followed by a delay under a given draw. -/
theorem exists_missed {cycle : Cycle} (hCycle : start.manager.cycles[id]? = some cycle)
    (hPhase : cycle.phase = .retrying) {attempt : Attempt} {result : Except LockError Outcome}
    (h : Reaches start id interval events session (.attempting attempt))
    (hResult : attempt.result? = some result) (hMissed : acquiredVersion? result = none)
    (draw : Nat) :
    ∃ event next due, Reaches start id interval (events ++ [event]) next (.waiting due) ∧
      next.now = session.now ∧
      (start.pursuit id (events ++ [event])).results
        = (start.pursuit id events).results ++ [result] ∧
      (start.pursuit id (events ++ [event])).delays = (start.pursuit id events).delays
        ++ [((cycle.backoff.after (start.pursuit id events).delays.length).delay draw).nanos] := by
  have hEnded : attempt.request? = none :=
    attempt.request?_eq_none_iff.mpr (Option.isSome_of_eq_some hResult)
  obtain ⟨event, next, phase', task, hReaches, hNow, hTask, -, hMove, hShown⟩ :=
    h.exists_moved draw .turn (by rw [Cycle.Phase.need, hEnded]; rfl)
  cases hMove with
  | win hOther =>
      rw [hResult] at hOther
      obtain rfl := Option.some.inj hOther
      cases hMissed
  | miss =>
      refine ⟨event, next, _, hReaches, hNow, ?_, ?_⟩
      · rw [hShown]
        exact Pursuit.Stands.results_note hResult _
      · -- The waits of the task are those after its earlier delays.
        obtain ⟨task', hFound, -, hAttempting⟩ := h.task
        obtain rfl := Option.some.inj (hTask.symm.trans hFound)
        obtain ⟨later, hLater, hPursued⟩ := pursued_of_run hCycle hPhase h.run
        rw [standing?_of_cycle hTask] at hLater
        obtain rfl := Option.some.inj hLater
        have hStands := hPursued.stands
        rw [hAttempting] at hStands
        rw [hShown, ← hStands.of_attempting.2.1]
        show (start.pursuit id events).delays ++ [_ - session.now] = _
        rw [Nat.add_sub_cancel_left]

/-- Time passes in a delay. -/
theorem exists_passed {due time : Nat}
    (h : Reaches start id interval events session (.waiting due)) (hNow : session.now ≤ time)
    (hDue : time ≤ due) :
    ∃ event, Reaches start id interval (events ++ [event]) { session with now := time }
        (.waiting due) ∧
      start.pursuit id (events ++ [event]) = start.pursuit id events := by
  obtain ⟨cycle, hCycle, hInterval, hPhase⟩ := h.task
  have hTime : session.now + (time - session.now) = time := by omega
  have hPass := stepOnTime?_pass (time - session.now) hCycle (by rw [hPhase]; rfl) h.flag
    (show session.now + (time - session.now) ≤ due by omega)
  rw [hTime] at hPass
  have hLater : ({ session with now := time } : Session).manager.cycles[id]? = some cycle := hCycle
  refine ⟨_, ⟨runOnTime?_snoc h.run hPass, h.flag, h.options, cycle, hLater, hInterval, hPhase⟩, ?_⟩
  rw [pursuit_snoc h.run hPass (standing?_of_cycle hCycle) (standing?_of_cycle hLater),
    Pursuit.seen, Pursuit.note_self, h.flag, Pursuit.look_false]

/-- A delay ends when it is due. -/
theorem exists_retrying {due : Nat}
    (h : Reaches start id interval events session (.waiting due)) (hDue : session.now ≤ due) :
    ∃ more next, Reaches start id interval more next .retrying ∧
      start.pursuit id more = start.pursuit id events := by
  obtain ⟨event, hLater, hSame⟩ := h.exists_passed hDue (Nat.le_refl _)
  obtain ⟨last, next, phase', task, hReaches, -, -, -, hMove, hShown⟩ :=
    hLater.exists_moved 0 .deadline (decide_eq_true (Nat.le_refl due))
  cases hMove with
  | retry => exact ⟨_, next, hReaches, hShown.trans hSame⟩

/-- **A shutdown may come at any time in a delay**, and it ends the pursuit. -/
theorem exists_stopped {due time : Nat}
    (h : Reaches start id interval events session (.waiting due)) (hNow : session.now ≤ time)
    (hDue : time ≤ due) (hSilent : (start.pursuit id events).alarm? = none) :
    ∃ more last, start.runOnTime? id more = some last ∧
      start.pursuit id more = { start.pursuit id events with
        ends := (start.pursuit id events).ends ++ [(time, .shutDown)]
        alarm? := some ⟨time, (start.pursuit id events).begun.length, true⟩ } := by
  obtain ⟨event, hLater, hSame⟩ := h.exists_passed hNow hDue
  obtain ⟨cycle, hCycle, -, hPhase⟩ := hLater.task
  obtain ⟨raised, hRaise, hManager, hTime⟩ : ∃ raised,
      stepOnTime? id { session with now := time } .raiseFlag = some raised ∧
        raised.manager = session.manager.raiseFlag ∧ raised.now = time :=
    ⟨_, if_neg (Bool.eq_false_iff.mp h.flag), rfl, rfl⟩
  have hRun := runOnTime?_snoc hLater.run hRaise
  have hRaised : raised.manager.shutDown = true := by rw [hManager]; rfl
  have hCycle' : raised.manager.cycles[id]? = some cycle := by rw [hManager]; exact hCycle
  have hAlarm := pursuit_snoc hLater.run hRaise (standing?_of_cycle hCycle)
    (standing?_of_cycle hCycle')
  rw [Pursuit.seen, Pursuit.note_self, hRaised, hTime, hPhase, hSame] at hAlarm
  obtain ⟨last, moved, hStep, hNow', hMoved, hMoves⟩ := exists_move hCycle'
    (show Stimulus.shutdown.suits raised.now raised.manager.shutDown cycle.phase.need = true by
      rw [hPhase]; exact hRaised) 0
  refine ⟨_, last, runOnTime?_snoc hRun hStep, ?_⟩
  have hMove := hMoves.move
  rw [pursuit_snoc hRun hStep (standing?_of_cycle hCycle') (standing?_of_cycle hMoved),
    Pursuit.seen, hAlarm, hTime, hMoves.shutDown, hRaised, hPhase]
  rw [hPhase] at hMove
  generalize moved.phase = phase' at hMove
  cases hMove with
  | wakeWaiting => simp [Pursuit.note, Pursuit.look, hSilent, Cycle.Phase.isWaiting]

/-- What stands of the pursuit of a task that no flag has reached. -/
theorem stands {cycle : Cycle} (hCycle : start.manager.cycles[id]? = some cycle)
    (hPhase : cycle.phase = .retrying) (h : Reaches start id interval events session phase) :
    (start.pursuit id events).alarm? = none ∧ ∃ backoff,
      (start.pursuit id events).Stands start.now cycle.backoff session.now backoff phase := by
  obtain ⟨task, hTask, -, rfl⟩ := h.task
  obtain ⟨later, hLater, hPursued⟩ := pursued_of_run hCycle hPhase h.run
  rw [standing?_of_cycle hTask] at hLater
  obtain rfl := Option.some.inj hLater
  have hSilent := hPursued.alarm
  rw [h.flag] at hSilent
  exact ⟨Option.not_isSome_iff_eq_none.mp (Bool.eq_false_iff.mp hSilent), _, hPursued.stands⟩

end Reaches

section

variable {cycle : Cycle} (hCycle : start.manager.cycles[id]? = some cycle)
  (hPhase : cycle.phase = .retrying) (hInterval : cycle.interval = interval)
  {draws : Nat → Nat} {outcomes : Nat → Except LockError Outcome} {n : Nat}

include hCycle hPhase

/-- One more attempt of a task that does not get the lock. -/
theorem exists_miss {result : Except LockError Outcome}
    (h : Reaches start id interval events session .retrying)
    (hMay : Attempt.CanYield start.manager.options.identity (start.manager.policy interval).lease
      result)
    (hMissed : acquiredVersion? result = none) (draw : Nat) :
    ∃ more next due, Reaches start id interval more next (.waiting due) ∧
      next.now = session.now ∧
      (start.pursuit id more).results = (start.pursuit id events).results ++ [result] ∧
      (start.pursuit id more).delays = (start.pursuit id events).delays
        ++ [((cycle.backoff.after (start.pursuit id events).delays.length).delay draw).nanos] := by
  obtain ⟨event, begun, claimant, hBegun, hClaimant, hNow, hShown⟩ := h.exists_attempt
  rw [← hClaimant] at hMay
  obtain ⟨more, ended, attempt, hEnded, hResult, hThen, hSame⟩ :=
    hBegun.exists_result (Attempt.yields_of_canYield hMay)
  obtain ⟨last, next, due, hNext, hLater, hResults, hDelays⟩ :=
    hEnded.exists_missed hCycle hPhase hResult hMissed draw
  rw [hSame, hShown] at hResults hDelays
  exact ⟨_, next, due, hNext, hLater.trans (hThen.trans hNow), hResults, hDelays⟩

/-- An attempt of the task gets the lock. -/
theorem exists_acquired (h : Reaches start id interval events session .retrying) {version : Int}
    (hWord : version ≤ Word.maxInt 64) :
    ∃ more last, start.runOnTime? id more = some last ∧
      (start.pursuit id more).results
        = (start.pursuit id events).results ++ [.ok (.acquired version)] ∧
      (start.pursuit id more).delays = (start.pursuit id events).delays ∧
      (start.pursuit id more).ends
        = [(start.now + (start.pursuit id events).delays.sum, .acquired version)] := by
  obtain ⟨event, begun, claimant, hBegun, -, -, hShown⟩ := h.exists_attempt
  have hMay : Attempt.CanYield claimant.identity (start.manager.policy interval).lease
      (.ok (.acquired version)) := hWord
  obtain ⟨more, ended, attempt, hEnded, hResult, -, hSame⟩ :=
    hBegun.exists_result (Attempt.yields_of_canYield hMay)
  obtain ⟨last, won, hWon, -, hEnd⟩ := hEnded.exists_won hResult
  obtain ⟨-, backoff, hStands⟩ := hEnded.stands hCycle hPhase
  rw [hSame, hShown] at hEnd hStands
  obtain ⟨hOpen, -, hNow⟩ := hStands.of_attempting
  refine ⟨_, won, hWon.run, ?_, ?_, ?_⟩
  · rw [hEnd]
    exact Pursuit.Stands.results_note hResult _
  · rw [hEnd]
    rfl
  · rw [hEnd]
    show (start.pursuit id events).ends ++ [(ended.now, PursuitEnd.acquired version)] = _
    rw [hOpen.unended, hNow]
    rfl

/-- One more miss of a sequence of results, under one more draw. -/
theorem exists_next_miss (h : Reaches start id interval events session .retrying)
    (hResults : (start.pursuit id events).results = (List.range n).map outcomes)
    (hDelays : (start.pursuit id events).delays = cycle.backoff.delays ((List.range n).map draws))
    (hMay : Attempt.CanYield start.manager.options.identity (start.manager.policy interval).lease
      (outcomes n))
    (hMissed : acquiredVersion? (outcomes n) = none) :
    ∃ more next due, Reaches start id interval more next (.waiting due) ∧
      next.now = session.now ∧
      (start.pursuit id more).results = (List.range (n + 1)).map outcomes ∧
      (start.pursuit id more).delays
        = cycle.backoff.delays ((List.range (n + 1)).map draws) := by
  obtain ⟨more, next, due, hNext, hNow, hMore, hLonger⟩ :=
    exists_miss hCycle hPhase h hMay hMissed (draws n)
  refine ⟨more, next, due, hNext, hNow, ?_, ?_⟩
  · rw [hMore, hResults, List.range_succ, List.map_append, List.map_singleton]
  · rw [hLonger, hDelays, List.range_succ, List.map_append, List.map_singleton,
      Backoff.delays_concat, Backoff.length_delays]

include hInterval

/-- **Attempts may miss in every way**, and any draws may follow. -/
theorem exists_misses (hFlag : start.manager.shutDown = false) (draws : Nat → Nat) (m : Nat)
    (hMay : ∀ k < m, Attempt.CanYield start.manager.options.identity
      (start.manager.policy interval).lease (outcomes k))
    (hMissed : ∀ k < m, acquiredVersion? (outcomes k) = none) :
    ∃ events session, Reaches start id interval events session .retrying ∧
      (start.pursuit id events).results = (List.range m).map outcomes ∧
      (start.pursuit id events).delays = cycle.backoff.delays ((List.range m).map draws) := by
  induction m with
  | zero =>
      refine ⟨[], start, ⟨rfl, hFlag, rfl, cycle, hCycle, hInterval, hPhase⟩, ?_, ?_⟩ <;>
        simp [pursuit, Pursuit.along, trace, standing?, hCycle, Pursuit.look, Pursuit.nothing,
          Backoff.delays]
  | succ m ih =>
      obtain ⟨events, session, hReaches, hResults, hDelays⟩ :=
        ih (fun k hLess => hMay k (by omega)) fun k hLess => hMissed k (by omega)
      obtain ⟨more, next, due, hNext, -, hMore, hLonger⟩ :=
        exists_next_miss hCycle hPhase hReaches hResults hDelays (hMay m (by omega))
          (hMissed m (by omega))
      -- The delay passes, and the task is where it was before the attempt.
      obtain ⟨-, backoff, hStands⟩ := hNext.stands hCycle hPhase
      obtain ⟨-, -, -, hDue⟩ := hStands.of_waiting
      obtain ⟨last, later, hLater, hSame⟩ := hNext.exists_retrying hDue
      rw [← hSame] at hMore hLonger
      exact ⟨last, later, hLater, hMore, hLonger⟩

/-- **Every sequence of results occurs**, with any draws. -/
theorem admits_of_missed (hFlag : start.manager.shutDown = false) (draws : Nat → Nat)
    (hMay : ∀ k ≤ n, Attempt.CanYield start.manager.options.identity
      (start.manager.policy interval).lease (outcomes k))
    (hMissed : ∀ k < n, acquiredVersion? (outcomes k) = none) :
    start.Admits id cycle.backoff draws outcomes n := by
  obtain ⟨events, session, hReaches, hResults, hDelays⟩ := exists_misses hCycle hPhase hInterval
    hFlag draws n (fun k hLess => hMay k (by omega)) hMissed
  constructor
  · intro version hAcquired
    have hWord := hMay n (Nat.le_refl n)
    rw [hAcquired] at hWord
    obtain ⟨more, last, hRun, hMore, hSame, hEnds⟩ :=
      exists_acquired hCycle hPhase hReaches hWord
    rw [hDelays] at hSame hEnds
    refine ⟨more, last, hRun, ?_, hSame, hEnds⟩
    rw [hMore, hResults, ← hAcquired, List.range_succ, List.map_append, List.map_singleton]
  · intro hMiss time hEarly hLate
    obtain ⟨more, next, due, hNext, hNow, hMore, hLonger⟩ :=
      exists_next_miss hCycle hPhase hReaches hResults hDelays (hMay n (by omega)) hMiss
    obtain ⟨-, _, hRetrying⟩ := hReaches.stands hCycle hPhase
    obtain ⟨hSilent, backoff, hStands⟩ := hNext.stands hCycle hPhase
    obtain ⟨hOpen, hBegun, hDue, -⟩ := hStands.of_waiting
    -- The delay begins when the last attempt was due, and ends when the next one is.
    have hBefore : next.now ≤ time := by
      rw [hNow, hRetrying.of_retrying.2.2, hDelays]
      exact hEarly
    have hAfter : time ≤ due := by
      rw [hDue, hLonger]
      exact hLate
    obtain ⟨final, last, hRun, hEnd⟩ := hNext.exists_stopped hBefore hAfter hSilent
    have hCount : (start.pursuit id more).begun.length = n + 1 := by
      rw [hBegun, length_attemptTimes, hLonger, Backoff.length_delays, List.length_map,
        List.length_range]
    refine ⟨final, last, hRun, ?_, ?_, ?_, ?_⟩
    · rw [hEnd]
      exact hMore
    · rw [hEnd]
      exact hLonger
    · rw [hEnd, hCount]
    · rw [hEnd, hOpen.unended]
      rfl

end

end Session
end Leasehold
