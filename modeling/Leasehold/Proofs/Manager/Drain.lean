import Leasehold.Proofs.Manager.Effects

/-!
# The way to the end of a cycle

Once the shutdown flag of a manager is raised, every cycle comes to its end without the passing
of time, whatever it waits for: there is a bound on the work that is left to the tasks of the
manager, and as long as a name is registered there is something to do.

* `Attempt.Stage.rest`, `Renewal.Stage.rest`: the responses that an operation still waits for.
* `Heartbeat.overdue`: the heartbeats that are due at one time; `overdue_tick` says that each one
  takes from them.
* `Cycle.Phase.work`: a bound on the moves that are left to a cycle; `Cycle.Move.work_lt` says
  that each move takes from it.
* `Cycle.total`, `Manager.work`: what the cycles of a manager weigh together.
* `Session.work`: a bound on the work that is left to a session; `work_of_step?` and
  `count_le_work` are the step and the run.
* `Session.Still`: nothing is left to do; `registered_eq_nil` says that no name is registered
  then.
* `Session.exists_still`: some work leads there.
-/

namespace Leasehold

/-! ## What is left of an operation -/

/-- The responses that an attempt still waits for, at most. -/
def Attempt.Stage.rest : Stage → Nat
  | .counting => 5
  | .searching => 4
  | .judging _ => 3
  | .stamping => 2
  | .claiming _ => 2
  | .inserting _ => 1
  | .replacing _ _ => 1
  | .finished _ => 0

/-- The responses that a renewal still waits for. -/
def Renewal.Stage.rest : Stage → Nat
  | .stamping => 2
  | .writing _ => 1
  | .finished _ => 0

namespace Attempt

theorem rest_claim (row : LockRow) : (claim row).rest ≤ 2 := by
  rcases claim_cases row with ⟨-, hClaim⟩ | ⟨-, hClaim⟩ <;> rw [hClaim]
  · exact Nat.le_refl 2
  · exact Nat.zero_le 2

theorem rest_afterCount (reply : Reply) : (afterCount reply).rest < 5 := by
  unfold afterCount
  split
  · exact Nat.zero_lt_succ _
  · split
    · show 2 < 5
      omega
    · show 4 < 5
      omega

theorem rest_afterSearch (identity : String) (reply : Reply) :
    (afterSearch identity reply).rest < 4 := by
  unfold afterSearch
  split
  · exact Nat.zero_lt_succ _
  · split
    · exact Nat.zero_lt_succ _
    · split
      · exact Nat.zero_lt_succ _
      · split
        · exact Nat.lt_of_le_of_lt (rest_claim _) (by omega)
        · show 3 < 4
          omega

theorem rest_afterJudgement (row : LockRow) (lease : Span) (now : Instant) :
    (afterJudgement row lease now).rest < 3 := by
  unfold afterJudgement
  split
  · exact Nat.lt_of_le_of_lt (rest_claim _) (by omega)
  · exact Nat.zero_lt_succ _

theorem rest_afterInsert (reply : Reply) : (afterInsert reply).rest < 1 := by
  cases reply <;> exact Nat.one_pos

theorem rest_afterReplace (row : LockRow) (reply : Reply) :
    (afterReplace row reply).rest < 1 := by
  cases reply <;> exact Nat.one_pos

/-- **A response that an attempt has asked for takes it further**, whatever it says. -/
theorem rest_resume {attempt : Attempt} {response : Response} {now : Nat} {flag : Bool}
    (h : Stimulus.suits now flag (.response response) (.ofRequest attempt.request?) = true) :
    (attempt.resume response).stage.rest < attempt.stage.rest := by
  obtain ⟨claimant, lease, stage⟩ := attempt
  cases response with
  | time reading =>
      cases stage with
      | stamping =>
          show 1 < 2
          omega
      | judging row => exact rest_afterJudgement row lease reading
      | claiming row =>
          show 1 < 2
          omega
      | _ => cases h
  | reply reply =>
      cases stage with
      | counting => exact rest_afterCount reply
      | inserting reading => exact rest_afterInsert reply
      | searching => exact rest_afterSearch claimant.identity reply
      | replacing row reading => exact rest_afterReplace row reply
      | _ => cases h

/-- An attempt that goes on has not ended before. -/
theorem result?_of_resume {attempt : Attempt} {response : Response}
    (h : (attempt.resume response).result?.isNone = true) : attempt.result?.isNone = true := by
  obtain ⟨claimant, lease, stage⟩ := attempt
  cases stage with
  | finished result => cases response <;> cases h
  | _ => rfl

/-- An attempt that asks for something has not ended. -/
theorem result?_of_request? {attempt : Attempt} {request : Request}
    (h : attempt.request? = some request) : attempt.result?.isNone = true := by
  cases hResult : attempt.result? with
  | none => rfl
  | some result =>
      have hNone := attempt.request?_eq_none_iff.mpr (Option.isSome_of_eq_some hResult)
      rw [h] at hNone
      cases hNone

end Attempt

theorem Renewal.rest_afterWrite (reply : Reply) : (afterWrite reply).rest < 1 := by
  cases reply <;> exact Nat.one_pos

/-- So does a response that a renewal has asked for. -/
theorem Renewal.rest_resume {renewal : Renewal} {response : Response} {now : Nat} {flag : Bool}
    (h : Stimulus.suits now flag (.response response) (.ofRequest renewal.request?) = true) :
    (renewal.resume response).stage.rest < renewal.stage.rest := by
  obtain ⟨claimant, stage⟩ := renewal
  cases response with
  | time reading =>
      cases stage with
      | stamping =>
          show 1 < 2
          omega
      | _ => cases h
  | reply reply =>
      cases stage with
      | writing reading => exact rest_afterWrite reply
      | _ => cases h

/-! ## Heartbeats that are due -/

namespace Heartbeat

/-- How many heartbeats are due at a time, one after the other: after one that is late the next
is a whole period away, and after any other it is a period after this one was due. -/
def overdue (beat : Heartbeat) (now : Nat) (period : Span) : Nat :=
  if now < beat.due then 0
  else if beat.due + tolerance < now then 1
  else (now - beat.due) / period.nanos + 1

variable {beat : Heartbeat} {now : Nat} {period : Span}

/-- The first heartbeat of a lease is not due when it is had. -/
theorem overdue_start (h : 0 < period.nanos) : (start now period).overdue now period = 0 := by
  have hLater : now < (start now period).due := by
    show now < now + period.nanos
    omega
  exact if_pos hLater

/-- **A heartbeat takes one from those that are due.** -/
theorem overdue_tick (hDue : beat.due ≤ now) (h : 0 < period.nanos) :
    (beat.tick now period).overdue now period + 1 = beat.overdue now period := by
  by_cases hLate : beat.due + tolerance < now
  -- A heartbeat that is late moves the schedule, so that the next one is not due.
  · have hNext : (beat.tick now period).due = now + period.nanos := if_pos hLate
    rw [overdue, overdue, hNext, if_pos (by omega), if_neg (by omega), if_pos hLate]
  -- After any other the schedule stays, and the next one may be due already.
  · have hNext : (beat.tick now period).due = beat.due + period.nanos := if_neg hLate
    rw [overdue, overdue, hNext, if_neg (show ¬now < beat.due by omega), if_neg hLate]
    by_cases hEnd : now < beat.due + period.nanos
    · have hNone : (now - beat.due) / period.nanos = 0 := Nat.div_eq_of_lt (by omega)
      rw [if_pos hEnd, hNone]
    · have hRest : now - (beat.due + period.nanos) = now - beat.due - period.nanos := by omega
      have hDiv : (now - beat.due) / period.nanos
          = (now - beat.due - period.nanos) / period.nanos + 1 := by
        rw [Nat.div_eq (now - beat.due), if_pos (by omega)]
      rw [if_neg hEnd, if_neg (by omega), hRest, hDiv]

/-- The heartbeats that are due fit into the time that one may be late. -/
theorem overdue_le (beat : Heartbeat) (now : Nat) (period : Span) :
    beat.overdue now period ≤ tolerance / period.nanos + 1 := by
  unfold overdue
  split
  · exact Nat.zero_le _
  · split
    · exact Nat.le_add_left 1 _
    · have hDiv : (now - beat.due) / period.nanos ≤ tolerance / period.nanos := by
        apply Nat.div_le_div_right
        omega
      exact Nat.succ_le_succ hDiv

end Heartbeat

/-! ## What is left of a cycle -/

namespace Cycle

/-- The heartbeats of a cycle that are due. -/
def Phase.overdue (now : Nat) (period : Span) : Phase → Nat
  | .beating beat _ => beat.overdue now period
  | .renewing beat _ _ => beat.overdue now period
  | _ => 0

/-- The moves that are left to a cycle but for those of heartbeats that are still to begin. -/
def Phase.rank : Phase → Nat
  | .attempting attempt => 7 + attempt.stage.rest
  | .acquired _ => 6
  | .marked _ _ => 5
  | .starting _ _ => 4
  | .beating _ _ => 3
  | .renewing _ renewal _ => 5 + renewal.stage.rest
  | .losing _ _ => 4
  | .demoting _ => 3
  | .waiting _ => 3
  | .retrying => 2
  | .cooling _ => 2
  | .stopping _ => 2
  | .departing => 1
  | .leaving => 1
  | .over => 0

/-- A bound on the moves that are left to a cycle. -/
def Phase.work (now : Nat) (period : Span) (phase : Phase) : Nat :=
  phase.rank + 5 * phase.overdue now period

/-- Whether an attempt on the lock is under way. -/
def Phase.isTrying : Phase → Bool
  | .attempting attempt => attempt.result?.isNone
  | _ => false

/-- Whether a heartbeat has begun. -/
def Phase.isRenewing : Phase → Bool
  | .renewing _ _ _ => true
  | _ => false

namespace Move

variable {manager : Manager} {cycle : Cycle} {moment : Moment} {stimulus : Stimulus}
  {phase phase' : Phase} {flag : Bool}

/-- **A heartbeat begins when it is due**, and by nothing else. -/
theorem overdue_add_le (h : Move manager cycle moment stimulus phase phase')
    (hSuits : stimulus.suits moment.now flag phase.need = true)
    (hPeriod : 0 < (manager.policy cycle.interval).heartbeat.nanos) :
    phase'.overdue moment.now (manager.policy cycle.interval).heartbeat
        + (if !phase.isRenewing && phase'.isRenewing then 1 else 0)
      ≤ phase.overdue moment.now (manager.policy cycle.interval).heartbeat := by
  cases h with
  | start version signal => exact Nat.le_of_eq (Heartbeat.overdue_start hPeriod)
  | beat beat signal =>
      exact Nat.le_of_eq (Heartbeat.overdue_tick (of_decide_eq_true hSuits) hPeriod)
  | recover hResult => exact Nat.le_refl _
  | falter hResult hFailed hFailures => exact Nat.le_refl _
  | renew beat renewal signal response => exact Nat.le_refl _
  | _ => exact Nat.zero_le _

/-- After the flag was raised every move takes a cycle further, but for one that begins a
heartbeat. -/
theorem rank_lt (h : Move manager cycle moment stimulus phase phase')
    (hSuits : stimulus.suits moment.now flag phase.need = true)
    (hFlag : manager.shutDown = true) :
    phase'.rank < phase.rank + 5 * (if !phase.isRenewing && phase'.isRenewing then 1 else 0) := by
  cases h with
  | attempt hDown =>
      rw [hFlag] at hDown
      cases hDown
  | answer attempt response => exact Nat.add_lt_add_left (Attempt.rest_resume hSuits) 7
  | renew beat renewal signal response =>
      exact Nat.add_lt_add_left (Renewal.rest_resume hSuits) 5
  | win hResult =>
      show 6 < 7 + _
      omega
  | miss hResult hMissed =>
      show 3 < 7 + _
      omega
  | recover hResult =>
      show 3 < 5 + _
      omega
  | falter hResult hFailed hFailures =>
      show 3 < 5 + _
      omega
  | lose hResult hFailed hFailures =>
      show 4 < 5 + _
      omega
  | beat beat signal =>
      -- The only move that adds to what is left, paid for by the heartbeat that it takes.
      show 7 < 3 + 5
      omega
  | wakeWaiting due =>
      show 1 < 3
      omega
  | _ => exact Nat.lt_succ_self _

/-- **Every move takes from the work that is left**, once the flag was raised. -/
theorem work_lt (h : Move manager cycle moment stimulus phase phase')
    (hSuits : stimulus.suits moment.now flag phase.need = true)
    (hFlag : manager.shutDown = true)
    (hPeriod : 0 < (manager.policy cycle.interval).heartbeat.nanos) :
    phase'.work moment.now (manager.policy cycle.interval).heartbeat
      < phase.work moment.now (manager.policy cycle.interval).heartbeat := by
  have hRank := h.rank_lt hSuits hFlag
  have hOverdue := h.overdue_add_le hSuits hPeriod
  rw [Phase.work, Phase.work]
  omega

/-- Once the flag was raised no attempt begins. -/
theorem isTrying_of_flag (h : Move manager cycle moment stimulus phase phase')
    (hFlag : manager.shutDown = true) (hTrying : phase'.isTrying = true) :
    phase.isTrying = true := by
  cases h with
  | attempt hDown =>
      rw [hFlag] at hDown
      cases hDown
  | answer attempt response => exact Attempt.result?_of_resume hTrying
  | _ => cases hTrying

end Move
end Cycle

/-! ## What is left of a manager -/

namespace Cycle

/-- What the cycles of a list weigh together. -/
def total (weigh : Cycle → Nat) : List Cycle → Nat
  | [] => 0
  | cycle :: rest => weigh cycle + total weigh rest

theorem total_concat (weigh : Cycle → Nat) (cycles : List Cycle) (cycle : Cycle) :
    total weigh (cycles ++ [cycle]) = total weigh cycles + weigh cycle := by
  induction cycles with
  | nil => exact Nat.add_comm _ _
  | cons first rest ih =>
      show weigh first + total weigh (rest ++ [cycle])
        = weigh first + total weigh rest + weigh cycle
      omega

/-- A cycle that takes the place of another one weighs in its stead. -/
theorem total_set (weigh : Cycle → Nat) {cycles : List Cycle} {id : Nat} {cycle : Cycle}
    (h : cycles[id]? = some cycle) (moved : Cycle) :
    total weigh (cycles.set id moved) + weigh cycle = total weigh cycles + weigh moved := by
  induction cycles generalizing id with
  | nil => cases h
  | cons first rest ih =>
      cases id with
      | zero =>
          obtain rfl : first = cycle := Option.some.inj h
          show weigh moved + total weigh rest + weigh first
            = weigh first + total weigh rest + weigh moved
          omega
      | succ place =>
          have hRest : total weigh (rest.set place moved) + weigh cycle
              = total weigh rest + weigh moved := ih h
          show weigh first + total weigh (rest.set place moved) + weigh cycle
            = weigh first + total weigh rest + weigh moved
          omega

end Cycle

namespace Manager

/-- The work that is left to a cycle of a manager. -/
def workOf (manager : Manager) (now : Nat) (cycle : Cycle) : Nat :=
  cycle.phase.work now (manager.policy cycle.interval).heartbeat

/-- A bound on the moves that are left to the cycles of a manager. -/
def work (manager : Manager) (now : Nat) : Nat := Cycle.total (manager.workOf now) manager.cycles

variable {manager next : Manager} {now : Nat}

theorem workOf_eq (h : next.options = manager.options) : next.workOf now = manager.workOf now := by
  funext cycle
  rw [workOf, policy, h, workOf, policy]

theorem work_eq (hCycles : next.cycles = manager.cycles)
    (hOptions : next.options = manager.options) : next.work now = manager.work now := by
  rw [work, hCycles, workOf_eq hOptions, work]

/-- A cycle that begins has two moves before it: it sees the flag, and it leaves. -/
theorem work_accept (name : String) (interval : IntervalClass) :
    (manager.accept name interval).work now = manager.work now + 2 :=
  Cycle.total_concat (manager.workOf now) manager.cycles _

/-- A move of a cycle takes from the work of its manager. -/
theorem Moves.work_lt {id draw : Nat} {cycle moved : Cycle} {stimulus : Stimulus}
    (h : manager.Moves next id cycle ⟨now, draw⟩ stimulus moved)
    (hCycle : manager.cycles[id]? = some cycle)
    (hSuits : stimulus.suits now manager.shutDown cycle.phase.need = true)
    (hFlag : manager.shutDown = true)
    (hPeriod : 0 < (manager.policy cycle.interval).heartbeat.nanos) :
    next.work now < manager.work now := by
  have hMoved : manager.workOf now moved < manager.workOf now cycle := by
    rw [workOf, h.interval]
    exact h.move.work_lt hSuits hFlag hPeriod
  have hTotal := Cycle.total_set (manager.workOf now) hCycle moved
  rw [work, h.cycles, workOf_eq h.options, work]
  omega

end Manager

/-! ## What is left of a session -/

namespace Session

/-- Whether an event is work under way: a move of a cycle, or the second half of a
registration. -/
def Event.isWork : Event → Bool
  | .move _ _ _ => true
  | .enroll _ => true
  | _ => false

/-- A bound on the work that is left to the tasks of a session. -/
def work (session : Session) : Nat := session.manager.work session.now + 3 * session.calls.length

/-- **The invariant of runs after the flag was raised.**  Every heartbeat period is positive. -/
structure Closing (session : Session) : Prop where
  sound : session.Sound
  flag : session.manager.shutDown = true
  periods : ∀ interval, 0 < (session.manager.policy interval).heartbeat.nanos

/-- Nothing is left to do. -/
def Still (session : Session) : Prop :=
  ∀ event : Event, event.isWork = true → session.step? event = none

variable {session next : Session} {event : Event} {events : List Event}

/-- Only the passing of time moves the clock. -/
theorem now_of_step? (h : session.step? event = some next)
    (hTime : ∀ nanos, event ≠ .pass nanos) : next.now = session.now := by
  cases event with
  | enter name interval =>
      simp only [step?] at h
      split at h <;> rw [← Option.some.inj h]
  | enroll k =>
      obtain ⟨call, -, rfl⟩ := Option.map_eq_some_iff.mp h
      rfl
  | raiseFlag =>
      simp only [step?] at h
      split at h
      · cases h
      · rw [← Option.some.inj h]
  | cancelOne signal =>
      simp only [step?] at h
      split at h
      · rw [← Option.some.inj h]
      · cases h
  | cancelRegistered =>
      simp only [step?] at h
      split at h
      · rw [← Option.some.inj h]
      · cases h
  | move id draw stimulus =>
      obtain ⟨cycle, -, -, rfl⟩ := exists_of_move h
      rfl
  | pass nanos => exact absurd rfl (hTime nanos)
  | receive => rw [← Option.some.inj h]
  | dropReceiver => rw [← Option.some.inj h]

/-- **Induction over runs in which no time passes.** -/
theorem timeless_induction {motive : List Event → Session → Prop} (hNil : motive [] session)
    (hSnoc : ∀ events before event after, session.run? events = some before →
      motive events before → before.step? event = some after →
      (∀ nanos, event ≠ .pass nanos) → motive (events ++ [event]) after)
    (hRun : session.run? events = some next) (hTime : ∀ nanos, .pass nanos ∉ events) :
    motive events next := by
  revert hTime
  refine runs?_induction (motive := fun events later =>
    (∀ nanos, .pass nanos ∉ events) → motive events later) (fun _ => hNil) ?_ hRun
  intro events before event after hBefore ih hStep hTime
  apply hSnoc events before event after hBefore _ hStep
  · rintro nanos rfl
    exact hTime nanos (List.mem_append_right _ List.mem_cons_self)
  · exact ih fun nanos hMem => hTime nanos (List.mem_append_left _ hMem)

/-- The options of a manager stay as they are. -/
theorem options_of_run (hRun : session.run? events = some next) :
    next.manager.options = session.manager.options :=
  runs?_induction (motive := fun _ later => later.manager.options = session.manager.options) rfl
    (fun _ _ _ _ _ hBefore hStep => (change_of_step? hStep).options.trans hBefore) hRun

namespace Closing

theorem of_run {options : Manager.Options} {capacity : Nat} {manager : Manager}
    (hNew : Manager.new options capacity = .ok manager)
    (hRun : (around manager).run? events = some session)
    (hFlag : session.manager.shutDown = true) : session.Closing := by
  have hValid := (Manager.Options.of_validate (Manager.eq_of_new hNew).1).2
  refine ⟨(Sound.around hNew).run hRun, hFlag, fun interval => ?_⟩
  rw [Manager.policy, options_of_run hRun, (Manager.eq_of_new hNew).2]
  exact (hValid interval).1

theorem step (h : session.Closing) (hStep : session.step? event = some next) : next.Closing := by
  have hChange := change_of_step? hStep
  refine ⟨h.sound.step hStep, hChange.shutDown h.flag, fun interval => ?_⟩
  rw [Manager.policy, hChange.options]
  exact h.periods interval

theorem run (h : session.Closing) (hRun : session.run? events = some next) : next.Closing :=
  runs?_induction (motive := fun _ later => later.Closing) h
    (fun _ _ _ _ _ hBefore hStep => hBefore.step hStep) hRun

/-- A registration takes less work from its cycle than it was counted for. -/
theorem work_of_enroll {k : Nat} (hStep : session.step? (.enroll k) = some next) :
    next.work < session.work := by
  obtain ⟨⟨name, interval⟩, hCall, rfl⟩ := Option.map_eq_some_iff.mp hStep
  obtain ⟨hBound, -⟩ := List.getElem?_eq_some_iff.mp hCall
  have hCalls : (session.enrolled k name interval).calls.length = session.calls.length - 1 :=
    List.length_eraseIdx_of_lt hBound
  have hManager : (session.enrolled k name interval).manager.work session.now
      ≤ session.manager.work session.now + 2 := by
    cases hTaken : session.manager.registry.contains name with
    | true =>
        obtain ⟨entry, hEnroll⟩ := Manager.exists_enroll_of_contains hTaken interval
        simp only [enrolled, hEnroll]
        omega
    | false =>
        obtain ⟨entry, hEnroll⟩ := Manager.exists_enroll_of_free hTaken interval
        simp only [enrolled, hEnroll]
        exact Nat.le_of_eq (Manager.work_accept name interval)
  show (session.enrolled k name interval).manager.work session.now + 3 * _ < _
  rw [hCalls, work]
  omega

/-- What is no work leaves the cycles and the registrations under way alone. -/
theorem same_of_step? (h : session.Closing) (hStep : session.step? event = some next)
    (hQuiet : event.isWork = false) :
    next.manager.cycles = session.manager.cycles ∧ next.calls = session.calls := by
  cases event with
  | enter name interval =>
      simp only [step?, Manager.screen, h.flag, if_true] at hStep
      rw [← Option.some.inj hStep]
      exact ⟨rfl, rfl⟩
  | raiseFlag =>
      simp only [step?, h.flag, if_true] at hStep
      cases hStep
  | cancelOne signal =>
      simp only [step?] at hStep
      split at hStep
      · rw [← Option.some.inj hStep]
        exact ⟨rfl, rfl⟩
      · cases hStep
  | cancelRegistered =>
      simp only [step?, h.flag, if_true] at hStep
      rw [← Option.some.inj hStep]
      exact ⟨rfl, rfl⟩
  | enroll k => cases hQuiet
  | move id draw stimulus => cases hQuiet
  | _ =>
      rw [← Option.some.inj hStep]
      exact ⟨rfl, rfl⟩

/-- **Whatever happens without the passing of time takes from the work that is left**, or it is
none of it. -/
theorem work_of_step? (h : session.Closing) (hStep : session.step? event = some next)
    (hTime : ∀ nanos, event ≠ .pass nanos) :
    next.work + (if event.isWork then 1 else 0) ≤ session.work := by
  cases hWork : event.isWork with
  | false =>
      obtain ⟨hCycles, hCalls⟩ := h.same_of_step? hStep hWork
      have hOptions := (change_of_step? hStep).options
      rw [work, now_of_step? hStep hTime, Manager.work_eq hCycles hOptions, hCalls]
      exact Nat.le_refl _
  | true =>
      cases event with
      | enroll k => exact work_of_enroll hStep
      | move id draw stimulus =>
          obtain ⟨cycle, moved, hCycle, hSuits, hMoves, rfl⟩ := exists_moves_of_move hStep
          have hLess := hMoves.work_lt hCycle hSuits h.flag (h.periods cycle.interval)
          exact Nat.add_lt_add_right hLess (3 * session.calls.length)
      | _ => cases hWork

/-- **The work that is left is bounded**: without the passing of time no run does more. -/
theorem count_le_work (h : session.Closing) (hRun : session.run? events = some next)
    (hTime : ∀ nanos, .pass nanos ∉ events) :
    next.work + events.countP Event.isWork ≤ session.work := by
  refine timeless_induction (motive := fun events later =>
    later.work + events.countP Event.isWork ≤ session.work) (Nat.le_refl _) ?_ hRun hTime
  intro events before event after hBefore ih hStep hEvent
  have hLast := (h.run hBefore).work_of_step? hStep hEvent
  rw [List.countP_append, List.countP_singleton]
  omega

/-! ## Nothing left to do -/

/-- Once the flag was raised a cycle that is not over has something to do: a cycle that waits
for a time to come is woken by the flag. -/
theorem exists_suits (h : session.Closing) {cycle : Cycle} (hLive : cycle.phase.isLive = true) :
    ∃ stimulus : Stimulus,
      stimulus.suits session.now session.manager.shutDown cycle.phase.need = true := by
  cases hNeed : cycle.phase.need with
  | nothing => exact ⟨.turn, rfl⟩
  | time => exact ⟨.response (.time ⟨0, 0⟩), rfl⟩
  | answer call => exact ⟨.response (.reply (.ok (.number 0))), rfl⟩
  | pause due => exact ⟨.shutdown, h.flag⟩
  | finished => exact absurd hNeed (Cycle.Phase.need_ne_finished_of_isLive hLive)

/-- **Nothing is left to do** exactly when every cycle is over and no registration is under
way. -/
theorem still_iff (h : session.Closing) :
    session.Still ↔ (∀ (id : Nat) (cycle : Cycle), session.manager.cycles[id]? = some cycle →
      cycle.phase.isLive = false) ∧ session.calls = [] := by
  constructor
  · intro hStill
    constructor
    · intro id cycle hCycle
      refine Bool.eq_false_iff.mpr fun hLive => ?_
      obtain ⟨stimulus, hSuits⟩ := h.exists_suits hLive
      have hNone := hStill (.move id 0 stimulus) rfl
      rw [step?_move hCycle hSuits] at hNone
      cases hNone
    · cases hCalls : session.calls with
      | nil => rfl
      | cons call rest =>
          have hNone := hStill (.enroll 0) rfl
          simp only [step?, hCalls, List.getElem?_cons_zero] at hNone
          cases hNone
  · rintro ⟨hOver, hCalls⟩ event hWork
    cases event with
    | enroll k =>
        simp only [step?, hCalls, List.getElem?_nil]
        rfl
    | move id draw stimulus =>
        cases hStep : session.step? (.move id draw stimulus) with
        | none => rfl
        | some next =>
            obtain ⟨cycle, moved, hCycle, -, hMoves, -⟩ := exists_moves_of_move hStep
            have hLive := hMoves.move.isLive
            rw [hOver id cycle hCycle] at hLive
            cases hLive
    | _ => cases hWork

/-- **When nothing is left to do no name is registered.** -/
theorem registered_eq_nil (h : session.Closing) (hStill : session.Still) :
    session.manager.registered = [] := by
  cases hEntries : session.manager.registry.entries with
  | nil => rw [Manager.registered, hEntries, List.map_nil]
  | cons entry rest =>
      obtain ⟨name, registration⟩ := entry
      have hGet : session.manager.registry.get? name = some registration := by
        rw [OrderedMap.get?, hEntries]
        exact if_pos rfl
      obtain ⟨id, cycle, hCycle, -, hLive⟩ := h.sound.coherent.registered name registration hGet
      rw [(h.still_iff.mp hStill).1 id cycle hCycle] at hLive
      cases hLive

/-- Once nothing is left to do nothing ever is, also when time passes. -/
theorem still_of_step? (h : session.Closing) (hStill : session.Still)
    (hStep : session.step? event = some next) : next.Still := by
  have hQuiet : event.isWork = false := by
    refine Bool.eq_false_iff.mpr fun hWork => ?_
    rw [hStill event hWork] at hStep
    cases hStep
  obtain ⟨hCycles, hCalls⟩ := h.same_of_step? hStep hQuiet
  rw [(h.step hStep).still_iff, hCycles, hCalls]
  exact h.still_iff.mp hStill

theorem still_of_run (h : session.Closing) (hStill : session.Still)
    (hRun : session.run? events = some next) : next.Still :=
  runs?_induction (motive := fun _ later => later.Still) hStill
    (fun _ _ _ _ hBefore ih hStep => (h.run hBefore).still_of_step? ih hStep) hRun

/-- **Some work leads to where nothing is left to do.** -/
theorem exists_still (h : session.Closing) :
    ∃ events later, session.run? events = some later ∧
      (∀ event ∈ events, event.isWork = true) ∧ later.Still := by
  induction hLeft : session.work using Nat.strongRecOn generalizing session with
  | ind left ih =>
      subst hLeft
      by_cases hStill : session.Still
      · exact ⟨[], session, rfl, nofun, hStill⟩
      · obtain ⟨event, hSome⟩ := Classical.not_forall.mp hStill
        obtain ⟨hWork, hSome⟩ := Classical.not_imp.mp hSome
        obtain ⟨next, hStep⟩ := Option.ne_none_iff_exists'.mp hSome
        have hLess := h.work_of_step? hStep fun nanos hPass => by
          rw [hPass] at hWork
          cases hWork
        rw [hWork, if_pos rfl] at hLess
        obtain ⟨events, later, hRun, hAll, hLater⟩ := ih next.work hLess (h.step hStep) rfl
        refine ⟨event :: events, later, ?_, ?_, hLater⟩
        · show (session.step? event).bind _ = some later
          rw [hStep]
          exact hRun
        · exact List.forall_mem_cons.mpr ⟨hWork, hAll⟩

end Closing
end Session
end Leasehold
