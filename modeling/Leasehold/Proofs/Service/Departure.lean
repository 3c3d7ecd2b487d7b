import Leasehold.Proofs.Manager.Losses
import Leasehold.Service.Stop

/-!
# How the service departs

The service registers the name of its lock and waits, while its manager gets the lock, starts the
command and may lose the lease.  A signal, the loss and the end of the command reach the service in
any order.  It takes one of them, and before it looks at the state of the name its manager may go
on.  The command is cancelled in any case, but it is waited for only if no loss was published before
the look; so a service that stops for a lost lease waits for nothing.

* `Session.Course`: how far the one lock of a session has come.
* `Session.Attended`: a session with one name that nobody shuts down, `Attended.run` its runs.
* `Service.Watch`: the service with its manager and what has reached it.
* `Service.delay`: how long the service takes to return, `Service.Awaited` what it may wait for.
* `Service.Watch.awaited_iff_unlost`: when the command is waited for.
* `Service.Watch.left_behind`: a command that is not.
-/

namespace Leasehold

namespace Session

/-- What happens to a manager by itself: a cycle moves, or time passes. -/
def Event.isOwn : Event → Bool
  | .move _ _ _ => true
  | .pass _ => true
  | _ => false

end Session

/-- Whether an effect is the start of a job. -/
def Effect.startsJob : Effect → Bool
  | .startJob _ _ => true
  | _ => false

namespace Session

/-- **How far the one lock of a session has come**: it is still sought, it is held, or it was lost
and the loss was published. -/
inductive Course (session : Session) (name : String) : Prop where
  | sought (hState : session.manager.state name = .acquiring)
      (hIdle : ∀ id signal, .startJob id signal ∉ session.effects)
      (hNone : session.manager.outbox.pending = [])
  | had (hState : session.manager.state name = .held)
      (hNone : session.manager.outbox.pending = [])
  | gone (hState : session.manager.state name = .lost ∨ session.manager.state name = .unregistered)
      (hSome : session.manager.outbox.pending ≠ [])

/-- **A session with one name** that nobody shuts down, and whose losses nobody takes. -/
structure Attended (session : Session) (name : String) : Prop where
  struck : session.Struck
  unflagged : session.manager.shutDown = false
  there : session.manager.outbox.dropped = false
  sole : ∀ (id : Nat) (cycle : Cycle), session.manager.cycles[id]? = some cycle →
    cycle.name = name
  course : session.Course name

variable {session next : Session} {event : Event} {events : List Event} {name : String}

/-- A name that is registered has a state. -/
theorem Sound.state_ne_unregistered (h : session.Sound)
    (hContains : session.manager.registry.contains name = true) :
    session.manager.state name ≠ .unregistered := by
  obtain ⟨id, cycle, hCycle, rfl, hLive⟩ := (h.contains_iff name).mp hContains
  obtain ⟨registration, hShown, hShows⟩ := h.shows hCycle rfl hLive
  rw [hShown]
  intro hNone
  generalize cycle.phase = phase at hShows
  cases phase with
  | leaving =>
      rcases hShows with ⟨hState, -⟩ | ⟨hState, -⟩
      · rw [hState] at hNone
        cases hNone
      · rw [hState] at hNone
        cases hNone
  | «over» => exact hShows
  | _ =>
      rw [hShows.1] at hNone
      cases hNone

/-- What drives a name after a manager has gone on has driven it before. -/
theorem drives_of_isOwn (hStep : session.step? event = some next) (hOwn : event.isOwn = true)
    {id : Nat} (h : next.Drives id name) : session.Drives id name := by
  obtain ⟨cycle, hCycle, hName, hLive⟩ := h
  cases (change_of_step? hStep).origin hCycle with
  | same hSame => exact ⟨cycle, hSame, hName, hLive⟩
  | begun hEvent hCall hFree hManager hId hNew =>
      rw [hEvent] at hOwn
      cases hOwn
  | @moved draw stimulus earlier hEvent hEarlier hSuits hMoves =>
      exact ⟨earlier, hEarlier, hMoves.name.symm.trans hName, hMoves.move.isLive⟩

/-- **What a manager that goes on by itself does to the losses**: it publishes that of a name which
it takes from held to lost, or it takes no name there and publishes nothing. -/
theorem Struck.published_cases (h : session.Struck) (hStep : session.step? event = some next)
    (hOwn : event.isOwn = true) :
    (∃ loss : LeaseLoss, session.manager.state loss.name = .held ∧
      next.manager.state loss.name = .lost ∧
      next.manager.outbox = (session.manager.outbox.publish loss).1) ∨
    (∀ name, session.manager.state name = .held → next.manager.state name ≠ .lost) ∧
      next.manager.outbox = session.manager.outbox := by
  cases h.tally hStep with
  | lost hEvent hDrives hHeld hLost hOthers hPublished hCounted =>
      exact .inl ⟨_, hHeld, hLost, hPublished⟩
  | kept hKept hOutbox hCounted =>
      refine .inr ⟨hKept, hOutbox.trans ?_⟩
      cases event with
      | move id draw stimulus => rfl
      | pass nanos => rfl
      | _ => cases hOwn

namespace Attended

/-- No other name is held. -/
theorem eq_of_held (h : session.Attended name) {other : String}
    (hHeld : session.manager.state other = .held) : other = name := by
  have hContains := Manager.contains_of_state (show session.manager.state other ≠ .unregistered by
    rw [hHeld]; decide)
  obtain ⟨id, cycle, hCycle, hName, -⟩ := (h.struck.jobs.sound.contains_iff other).mp hContains
  exact hName.symm.trans (h.sole id cycle hCycle)

/-- No job is started while the lock is sought. -/
theorem idle (h : session.Attended name) (hState : session.manager.state name = .acquiring)
    (hIdle : ∀ id signal, .startJob id signal ∉ session.effects)
    (hStep : session.step? event = some next) (id : Nat) (signal : SignalId) :
    .startJob id signal ∉ next.effects := by
  intro hStarted
  rcases startJob_cases hStep hStarted with hOld | ⟨cycle, version, hCycle, hPhase⟩
  · exact hIdle id signal hOld
  · obtain ⟨registration, hShown, hShows⟩ := h.struck.jobs.sound.shows hCycle hPhase rfl
    rw [h.sole id cycle hCycle, hState, hShows.1] at hShown
    cases hShown

/-- **The lock goes its course.** -/
theorem course_step (h : session.Attended name) (hStep : session.step? event = some next)
    (hOwn : event.isOwn = true) : next.Course name := by
  have hSound := h.struck.jobs.sound
  have hFollows := hSound.follows hStep name
  rw [h.unflagged] at hFollows
  rcases h.struck.published_cases hStep hOwn with ⟨loss, hHeld, hLost, hPublished⟩ | ⟨hKept, hSame⟩
  · rw [h.eq_of_held hHeld] at hLost
    refine .gone (.inl hLost) ?_
    rw [hPublished, Outbox.pending_publish _ _ h.there]
    exact List.append_ne_nil_of_right_ne_nil _ (List.cons_ne_nil _ _)
  · -- Nothing is published, so that only the state of the name may have changed.
    generalize hNext : next.manager.state name = state at hFollows
    cases h.course with
    | sought hState hIdle hNone =>
        rw [hState] at hFollows
        cases hFollows with
        | stay => exact .sought hNext (h.idle hState hIdle hStep) (hSame ▸ hNone)
        | hold => exact .had hNext (hSame ▸ hNone)
        | stop hFlag => cases hFlag
    | had hState hNone =>
        rw [hState] at hFollows
        cases hFollows with
        | stay => exact .had hNext (hSame ▸ hNone)
        | lose => exact absurd hNext (hKept name hState)
        | stop hFlag => cases hFlag
    | gone hState hSome =>
        rcases hState with hLost | hFree
        · rw [hLost] at hFollows
          cases hFollows with
          | stay => exact .gone (.inl hNext) (hSame ▸ hSome)
          | release => exact .gone (.inr hNext) (hSame ▸ hSome)
          | stop hFlag => cases hFlag
        · rw [hFree] at hFollows
          cases hFollows with
          | stay => exact .gone (.inr hNext) (hSame ▸ hSome)
          | register =>
              -- Nobody registers a name while the manager goes on by itself.
              have hContains := Manager.contains_of_state
                (show next.manager.state name ≠ .unregistered by rw [hNext]; decide)
              obtain ⟨id, hDrives⟩ := ((hSound.step hStep).contains_iff name).mp hContains
              have hBefore := (hSound.contains_iff name).mpr
                ⟨id, drives_of_isOwn hStep hOwn hDrives⟩
              exact absurd hFree (hSound.state_ne_unregistered hBefore)
          | stop hFlag => cases hFlag

/-- **A manager that goes on by itself stays attended.** -/
theorem step (h : session.Attended name) (hStep : session.step? event = some next)
    (hOwn : event.isOwn = true) : next.Attended name := by
  have hChange := change_of_step? hStep
  refine ⟨h.struck.step hStep, ?_, ?_, ?_, h.course_step hStep hOwn⟩
  · cases hChange with
    | kept hSame => exact hSame.shutDown.trans h.unflagged
    | accepted hEvent hCall hFree hManager =>
        rw [hEvent] at hOwn
        cases hOwn
    | raised hEvent hFlag hManager =>
        rw [hEvent] at hOwn
        cases hOwn
    | walked hFlag hManager =>
        rw [h.unflagged] at hFlag
        cases hFlag
    | moved hEvent hCycle hSuits hMoves => exact hMoves.shutDown.trans h.unflagged
  · rcases h.struck.published_cases hStep hOwn with ⟨loss, -, -, hPublished⟩ | ⟨-, hSame⟩
    · rw [hPublished, Outbox.publish]
      split
      · exact h.there
      · split <;> exact h.there
    · rw [hSame]
      exact h.there
  · intro id cycle hCycle
    cases hChange.origin hCycle with
    | same hSame => exact h.sole id cycle hSame
    | begun hEvent hCall hFree hManager hId hNew =>
        rw [hEvent] at hOwn
        cases hOwn
    | moved hEvent hEarlier hSuits hMoves => exact hMoves.name.trans (h.sole id _ hEarlier)

/-- **The registration of a first name.** -/
theorem registered {options : Manager.Options} {capacity : Nat} {manager : Manager}
    (hNew : Manager.new options capacity = .ok manager) (hName : Lock.isName name = true)
    (interval : IntervalClass) :
    Attended { Session.around manager with
      manager := (manager.run name interval).2.1
      effects := (manager.run name interval).2.2 } name := by
  obtain ⟨hValid, hManager⟩ := Manager.eq_of_new hNew
  have hScreen : manager.screen name = .ok () :=
    (manager.screen_eq_ok_iff name).mpr ⟨by rw [hManager], hName⟩
  have hFree : manager.registry.contains name = false := by rw [hManager]; rfl
  obtain ⟨entry, hEnroll⟩ := Manager.exists_enroll_of_free hFree interval
  have hRun : manager.run name interval
      = (.ok true, manager.accept name interval, [.log entry]) := by
    rw [manager.run_eq, hScreen]
    simp only [hEnroll]
  have hSteps : (Session.around manager).run? [.enter name interval, .enroll 0]
      = some ⟨manager.accept name interval, 0, [], [.log entry]⟩ := by
    simp [Session.run?, runs?, Session.step?, Session.around, hScreen, enrolled, hEnroll]
  rw [hRun]
  refine ⟨(Struck.around hNew).run hSteps, ?_, ?_, ?_, .sought ?_ ?_ ?_⟩
  · rw [hManager]
    rfl
  · rw [hManager]
    rfl
  · intro id cycle hCycle
    simp only [Manager.accept, Manager.cycles_of_new hNew, List.nil_append,
      List.getElem?_singleton] at hCycle
    split at hCycle
    · rw [← Option.some.inj hCycle]
      rfl
    · cases hCycle
  · have hGet : (manager.accept name interval).registry.get? name
        = some ⟨interval, .acquiring, none⟩ := OrderedMap.get?_insert_self _ _ _
    exact Manager.state_of_get? hGet
  · intro id signal hStarted
    have hLogged := List.mem_singleton.mp hStarted
    cases hLogged
  · rw [hManager]
    rfl

/-- A manager that has started a job has had its lock. -/
theorem held_iff (h : session.Attended name)
    (hStarted : session.effects.any Effect.startsJob = true) :
    session.manager.state name = .held ↔ session.manager.outbox.pending = [] := by
  cases h.course with
  | sought hState hIdle hNone =>
      obtain ⟨effect, hEffect, hStarts⟩ := List.any_eq_true.mp hStarted
      cases effect with
      | startJob id signal => exact absurd hEffect (hIdle id signal)
      | _ => cases hStarts
  | had hState hNone => exact iff_of_true hState hNone
  | gone hState hSome =>
      refine iff_of_false (fun hHeld => ?_) hSome
      rcases hState with hLost | hFree
      · rw [hLost] at hHeld
        cases hHeld
      · rw [hFree] at hHeld
        cases hHeld

/-- Losses stay published while nobody takes them. -/
theorem pending_ne_nil_of_step (h : session.Attended name)
    (hStep : session.step? event = some next) (hOwn : event.isOwn = true)
    (hSome : session.manager.outbox.pending ≠ []) : next.manager.outbox.pending ≠ [] := by
  rcases h.struck.published_cases hStep hOwn with ⟨loss, -, -, hPublished⟩ | ⟨-, hSame⟩
  · rw [hPublished, Outbox.pending_publish _ _ h.there]
    exact List.append_ne_nil_of_right_ne_nil _ (List.cons_ne_nil _ _)
  · rw [hSame]
    exact hSome

/-- **A shutdown reaches the job** of a session. -/
theorem isCancelled_of_shutdown (h : session.Attended name) {id : Nat} {signal : SignalId}
    (hStarted : .startJob id signal ∈ session.effects) :
    session.manager.shutdown.1.signals.isCancelled signal = true := by
  have hRaise : session.step? .raiseFlag = some { session with
      manager := session.manager.raiseFlag
      effects := session.effects ++ session.manager.shutdown.2 } := by
    simp only [step?, h.unflagged, Bool.false_eq_true, if_false]
  have hWalk : step? { session with
      manager := session.manager.raiseFlag
      effects := session.effects ++ session.manager.shutdown.2 } .cancelRegistered
        = some { session with
          manager := session.manager.raiseFlag.cancelRegistered
          effects := session.effects ++ session.manager.shutdown.2 } := rfl
  have hJobs := h.struck.jobs.step hRaise
  rw [Manager.shutdown_eq _ h.unflagged]
  exact (Drained.of_walk hJobs.sound hWalk).isCancelled (hJobs.step hWalk)
    (List.mem_append_left _ hStarted)

end Attended
end Session

/-! ## The service -/

namespace Service

/-- How long the service takes to return once it has stopped, if its command reports its end after
some milliseconds, or never. -/
def delay (manager : Manager) (name : String) (stop : Stop) (ready? : Option Nat) (limit : Span) :
    Nat :=
  if (leave manager name stop).1 then (await name ready? limit).1 else 0

/-- **The command is awaited**: it has reported its end by then, or the limit has passed. -/
def Awaited (ready? : Option Nat) (limit : Span) (time : Nat) : Prop :=
  (∃ ready, ready? = some ready ∧ ready ≤ time) ∨ limit.timerMillis ≤ time

instance (ready? : Option Nat) (limit : Span) (time : Nat) :
    Decidable (Awaited ready? limit time) :=
  decidable_of_iff (ready?.any (fun ready => decide (ready ≤ time)) = true
      ∨ limit.timerMillis ≤ time) <| by
    simp only [Awaited, Option.any_eq_true, decide_eq_true_eq]

/-- A wait comes to its end when the command reports, or with the limit. -/
theorem awaited_await (name : String) (ready? : Option Nat) (limit : Span) :
    Awaited ready? limit (await name ready? limit).1 := by
  cases ready? with
  | none => exact .inr (Nat.le_refl _)
  | some ready =>
      by_cases hInTime : ready ≤ limit.timerMillis
      · refine .inl ⟨ready, rfl, ?_⟩
        simp only [await, Deadline.await, if_pos hInTime]
        exact Nat.le_refl _
      · refine .inr ?_
        simp only [await, Deadline.await, if_neg hInTime]
        exact Nat.le_refl _

/-- **The service with its manager**: whether a signal has come, how the command has ended, and what
the service stops for once it does. -/
structure Watch where
  session : Session
  signalled : Bool
  ending? : Option Command.Exit
  stop? : Option Stop
  deriving Repr

/-- What happens next: the manager goes on by itself, a signal comes, the command that was started
reports its end, or the service takes something to stop for. -/
inductive Watch.Event where
  | advance (event : Session.Event)
  | signal
  | report (ending : Command.Exit)
  | stop (stop : Stop)
  deriving Repr

namespace Watch

/-- The service once it has registered the name of its lock. -/
def around (manager : Manager) (name : String) (interval : IntervalClass) : Watch :=
  let outcome := manager.run name interval
  ⟨{ Session.around manager with manager := outcome.2.1, effects := outcome.2.2 }, false, none,
    none⟩

/-- Whether the command was started. -/
def hasStarted (watch : Watch) : Bool := watch.session.effects.any Effect.startsJob

/-- What has reached the service. -/
def pending (watch : Watch) : Pending :=
  ⟨watch.signalled, watch.session.manager.outbox.receive.1, watch.ending?⟩

/-- One event; `none` if it cannot happen.  A loss that the service stops for stays in the outbox,
which nobody reads again. -/
def step? (watch : Watch) : Event → Option Watch
  | .advance event =>
    if event.isOwn then
      (watch.session.step? event).map fun session => { watch with session := session }
    else none
  | .signal => some { watch with signalled := true }
  | .report ending =>
    if watch.hasStarted && watch.ending?.isNone then some { watch with ending? := some ending }
    else none
  | .stop stop =>
    if watch.stop?.isNone ∧ stop ∈ watch.pending.stops then some { watch with stop? := some stop }
    else none

/-- A run of events. -/
def run? (watch : Watch) (events : List Event) : Option Watch := runs? step? watch events

variable {watch next : Watch} {event : Event} {events : List Event} {name : String} {stop : Stop}

/-- **An event leaves the manager alone, or the manager goes on by itself.** -/
theorem session_of_step? (h : watch.step? event = some next) :
    next.session = watch.session ∨ ∃ own : Session.Event,
      watch.session.step? own = some next.session ∧ own.isOwn = true := by
  cases event with
  | advance own =>
      simp only [step?] at h
      split at h
      · next hOwn =>
        obtain ⟨session, hStep, rfl⟩ := Option.map_eq_some_iff.mp h
        exact .inr ⟨own, hStep, hOwn⟩
      · cases h
  | signal =>
      obtain rfl := Option.some.inj h
      exact .inl rfl
  | report ending =>
      simp only [step?] at h
      split at h
      · obtain rfl := Option.some.inj h
        exact .inl rfl
      · cases h
  | stop stop =>
      simp only [step?] at h
      split at h
      · obtain rfl := Option.some.inj h
        exact .inl rfl
      · cases h

/-- Every event leaves the manager attended, and what was started or published stays so. -/
theorem attended_step (h : watch.session.Attended name) (hStep : watch.step? event = some next) :
    next.session.Attended name ∧ (watch.hasStarted = true → next.hasStarted = true) ∧
      (watch.session.manager.outbox.pending ≠ [] →
        next.session.manager.outbox.pending ≠ []) := by
  rcases session_of_step? hStep with hSame | ⟨own, hOwnStep, hOwn⟩
  · rw [hasStarted, hasStarted, hSame]
    exact ⟨h, id, id⟩
  · refine ⟨h.step hOwnStep hOwn, fun hStarted => ?_, h.pending_ne_nil_of_step hOwnStep hOwn⟩
    obtain ⟨more, hEffects, -⟩ := (Session.frame_of_step? hOwnStep).effects
    rw [hasStarted, hEffects, List.any_append, Bool.or_eq_true]
    exact .inl hStarted

theorem attended_run (h : watch.session.Attended name) (hRun : watch.run? events = some next) :
    next.session.Attended name ∧ (watch.hasStarted = true → next.hasStarted = true) ∧
      (watch.session.manager.outbox.pending ≠ [] →
        next.session.manager.outbox.pending ≠ []) := by
  refine runs?_induction (motive := fun _ later => later.session.Attended name ∧
    (watch.hasStarted = true → later.hasStarted = true) ∧
    (watch.session.manager.outbox.pending ≠ [] → later.session.manager.outbox.pending ≠ []))
    ⟨h, id, id⟩ ?_ hRun
  rintro done before event after - ⟨hBefore, hStarted, hSome⟩ hStep
  obtain ⟨hAfter, hStays, hKeeps⟩ := attended_step hBefore hStep
  exact ⟨hAfter, hStays ∘ hStarted, hKeeps ∘ hSome⟩

/-- What a service stops for whose command has not reported its end. -/
theorem stop_cases (hUnreported : watch.ending? = none)
    (hStep : watch.step? (.stop stop) = some next) :
    stop = .signal ∨ ∃ loss, stop = .leaseLost loss ∧
      watch.session.manager.outbox.pending ≠ [] := by
  simp only [step?] at hStep
  split at hStep
  · next hStop =>
    have hMem := hStop.2
    simp only [pending, Pending.stops, hUnreported, List.mem_append, Option.toList_none,
      List.map_nil, List.not_mem_nil, or_false] at hMem
    rcases hMem with hSignal | hLoss
    · split at hSignal
      · exact .inl (List.mem_singleton.mp hSignal)
      · cases hSignal
    · obtain ⟨loss, hTaken, rfl⟩ := List.mem_map.mp hLoss
      refine .inr ⟨loss, rfl, fun hNone => ?_⟩
      have hQueued := (List.append_eq_nil_iff.mp hNone).1
      rw [Option.mem_toList, Outbox.receive, hQueued] at hTaken
      cases hTaken
  · cases hStep

/-- **The command is cancelled, and awaited if its lease is not lost.**  A service whose command was
started and has not reported its end stops for something; then events follow before it looks at the
state of the name.  It returns when the command has reported or the limit has passed, if no loss
was published by then, and at once otherwise; it always returns at once when it has stopped for a
lost lease.  The command is cancelled in any case. -/
theorem awaited_iff_unlost {options : Manager.Options} {capacity : Nat} {manager : Manager}
    {interval : IntervalClass} {later : List Event} {stopped last : Watch}
    (hNew : Manager.new options capacity = .ok manager) (hName : Lock.isName name = true)
    (hRun : (around manager name interval).run? events = some watch)
    (hStarted : watch.hasStarted = true) (hUnreported : watch.ending? = none)
    (hStop : watch.step? (.stop stop) = some stopped) (hLater : stopped.run? later = some last) :
    (last.session.manager.outbox.pending = [] → ∀ ready? limit,
      Awaited ready? limit (delay last.session.manager name stop ready? limit)) ∧
    (last.session.manager.outbox.pending ≠ [] → ∀ ready? limit,
      delay last.session.manager name stop ready? limit = 0) ∧
    (∀ loss, stop = .leaseLost loss → last.session.manager.outbox.pending ≠ []) ∧
    ∀ id signal, .startJob id signal ∈ last.session.effects →
      (leave last.session.manager name stop).2.1.signals.isCancelled signal = true := by
  have hBegun : (around manager name interval).session.Attended name :=
    .registered hNew hName interval
  obtain ⟨hWatch, -, -⟩ := attended_run hBegun hRun
  obtain ⟨hStopped, hStill, hKeeps⟩ := attended_step hWatch hStop
  obtain ⟨hLast, hStays, hKept⟩ := attended_run hStopped hLater
  have hHeld := hLast.held_iff (hStays (hStill hStarted))
  have hNoEnd : stop.isCommandEnd = false := by
    rcases stop_cases hUnreported hStop with rfl | ⟨loss, rfl, -⟩
    · rfl
    · rfl
  have hLeave : (leave last.session.manager name stop).1 = true ↔
      last.session.manager.outbox.pending = [] := by
    rw [leave, awaitsCommand, hNoEnd, Bool.not_false, Bool.and_true, beq_iff_eq]
    exact hHeld
  refine ⟨fun hNone ready? limit => ?_, fun hSome ready? limit => ?_, ?_, ?_⟩
  · rw [delay, if_pos (hLeave.mpr hNone)]
    exact awaited_await name ready? limit
  · exact if_neg fun hWaits => hSome (hLeave.mp hWaits)
  · rintro loss rfl
    rcases stop_cases hUnreported hStop with hSignal | ⟨other, -, hSome⟩
    · cases hSignal
    · exact hKept (hKeeps hSome)
  · exact fun id signal hMem => hLast.isCancelled_of_shutdown hMem

/-- A service that a signal stops while its lock is held. -/
def signalledEarly : List Event := (Session.firstLease 0).map .advance ++ [.signal]

/-- The command of `signalledEarly` is awaited. -/
theorem awaited_of_signalledEarly :
    ∃ watch stopped, (around Session.soleManager "job" .short).run? signalledEarly = some watch ∧
      watch.hasStarted = true ∧ watch.ending? = none ∧
      watch.step? (.stop .signal) = some stopped ∧
      ∀ ready? limit, Awaited ready? limit
        (delay stopped.session.manager "job" .signal ready? limit) := by
  have hNew : Manager.new (.ofIdentity "a") 1 = .ok Session.soleManager := rfl
  obtain ⟨watch, stopped, hRun, hStarted, hUnreported, hStop, hNone⟩ : ∃ watch stopped,
      (around Session.soleManager "job" .short).run? signalledEarly = some watch ∧
      watch.hasStarted = true ∧ watch.ending? = none ∧
      watch.step? (.stop .signal) = some stopped ∧ stopped.session.manager.outbox.pending = [] :=
    ⟨_, _, rfl, rfl, rfl, rfl, rfl⟩
  have hLater : stopped.run? [] = some stopped := rfl
  obtain ⟨hAwaited, -⟩ :=
    awaited_iff_unlost hNew (by decide) hRun hStarted hUnreported hStop hLater
  exact ⟨watch, stopped, hRun, hStarted, hUnreported, hStop, hAwaited hNone⟩

/-- **A cancelled command is awaited** whatever the service stops for. -/
def AwaitsCancelled (manager : Manager) (name : String) (interval : IntervalClass) : Prop :=
  ∀ events watch stop stopped later last,
    (around manager name interval).run? events = some watch → watch.hasStarted = true →
    watch.ending? = none → watch.step? (.stop stop) = some stopped →
    stopped.run? later = some last →
    ∀ ready? limit, Awaited ready? limit (delay last.session.manager name stop ready? limit)

/-- A service whose lease is lost while its command runs. -/
def lostEarly : List Event :=
  (Session.lostLease.drop 2 ++ [Session.Event.move 0 0 .turn]).map .advance

/-- **A command that is left behind**: the service of `lostEarly` returns at once, though its
command would report its end five milliseconds later, and the limit is ten seconds. -/
theorem left_behind : ¬ AwaitsCancelled Session.soleManager "job" .short := by
  intro hAll
  obtain ⟨watch, stopped, hRun, hStarted, hUnreported, hStop, hDelay⟩ : ∃ watch stopped,
      (around Session.soleManager "job" .short).run? lostEarly = some watch ∧
      watch.hasStarted = true ∧ watch.ending? = none ∧
      watch.step? (.stop (.leaseLost ⟨"job", "a", 3⟩)) = some stopped ∧
      delay stopped.session.manager "job" (.leaseLost ⟨"job", "a", 3⟩) (some 5) (.ofSeconds 10)
        = 0 :=
    ⟨_, _, rfl, rfl, rfl, rfl, rfl⟩
  have hAwaited := hAll _ _ _ _ [] _ hRun hStarted hUnreported hStop rfl (some 5) (.ofSeconds 10)
  rw [hDelay] at hAwaited
  exact absurd hAwaited (by decide)

end Watch
end Service
end Leasehold
