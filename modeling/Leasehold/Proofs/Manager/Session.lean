import Leasehold.Proofs.Data.Runs
import Leasehold.Proofs.Manager.Coherence

/-!
# Sessions of a lock manager

A session is the life of one manager: its user registers names and shuts it down, and its
cycles move, in any order.  A call by the user has two halves between which anything may
happen: a registration looks at the shutdown flag and at the name before it takes the
registry, and a shutdown raises the flag before it walks the registry.  The walk holds the
lock of the registry, but not the cycles that only look at the flag or start a job, so that it
comes to the signals one at a time.  The store and the clock answer as they like, and time
passes as it likes; only deadlines do not come early.

* `Manager.screen`, `Manager.enroll`: the two halves of a registration, which together are
  `Manager.run`.
* `Manager.registeredSignals`: what the walk of a shutdown comes to.
* `Stimulus.suits`: whether a cycle waits for a stimulus.
* `Session.step?`, `Session.run?`: one event and a list of events.
* `Session.Change`: all that one event can do to the manager.
* `Session.Frame`: all that one event does beside it.
* `Session.Sound`: the invariant of runs.
-/

namespace Leasehold

namespace Manager

/-- The first half of a registration: whether the call gets as far as the registry. -/
def screen (manager : Manager) (name : String) : Except LockError Unit :=
  if manager.shutDown then .error .shutDown
  else if !Lock.isName name then .error (.invalidName name)
  else .ok ()

/-- The second half of a registration: the registry takes a name that is free. -/
def enroll (manager : Manager) (name : String) (interval : IntervalClass) :
    Bool × Manager × List Effect :=
  if manager.registry.contains name then
    (false, manager,
      [entry .info "Lock already registered in this process, ignoring" [("lock", name)]])
  else
    (true, manager.accept name interval,
      [entry .info "Lock registered"
        [("class", interval.name), ("lock", name), ("owner", manager.options.identity)]])

/-- A name that is registered is not registered again. -/
theorem exists_enroll_of_contains {manager : Manager} {name : String}
    (h : manager.registry.contains name = true) (interval : IntervalClass) :
    ∃ entry, manager.enroll name interval = (false, manager, [.log entry]) :=
  ⟨_, if_pos h⟩

/-- A name that is free is registered. -/
theorem exists_enroll_of_free {manager : Manager} {name : String}
    (h : manager.registry.contains name = false) (interval : IntervalClass) :
    ∃ entry, manager.enroll name interval = (true, manager.accept name interval, [.log entry]) :=
  ⟨_, if_neg (Bool.eq_false_iff.mp h)⟩

/-- A registration is its two halves. -/
theorem run_eq (manager : Manager) (name : String) (interval : IntervalClass) :
    manager.run name interval
      = match manager.screen name with
        | .error error => (.error error, manager, [])
        | .ok () => (.ok (manager.enroll name interval).1, (manager.enroll name interval).2) := by
  unfold run screen enroll
  split
  · rfl
  · split
    · rfl
    · split <;> rfl

/-- The signals that the walk of a shutdown comes to. -/
def registeredSignals (manager : Manager) : List SignalId :=
  manager.registry.values.filterMap Registration.signal

/-- A shutdown is its two halves. -/
theorem shutdown_eq (manager : Manager) (hFlag : manager.shutDown = false) :
    manager.shutdown.1 = manager.raiseFlag.cancelRegistered := by
  simp [shutdown, hFlag]

/-- A call that passes the first half names a lock, and the flag is not raised. -/
theorem screen_eq_ok_iff (manager : Manager) (name : String) :
    manager.screen name = .ok () ↔ manager.shutDown = false ∧ Lock.isName name = true := by
  unfold screen
  cases manager.shutDown <;> cases Lock.isName name <;> simp

/-! ## Who starts jobs -/

section

variable {manager : Manager} {id job : Nat} {cycle : Cycle} {moment : Moment} {signal : SignalId}

theorem startJob_not_mem_missed (name : String) (result : Except LockError Outcome) :
    .startJob job signal ∉ missed name result := by
  rcases result with error | outcome
  · simp [missed, entry]
  · cases outcome <;> simp [missed, entry]

theorem startJob_not_mem_heartbeatRemarks (name : String) (failures : Nat)
    (result : Except LockError Bool) :
    .startJob job signal ∉ manager.heartbeatRemarks name failures result := by
  unfold heartbeatRemarks
  split
  · split <;> simp [heartbeatEntry]
  · simp [heartbeatEntry]
  · simp [heartbeatEntry]

theorem starting_of_startJob_mem_turn
    (h : .startJob job signal ∈ (manager.turn id cycle moment).2) :
    job = id ∧ ∃ version, cycle.phase = .starting version signal := by
  cases hPhase : cycle.phase with
  | starting version other =>
      have hSame : job = id ∧ signal = other := by
        simpa [turn, hPhase, startJob, entry] using h
      exact ⟨hSame.1, version, by rw [hSame.2]⟩
  | retrying =>
      simp only [turn, hPhase] at h
      split at h <;> cases h
  | attempting attempt =>
      simp only [turn, hPhase, concludeAttempt, retryLater] at h
      split at h
      · split at h
        · simp at h
        · simp [startJob_not_mem_missed, entry] at h
      · cases h
  | renewing beat renewal other =>
      simp only [turn, hPhase, concludeRenewal] at h
      split at h
      · split at h
        · simp [startJob_not_mem_heartbeatRemarks] at h
        · split at h <;> simp [startJob_not_mem_heartbeatRemarks] at h
      · cases h
  | demoting failures => simp [turn, hPhase, demote, entry] at h
  | stopping other => simp [turn, hPhase, entry] at h
  | departing => simp [turn, hPhase, entry] at h
  | _ => simp [turn, hPhase, lookAtFlag, markHeld] at h

/-- A job is started by the turn of a cycle that is about to start it, and by nothing else. -/
theorem starting_of_startJob_mem_step {stimulus : Stimulus}
    (hCycle : manager.cycles[id]? = some cycle)
    (h : .startJob job signal ∈ (manager.step id moment stimulus).2) :
    job = id ∧ stimulus = .turn ∧ ∃ version, cycle.phase = .starting version signal := by
  simp only [step, hCycle] at h
  cases stimulus with
  | turn =>
      obtain ⟨hJob, hPhase⟩ := starting_of_startJob_mem_turn h
      exact ⟨hJob, rfl, hPhase⟩
  | response response =>
      simp only [respond] at h
      split at h
      · split at h <;> simp at h
      · simp at h
      · simp at h
  | deadline => simp at h
  | shutdown => simp at h

end

end Manager

/-- Whether a stimulus at a time is what a cycle with a need waits for, given the shutdown
flag. -/
def Stimulus.suits (now : Nat) (flag : Bool) : Stimulus → Cycle.Need → Bool
  | .turn, .nothing => true
  | .response (.time _), .time => true
  | .response (.reply _), .answer _ => true
  | .deadline, .pause due => decide (due ≤ now)
  | .shutdown, .pause _ => flag
  | _, _ => false

/-- **A cycle that gets what it waits for moves.** -/
theorem Manager.exists_moves_of_suits {manager : Manager} {id now draw : Nat} {cycle : Cycle}
    {stimulus : Stimulus} (hCycle : manager.cycles[id]? = some cycle)
    (h : stimulus.suits now manager.shutDown cycle.phase.need = true) :
    ∃ moved, manager.Moves (manager.step id ⟨now, draw⟩ stimulus).1 id cycle ⟨now, draw⟩
      stimulus moved := by
  cases stimulus with
  | turn =>
      simp only [step, hCycle]
      cases hNeed : cycle.phase.need with
      | nothing => exact exists_moves_of_turn hNeed
      | _ => rw [hNeed] at h; cases h
  | response response =>
      cases hPhase : cycle.phase with
      | attempting attempt => exact ⟨_, moves_of_attempting hCycle hPhase _ response⟩
      | renewing beat renewal signal => exact ⟨_, moves_of_renewing hCycle hPhase _ response⟩
      | _ => rw [hPhase] at h; cases response <;> cases h
  | deadline =>
      simp only [step, hCycle]
      cases hNeed : cycle.phase.need with
      | pause due => exact exists_moves_of_deadline hNeed
      | _ => rw [hNeed] at h; cases h
  | shutdown =>
      simp only [step, hCycle]
      cases hNeed : cycle.phase.need with
      | pause due => exact exists_moves_of_shutdown hNeed
      | _ => rw [hNeed] at h; cases h

/-- A manager with the time, the registrations that have passed their first half, and what the
manager has done to the world outside. -/
structure Session where
  manager : Manager
  now : Nat
  calls : List (String × IntervalClass)
  effects : List Effect
  deriving Repr

/-- What happens next: the first half of a registration, or the second half of one of those
under way; the first half of a shutdown, or the second half, whose walk comes to one signal or
to its end; a cycle moves; time passes; or the receiver of lost leases takes one or goes
away. -/
inductive Session.Event where
  | enter (name : String) (interval : IntervalClass)
  | enroll (k : Nat)
  | raiseFlag
  | cancelOne (signal : SignalId)
  | cancelRegistered
  | move (id draw : Nat) (stimulus : Stimulus)
  | pass (nanos : Nat)
  | receive
  | dropReceiver
  deriving Repr

namespace Session

/-- The session of a manager before anything has happened. -/
def around (manager : Manager) : Session := ⟨manager, 0, [], []⟩

/-- The session after the second half of a registration. -/
def enrolled (session : Session) (k : Nat) (name : String) (interval : IntervalClass) : Session :=
  let outcome := session.manager.enroll name interval
  { session with
    manager := outcome.2.1
    calls := session.calls.eraseIdx k
    effects := session.effects ++ outcome.2.2 }

/-- The session after a move of a cycle. -/
def stepped (session : Session) (id draw : Nat) (stimulus : Stimulus) : Session :=
  let outcome := session.manager.step id ⟨session.now, draw⟩ stimulus
  { session with
    manager := outcome.1
    effects := session.effects ++ outcome.2 }

/-- One event; `none` if it cannot happen. -/
def step? (session : Session) : Event → Option Session
  | .enter name interval =>
    match session.manager.screen name with
    | .error _ => some session
    | .ok () => some { session with calls := session.calls ++ [(name, interval)] }
  | .enroll k => session.calls[k]?.map fun (name, interval) => session.enrolled k name interval
  | .raiseFlag =>
    if session.manager.shutDown then none
    else
      some { session with
        manager := session.manager.raiseFlag
        effects := session.effects ++ session.manager.shutdown.2 }
  | .cancelOne signal =>
    if session.manager.shutDown ∧ signal ∈ session.manager.registeredSignals then
      some { session with manager := session.manager.cancel signal }
    else none
  | .cancelRegistered =>
    if session.manager.shutDown then
      some { session with manager := session.manager.cancelRegistered }
    else none
  | .move id draw stimulus =>
    match session.manager.cycles[id]? with
    | some cycle =>
      if stimulus.suits session.now session.manager.shutDown cycle.phase.need then
        some (session.stepped id draw stimulus)
      else none
    | none => none
  | .pass nanos => some { session with now := session.now + nanos }
  | .receive =>
    some { session with
      manager := { session.manager with outbox := session.manager.outbox.receive.2 } }
  | .dropReceiver =>
    some { session with
      manager := { session.manager with outbox := session.manager.outbox.drop.1 }
      effects := session.effects ++ session.manager.outbox.drop.2.map .log }

/-- A run of events. -/
def run? (session : Session) (events : List Event) : Option Session := runs? step? session events

/-- The answer that an event gives to a registration, with the name that was to be
registered. -/
def answer? (session : Session) : Event → Option (String × Except LockError Bool)
  | .enter name _ =>
    match session.manager.screen name with
    | .error error => some (name, .error error)
    | .ok () => none
  | .enroll k =>
    session.calls[k]?.map fun (name, interval) =>
      (name, .ok (session.manager.enroll name interval).1)
  | _ => none

/-- A manager of the standard options with nothing registered, and with one place for losses. -/
def soleManager : Manager :=
  { options := .ofIdentity "a"
    registry := ∅
    shutDown := false
    signals := .none
    outbox := .ofCapacity 1
    cycles := [] }

/-- The moves of a cycle from its beginning to the start of its job, when its lock has no row
yet. -/
def firstLease (id : Nat) : List Event :=
  [.move id 0 .turn, .move id 0 (.response (.reply (.ok (.number 0)))),
    .move id 0 (.response (.time ⟨0, 0⟩)), .move id 0 (.response (.reply (.ok (.number 1)))),
    .move id 0 .turn, .move id 0 .turn, .move id 0 .turn, .move id 0 .turn]

/-- The task `id` of the manager drives a name. -/
def Drives (session : Session) (id : Nat) (name : String) : Prop :=
  ∃ cycle, session.manager.cycles[id]? = some cycle ∧ cycle.name = name ∧
    cycle.phase.isLive = true

end Session

/-! ## What an event does -/

/-- Managers that differ at most in their outboxes. -/
structure Manager.Same (manager next : Manager) : Prop where
  options : next.options = manager.options
  registry : next.registry = manager.registry
  shutDown : next.shutDown = manager.shutDown
  signals : next.signals = manager.signals
  cycles : next.cycles = manager.cycles

theorem Manager.Same.refl (manager : Manager) : manager.Same manager := ⟨rfl, rfl, rfl, rfl, rfl⟩

namespace Session

/-- **All that an event can do to the manager** of a session: nothing, a registration, one
half of a shutdown, or a move of a cycle. -/
inductive Change (session next : Session) (event : Event) : Prop where
  | kept (hSame : session.manager.Same next.manager)
  | accepted {k : Nat} {name : String} {interval : IntervalClass} (hEvent : event = .enroll k)
      (hCall : session.calls[k]? = some (name, interval))
      (hFree : session.manager.registry.get? name = none)
      (hManager : next.manager = session.manager.accept name interval)
  | raised (hEvent : event = .raiseFlag) (hFlag : session.manager.shutDown = false)
      (hManager : next.manager = session.manager.raiseFlag)
  | walked {signals : List SignalId} (hFlag : session.manager.shutDown = true)
      (hManager : next.manager = session.manager.cancelAll signals)
  | moved {id draw : Nat} {stimulus : Stimulus} {cycle moved : Cycle}
      (hEvent : event = .move id draw stimulus)
      (hCycle : session.manager.cycles[id]? = some cycle)
      (hSuits : stimulus.suits session.now session.manager.shutDown cycle.phase.need = true)
      (hMoves : session.manager.Moves next.manager id cycle ⟨session.now, draw⟩ stimulus moved)

variable {session next : Session} {event : Event}

/-- What it takes for a cycle to move. -/
theorem exists_of_move {id draw : Nat} {stimulus : Stimulus}
    (h : session.step? (.move id draw stimulus) = some next) :
    ∃ cycle, session.manager.cycles[id]? = some cycle ∧
      stimulus.suits session.now session.manager.shutDown cycle.phase.need = true ∧
      next = session.stepped id draw stimulus := by
  simp only [step?] at h
  split at h
  · next cycle hCycle =>
    split at h
    · next hSuits => exact ⟨cycle, hCycle, hSuits, (Option.some.inj h).symm⟩
    · cases h
  · cases h

/-- A move of a cycle is one of the moves. -/
theorem exists_moves_of_move {id draw : Nat} {stimulus : Stimulus}
    (h : session.step? (.move id draw stimulus) = some next) :
    ∃ cycle moved, session.manager.cycles[id]? = some cycle ∧
      stimulus.suits session.now session.manager.shutDown cycle.phase.need = true ∧
      session.manager.Moves next.manager id cycle ⟨session.now, draw⟩ stimulus moved ∧
      next = session.stepped id draw stimulus := by
  obtain ⟨cycle, hCycle, hSuits, rfl⟩ := exists_of_move h
  obtain ⟨moved, hMoves⟩ := Manager.exists_moves_of_suits hCycle hSuits
  exact ⟨cycle, moved, hCycle, hSuits, hMoves, rfl⟩

theorem step?_move {id : Nat} {cycle : Cycle} {stimulus : Stimulus}
    (hCycle : session.manager.cycles[id]? = some cycle)
    (hSuits : stimulus.suits session.now session.manager.shutDown cycle.phase.need = true)
    (draw : Nat) :
    session.step? (.move id draw stimulus) = some (session.stepped id draw stimulus) := by
  simp only [step?, hCycle, if_pos hSuits]

/-- **The inversion lemma of sessions.** -/
theorem change_of_step? (h : session.step? event = some next) : Change session next event := by
  cases event with
  | enter name interval =>
      simp only [step?] at h
      split at h <;>
        · obtain rfl := Option.some.inj h
          exact .kept (.refl _)
  | enroll k =>
      obtain ⟨⟨name, interval⟩, hCall, rfl⟩ := Option.map_eq_some_iff.mp h
      cases hTaken : session.manager.registry.contains name with
      | true =>
          obtain ⟨entry, hEnroll⟩ := Manager.exists_enroll_of_contains hTaken interval
          refine .kept ?_
          simp only [enrolled, hEnroll]
          exact .refl _
      | false =>
          obtain ⟨entry, hEnroll⟩ := Manager.exists_enroll_of_free hTaken interval
          refine .accepted rfl hCall ((OrderedMap.contains_eq_false_iff _ _).mp hTaken) ?_
          simp only [enrolled, hEnroll]
  | raiseFlag =>
      simp only [step?] at h
      split at h
      · cases h
      · next hFlag =>
        obtain rfl := Option.some.inj h
        exact .raised rfl (Bool.eq_false_iff.mpr hFlag) rfl
  | cancelOne signal =>
      simp only [step?] at h
      split at h
      · next hRegistered =>
        obtain rfl := Option.some.inj h
        exact .walked hRegistered.1 (rfl : _ = session.manager.cancelAll [signal])
      · cases h
  | cancelRegistered =>
      simp only [step?] at h
      split at h
      · next hFlag =>
        obtain rfl := Option.some.inj h
        exact .walked hFlag (rfl : _ = session.manager.cancelAll session.manager.registeredSignals)
      · cases h
  | move id draw stimulus =>
      obtain ⟨cycle, moved, hCycle, hSuits, hMoves, rfl⟩ := exists_moves_of_move h
      exact .moved rfl hCycle hSuits hMoves
  | pass nanos =>
      obtain rfl := Option.some.inj h
      exact .kept (.refl _)
  | receive =>
      obtain rfl := Option.some.inj h
      exact .kept ⟨rfl, rfl, rfl, rfl, rfl⟩
  | dropReceiver =>
      obtain rfl := Option.some.inj h
      exact .kept ⟨rfl, rfl, rfl, rfl, rfl⟩

theorem Change.options (h : Change session next event) :
    next.manager.options = session.manager.options := by
  cases h with
  | kept hSame => exact hSame.options
  | accepted hEvent hCall hFree hManager => rw [hManager]; rfl
  | raised hEvent hFlag hManager => rw [hManager]; rfl
  | walked hFlag hManager => rw [hManager]; rfl
  | moved hEvent hCycle hSuits hMoves => exact hMoves.options

/-- The flag stays raised. -/
theorem Change.shutDown (h : Change session next event) (hFlag : session.manager.shutDown = true) :
    next.manager.shutDown = true := by
  cases h with
  | kept hSame => exact hSame.shutDown.trans hFlag
  | accepted hEvent hCall hFree hManager => rw [hManager]; exact hFlag
  | raised hEvent hDown hManager => rw [hManager]; rfl
  | walked hUp hManager => rw [hManager]; exact hFlag
  | moved hEvent hCycle hSuits hMoves => exact hMoves.shutDown.trans hFlag

/-- Where a cycle that is there after an event comes from. -/
inductive Change.Origin (session next : Session) (event : Event) (id : Nat) (cycle : Cycle) :
    Prop where
  | same (hCycle : session.manager.cycles[id]? = some cycle)
  | begun {k : Nat} {name : String} {interval : IntervalClass} (hEvent : event = .enroll k)
      (hCall : session.calls[k]? = some (name, interval))
      (hFree : session.manager.registry.get? name = none)
      (hManager : next.manager = session.manager.accept name interval)
      (hId : id = session.manager.cycles.length)
      (hCycle : cycle = Cycle.start name interval session.manager.options.retry
        (session.manager.policy interval).lease)
  | moved {draw : Nat} {stimulus : Stimulus} {earlier : Cycle}
      (hEvent : event = .move id draw stimulus)
      (hCycle : session.manager.cycles[id]? = some earlier)
      (hSuits : stimulus.suits session.now session.manager.shutDown earlier.phase.need = true)
      (hMoves : session.manager.Moves next.manager id earlier ⟨session.now, draw⟩ stimulus cycle)

theorem Change.origin (h : Change session next event) {id : Nat} {cycle : Cycle}
    (hCycle : next.manager.cycles[id]? = some cycle) :
    Change.Origin session next event id cycle := by
  cases h with
  | kept hSame => exact .same (hSame.cycles ▸ hCycle)
  | raised hEvent hFlag hManager =>
      rw [hManager] at hCycle
      exact .same hCycle
  | walked hFlag hManager =>
      rw [hManager] at hCycle
      exact .same hCycle
  | accepted hEvent hCall hFree hManager =>
      have hNext := hCycle
      rw [hManager] at hNext
      rcases Manager.getElem?_concat_cases hNext with hOld | ⟨hId, hNew⟩
      · exact .same hOld
      · exact .begun hEvent hCall hFree hManager hId hNew
  | @moved target draw stimulus earlier later hEvent hEarlier hSuits hMoves =>
      obtain ⟨hBound, -⟩ := List.getElem?_eq_some_iff.mp hEarlier
      rw [hMoves.cycles] at hCycle
      by_cases hId : target = id
      · subst hId
        rw [List.getElem?_set_self hBound] at hCycle
        obtain rfl := Option.some.inj hCycle
        exact .moved hEvent hEarlier hSuits hMoves
      · rw [List.getElem?_set_ne hId] at hCycle
        exact .same hCycle

/-- A cycle that is there stays as it is, unless the event moves it. -/
theorem Change.cycle_cases (h : Change session next event) {id : Nat} {cycle : Cycle}
    (hCycle : session.manager.cycles[id]? = some cycle) :
    next.manager.cycles[id]? = some cycle ∨
      ∃ draw stimulus later, event = .move id draw stimulus ∧
        stimulus.suits session.now session.manager.shutDown cycle.phase.need = true ∧
        session.manager.Moves next.manager id cycle ⟨session.now, draw⟩ stimulus later ∧
        next.manager.cycles[id]? = some later := by
  obtain ⟨hBound, -⟩ := List.getElem?_eq_some_iff.mp hCycle
  cases h with
  | kept hSame => exact .inl (hSame.cycles ▸ hCycle)
  | raised hEvent hFlag hManager => exact .inl (hManager ▸ hCycle)
  | walked hFlag hManager => exact .inl (hManager ▸ hCycle)
  | accepted hEvent hCall hFree hManager =>
      refine .inl ?_
      rw [hManager]
      exact (List.getElem?_append_left hBound).trans hCycle
  | @moved target draw stimulus earlier later hEvent hEarlier hSuits hMoves =>
      by_cases hId : target = id
      · subst hId
        obtain rfl : cycle = earlier := Option.some.inj (hCycle.symm.trans hEarlier)
        refine .inr ⟨draw, stimulus, later, hEvent, hSuits, hMoves, ?_⟩
        rw [hMoves.cycles]
        exact List.getElem?_set_self hBound
      · refine .inl ?_
        rw [hMoves.cycles]
        exact (List.getElem?_set_ne hId).trans hCycle

/-- **All that an event does beside the manager**: time does not go back, a registration under
way has passed its first half, and a job is started only by the turn of a cycle that is about
to start it. -/
structure Frame (session next : Session) (event : Event) : Prop where
  now : session.now ≤ next.now
  calls : ∀ call ∈ next.calls,
    call ∈ session.calls ∨ session.manager.screen call.1 = .ok ()
  effects : ∃ more, next.effects = session.effects ++ more ∧
    ∀ id signal, .startJob id signal ∈ more → ∃ draw cycle version,
      event = .move id draw .turn ∧ session.manager.cycles[id]? = some cycle ∧
      cycle.phase = .starting version signal

theorem Frame.of_effects_eq (hNow : session.now ≤ next.now)
    (hCalls : ∀ call ∈ next.calls,
      call ∈ session.calls ∨ session.manager.screen call.1 = .ok ())
    (hEffects : next.effects = session.effects) : Frame session next event :=
  ⟨hNow, hCalls, [], by rw [hEffects, List.append_nil], by simp⟩

theorem frame_of_step? (h : session.step? event = some next) : Frame session next event := by
  cases event with
  | enter name interval =>
      simp only [step?] at h
      split at h
      · obtain rfl := Option.some.inj h
        exact .of_effects_eq (Nat.le_refl _) (fun _ => .inl) rfl
      · next hScreen =>
        obtain rfl := Option.some.inj h
        refine .of_effects_eq (Nat.le_refl _) (fun call hCall => ?_) rfl
        refine (List.mem_append.mp hCall).imp_right fun hNew => ?_
        rw [List.mem_singleton.mp hNew]
        exact hScreen
  | enroll k =>
      obtain ⟨⟨name, interval⟩, hCall, rfl⟩ := Option.map_eq_some_iff.mp h
      refine ⟨Nat.le_refl _, fun call hMem => .inl (List.mem_of_mem_eraseIdx hMem), _, rfl, ?_⟩
      intro id signal hStart
      cases hTaken : session.manager.registry.contains name with
      | true =>
          obtain ⟨entry, hEnroll⟩ := Manager.exists_enroll_of_contains hTaken interval
          simp [hEnroll] at hStart
      | false =>
          obtain ⟨entry, hEnroll⟩ := Manager.exists_enroll_of_free hTaken interval
          simp [hEnroll] at hStart
  | raiseFlag =>
      simp only [step?] at h
      split at h
      · cases h
      · next hFlag =>
        obtain rfl := Option.some.inj h
        refine ⟨Nat.le_refl _, fun _ => .inl, _, rfl, ?_⟩
        simp [Manager.shutdown, hFlag, Manager.entry]
  | cancelOne signal =>
      simp only [step?] at h
      split at h
      · obtain rfl := Option.some.inj h
        exact .of_effects_eq (Nat.le_refl _) (fun _ => .inl) rfl
      · cases h
  | cancelRegistered =>
      simp only [step?] at h
      split at h
      · obtain rfl := Option.some.inj h
        exact .of_effects_eq (Nat.le_refl _) (fun _ => .inl) rfl
      · cases h
  | move id draw stimulus =>
      obtain ⟨cycle, hCycle, hSuits, rfl⟩ := exists_of_move h
      refine ⟨Nat.le_refl _, fun _ => .inl, _, rfl, ?_⟩
      intro job signal hStart
      obtain ⟨rfl, rfl, version, hPhase⟩ := Manager.starting_of_startJob_mem_step hCycle hStart
      exact ⟨draw, cycle, version, rfl, hCycle, hPhase⟩
  | pass nanos =>
      obtain rfl := Option.some.inj h
      exact .of_effects_eq (Nat.le_add_right _ _) (fun _ => .inl) rfl
  | receive =>
      obtain rfl := Option.some.inj h
      exact .of_effects_eq (Nat.le_refl _) (fun _ => .inl) rfl
  | dropReceiver =>
      obtain rfl := Option.some.inj h
      refine ⟨Nat.le_refl _, fun _ => .inl, _, rfl, ?_⟩
      simp

end Session

/-! ## The invariant of runs -/

namespace Cycle

/-- **What a phase says of its manager**: an operation under way is one of the manager on the
name of the cycle, a lease is lost by the failures that the options allow, and a cycle gives up
only after the flag was raised. -/
def Phase.Fits (manager : Manager) (name : String) : Phase → Prop
  | .attempting attempt => attempt.claimant = manager.claimant name
  | .renewing _ renewal _ => renewal.claimant = manager.claimant name
  | .losing failures _ => manager.options.maxFailures ≤ failures
  | .stopping _ | .leaving => manager.shutDown = true
  | _ => True

theorem Phase.Fits.leads {manager next : Manager} {name : String} {phase : Phase}
    (h : phase.Fits manager name) (hOptions : next.options = manager.options)
    (hFlag : manager.shutDown = true → next.shutDown = true) : phase.Fits next name := by
  have hClaimant : next.claimant name = manager.claimant name := by
    rw [Manager.claimant, hOptions, Manager.claimant]
  cases phase with
  | attempting attempt => exact Eq.trans h hClaimant.symm
  | renewing beat renewal signal => exact Eq.trans h hClaimant.symm
  | losing failures signal =>
      show next.options.maxFailures ≤ failures
      rw [hOptions]
      exact h
  | stopping signal => exact hFlag h
  | leaving => exact hFlag h
  | _ => trivial

/-- Every move of a cycle leads to a phase that fits. -/
theorem Move.fits {manager : Manager} {cycle : Cycle} {moment : Moment} {stimulus : Stimulus}
    {phase phase' : Phase} (h : Move manager cycle moment stimulus phase phase')
    (hFits : phase.Fits manager cycle.name)
    (hFlag : stimulus = .shutdown → manager.shutDown = true) :
    phase'.Fits manager cycle.name := by
  cases h with
  | quit hRaised => exact hRaised
  | attempt hDown => exact rfl
  | lose hResult hFailed hFailures => exact hFailures
  | stop signal => exact hFits
  | answer attempt response => exact (attempt.resume_claimant response).trans hFits
  | renew beat renewal signal response => exact (renewal.resume_claimant response).trans hFits
  | beat beat signal => exact rfl
  | wakeWaiting due => exact hFlag rfl
  | wakeBeating beat signal => exact hFlag rfl
  | _ => trivial

end Cycle

/-- A shutdown moves only cycles that have seen its flag. -/
theorem Stimulus.flag_of_suits {now : Nat} {flag : Bool} {stimulus : Stimulus}
    {need : Cycle.Need} (h : stimulus.suits now flag need = true)
    (hShutdown : stimulus = .shutdown) : flag = true := by
  subst hShutdown
  cases need with
  | pause due => exact h
  | _ => cases h

namespace Session

/-- **The invariant of runs.**  The registry and the cycles agree, every cycle is in a phase
that fits the manager, and only names of locks come as far as the registry. -/
structure Sound (session : Session) : Prop where
  coherent : session.manager.Coherent
  fits : ∀ (id : Nat) (cycle : Cycle), session.manager.cycles[id]? = some cycle →
    cycle.phase.Fits session.manager cycle.name
  named : ∀ call ∈ session.calls, Lock.isName call.1 = true
  valid : ∀ (id : Nat) (cycle : Cycle), session.manager.cycles[id]? = some cycle →
    Lock.isName cycle.name = true

namespace Sound

variable {session next : Session} {event : Event}

theorem around {options : Manager.Options} {capacity : Nat} {manager : Manager}
    (h : Manager.new options capacity = .ok manager) : (Session.around manager).Sound := by
  have hCoherent := Manager.Coherent.of_new h
  unfold Manager.new at h
  split at h
  · cases h
  · obtain rfl := Except.ok.inj h
    refine ⟨hCoherent, ?_, ?_, ?_⟩
    · intro id cycle hCycle
      simp [Session.around] at hCycle
    · intro call hCall
      simp [Session.around] at hCall
    · intro id cycle hCycle
      simp [Session.around] at hCycle

/-- Every event keeps the invariant. -/
theorem step (h : session.Sound) (hStep : session.step? event = some next) : next.Sound := by
  have hChange := change_of_step? hStep
  refine ⟨?_, ?_, ?_, ?_⟩
  · cases hChange with
    | kept hSame =>
        exact h.coherent.of_leads hSame.cycles hSame.registry (hSame.signals ▸ .refl _)
    | accepted hEvent hCall hFree hManager => exact hManager ▸ h.coherent.accept hFree _
    | raised hEvent hFlag hManager => exact hManager ▸ h.coherent.raiseFlag
    | walked hFlag hManager => exact hManager ▸ h.coherent.cancelAll _
    | moved hEvent hCycle hSuits hMoves => exact h.coherent.moves hCycle hMoves
  · intro id cycle hCycle
    cases hChange.origin hCycle with
    | same hSame => exact (h.fits id cycle hSame).leads hChange.options hChange.shutDown
    | begun hEvent hCall hFree hManager hId hNew =>
        rw [hNew]
        trivial
    | moved hEvent hEarlier hSuits hMoves =>
        have hFits := hMoves.move.fits (h.fits id _ hEarlier) (Stimulus.flag_of_suits hSuits)
        rw [hMoves.name]
        exact hFits.leads hChange.options hChange.shutDown
  · intro call hCall
    rcases (frame_of_step? hStep).calls call hCall with hOld | hScreen
    · exact h.named call hOld
    · exact ((session.manager.screen_eq_ok_iff call.1).mp hScreen).2
  · intro id cycle hCycle
    cases hChange.origin hCycle with
    | same hSame => exact h.valid id cycle hSame
    | begun hEvent hCall hFree hManager hId hNew =>
        rw [hNew]
        exact h.named _ (List.mem_of_getElem? hCall)
    | moved hEvent hEarlier hSuits hMoves =>
        rw [hMoves.name]
        exact h.valid id _ hEarlier

/-- Every run keeps the invariant. -/
theorem run (h : session.Sound) {events : List Event} (hRun : session.run? events = some next) :
    next.Sound :=
  runs?_induction (motive := fun _ session => session.Sound) h
    (fun _ _ _ _ _ hBefore hStep => hBefore.step hStep) hRun

end Sound
end Session
end Leasehold
