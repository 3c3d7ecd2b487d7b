import Leasehold.Proofs.Manager.Session

/-!
# The lifecycle of a name

A name passes through its states in one order, driven by one task at a time.  No task ever
edits the entry of another one: the entry of a name is there exactly as long as the task that
its registration has begun.

* `LockState.Follows`: the states that a name can have after one event.
* `Session.Drives`, `Session.Done`: a task drives a name, and has come to its end.
* `Session.Sound.follows`: every event keeps to the order of the states.
* `Session.Cooling`: where a task is from the loss of its lease to its end.
* `Session.Lifecycle`: what the life of names is like in a run.
* `Session.lifecycle_of_run`: it is like this in every run.
-/

namespace Leasehold

/-- The states that a name can have after one event, given the shutdown flag: its own, the next
one, or after a shutdown none. -/
inductive LockState.Follows (flag : Bool) : LockState → LockState → Prop where
  | stay (state : LockState) : Follows flag state state
  | register : Follows flag .unregistered .acquiring
  | hold : Follows flag .acquiring .held
  | lose : Follows flag .held .lost
  | release : Follows flag .lost .unregistered
  | stop (hFlag : flag = true) (state : LockState) : Follows flag state .unregistered

namespace Cycle.Move

variable {manager : Manager} {cycle : Cycle} {moment : Moment} {stimulus : Stimulus}
  {phase phase' : Cycle.Phase}

/-- The state of a name before a move of its cycle and after it. -/
theorem follows (h : Move manager cycle moment stimulus phase phase') {registration : Registration}
    (hShows : phase.Shows manager.signals registration) (hFits : phase.Fits manager cycle.name) :
    LockState.Follows manager.shutDown registration.state
      (if phase'.isLive then (registration.after phase').state else .unregistered) := by
  cases h with
  | mark version =>
      have hAcquiring : registration.state = .acquiring := hShows.1
      rw [hAcquiring]
      exact .hold
  | demote failures =>
      have hHeld : registration.state = .held := hShows.1
      rw [hHeld]
      exact .lose
  | depart =>
      have hLost : registration.state = .lost := hShows.1
      rw [hLost]
      exact .release
  | leave => exact .stop hFits _
  | _ => exact .stay _

/-- Only turns end a cycle. -/
theorem turn_of_over (h : Move manager cycle moment stimulus phase phase')
    (hOver : phase'.isLive = false) : stimulus = .turn := by
  cases h with
  | depart => rfl
  | leave => rfl
  | _ => cases hOver

/-- A name is lost by the move that lets it wait for a lease. -/
theorem cooling_of_lost (h : Move manager cycle moment stimulus phase phase')
    {registration : Registration} (hHeld : registration.state = .held)
    (hLost : (if phase'.isLive then (registration.after phase').state else .unregistered)
      = LockState.lost) :
    stimulus = .turn ∧
      phase' = .cooling (moment.now + (manager.policy cycle.interval).lease.nanos) := by
  cases h with
  | demote failures => exact ⟨rfl, rfl⟩
  | mark version => cases hLost
  | depart => cases hLost
  | leave => cases hLost
  | _ => exact absurd (hHeld.symm.trans hLost) (by decide)

end Cycle.Move

/-- A lost name has a cycle that waits for the end of a lease, or has waited for it. -/
theorem Cycle.Phase.Shows.of_lost {signals : Signals} {registration : Registration}
    {phase : Cycle.Phase} (h : phase.Shows signals registration)
    (hLost : registration.state = .lost) : (∃ due, phase = .cooling due) ∨ phase = .departing := by
  cases phase with
  | cooling due => exact .inl ⟨due, rfl⟩
  | departing => exact .inr rfl
  | leaving =>
      rcases h with ⟨hOther, -⟩ | ⟨hOther, -⟩ <;>
        · rw [hLost] at hOther
          cases hOther
  | «over» => exact h.elim
  | _ =>
      have hOther := h.1
      rw [hLost] at hOther
      cases hOther

namespace Manager

/-- The state of a name is the one of its entry. -/
theorem state_of_get? {manager : Manager} {name : String} {registration : Registration}
    (h : manager.registry.get? name = some registration) :
    manager.state name = registration.state := by
  rw [state, h]
  rfl

theorem state_of_get?_eq_none {manager : Manager} {name : String}
    (h : manager.registry.get? name = none) : manager.state name = .unregistered := by
  rw [state, h]
  rfl

/-- A name that has a state is registered. -/
theorem contains_of_state {manager : Manager} {name : String}
    (h : manager.state name ≠ .unregistered) : manager.registry.contains name = true :=
  Bool.of_not_eq_false fun hFree =>
    h (state_of_get?_eq_none ((OrderedMap.contains_eq_false_iff _ _).mp hFree))

theorem state_of_registry_eq {manager next : Manager} {name : String}
    (h : next.registry.get? name = manager.registry.get? name) :
    next.state name = manager.state name := by
  rw [state, h, state]

/-- The state of a name after a move of its cycle. -/
theorem Moves.state_eq {manager next : Manager} {id : Nat} {cycle moved : Cycle} {moment : Moment}
    {stimulus : Stimulus} (h : manager.Moves next id cycle moment stimulus moved)
    {registration : Registration} (hGet : manager.registry.get? cycle.name = some registration) :
    next.state cycle.name
      = if moved.phase.isLive then (registration.after moved.phase).state else .unregistered := by
  cases hLive : moved.phase.isLive with
  | true =>
      refine state_of_get? ?_
      rw [h.registry, manager.get?_registryAfter_self _ hLive, hGet]
      rfl
  | false =>
      refine state_of_get?_eq_none ?_
      rw [h.registry]
      exact manager.get?_registryAfter_of_over _ hLive

end Manager

namespace Session

variable {session next : Session} {event : Event}

/-- The state of a name is the one that the phase of its cycle shows. -/
theorem Sound.shows (h : session.Sound) {id : Nat} {cycle : Cycle} {phase : Cycle.Phase}
    (hCycle : session.manager.cycles[id]? = some cycle) (hPhase : cycle.phase = phase)
    (hLive : phase.isLive = true) :
    ∃ registration, session.manager.state cycle.name = registration.state ∧
      phase.Shows session.manager.signals registration := by
  subst hPhase
  obtain ⟨registration, hGet, hShows⟩ := h.coherent.shown id cycle hCycle hLive
  exact ⟨registration, Manager.state_of_get? hGet, hShows⟩

/-- **Every event keeps to the order of the states.** -/
theorem Sound.follows (h : session.Sound) (hStep : session.step? event = some next)
    (name : String) :
    LockState.Follows session.manager.shutDown (session.manager.state name)
      (next.manager.state name) := by
  have hKept : next.manager.registry.get? name = session.manager.registry.get? name →
      LockState.Follows session.manager.shutDown (session.manager.state name)
        (next.manager.state name) := by
    intro hSame
    rw [Manager.state_of_registry_eq hSame]
    exact .stay _
  cases change_of_step? hStep with
  | kept hSame => exact hKept (by rw [hSame.registry])
  | raised hEvent hFlag hManager => exact hKept (by rw [hManager]; rfl)
  | walked hFlag hManager => exact hKept (by rw [hManager]; rfl)
  | @accepted k other interval hEvent hCall hFree hManager =>
      by_cases hName : name = other
      · subst hName
        have hNew : next.manager.registry.get? name = some ⟨interval, .acquiring, none⟩ := by
          rw [hManager]
          exact OrderedMap.get?_insert_self _ _ _
        rw [Manager.state_of_get?_eq_none hFree, Manager.state_of_get? hNew]
        exact .register
      · refine hKept ?_
        rw [hManager]
        exact OrderedMap.get?_insert_of_ne _ _ hName
  | @moved id draw stimulus cycle later hEvent hCycle hSuits hMoves =>
      by_cases hName : name = cycle.name
      · subst hName
        obtain ⟨registration, hGet, hShows⟩ := h.coherent.shown id cycle hCycle hMoves.move.isLive
        rw [Manager.state_of_get? hGet, hMoves.state_eq hGet]
        exact hMoves.move.follows hShows (h.fits id cycle hCycle)
      · refine hKept ?_
        rw [hMoves.registry]
        exact session.manager.get?_registryAfter_of_ne _ hName

/-! ## One task for each name -/

/-- The task `id` of the manager has driven a name to its end. -/
def Done (session : Session) (id : Nat) (name : String) : Prop :=
  ∃ cycle, session.manager.cycles[id]? = some cycle ∧ cycle.name = name ∧
    cycle.phase.isLive = false

theorem Sound.drives_unique (h : session.Sound) {id other : Nat} {name : String}
    (hDrives : session.Drives id name) (hOther : session.Drives other name) : id = other := by
  obtain ⟨cycle, hCycle, hName, hLive⟩ := hDrives
  obtain ⟨rival, hRival, hRivalName, hRivalLive⟩ := hOther
  exact h.coherent.unique id other cycle rival hCycle hRival (hName.trans hRivalName.symm) hLive
    hRivalLive

/-- A name is registered exactly if a task drives it. -/
theorem Sound.contains_iff (h : session.Sound) (name : String) :
    session.manager.registry.contains name = true ↔ ∃ id, session.Drives id name := by
  constructor
  · intro hContains
    obtain ⟨registration, hGet⟩ := Option.isSome_iff_exists.mp hContains
    obtain ⟨id, cycle, hCycle, hName, hLive⟩ := h.coherent.registered name registration hGet
    exact ⟨id, cycle, hCycle, hName, hLive⟩
  · rintro ⟨id, cycle, hCycle, rfl, hLive⟩
    obtain ⟨registration, hGet, -⟩ := h.coherent.shown id cycle hCycle hLive
    exact Option.isSome_iff_exists.mpr ⟨registration, hGet⟩

/-- A task drives its name until it comes to its end, for good. -/
theorem drives_or_done_of_step? (hStep : session.step? event = some next) {id : Nat}
    {name : String} (h : session.Drives id name ∨ session.Done id name) :
    next.Drives id name ∨ next.Done id name := by
  have hFound : ∃ cycle, session.manager.cycles[id]? = some cycle ∧ cycle.name = name := by
    rcases h with ⟨cycle, hCycle, hName, -⟩ | ⟨cycle, hCycle, hName, -⟩
    · exact ⟨cycle, hCycle, hName⟩
    · exact ⟨cycle, hCycle, hName⟩
  obtain ⟨cycle, hCycle, rfl⟩ := hFound
  have hLater : ∃ later, next.manager.cycles[id]? = some later ∧ later.name = cycle.name := by
    rcases (change_of_step? hStep).cycle_cases hCycle with
      hSame | ⟨draw, stimulus, later, -, -, hMoves, hLater⟩
    · exact ⟨cycle, hSame, rfl⟩
    · exact ⟨later, hLater, hMoves.name⟩
  obtain ⟨later, hCycle, hName⟩ := hLater
  cases hLive : later.phase.isLive with
  | true => exact .inl ⟨later, hCycle, hName, hLive⟩
  | false => exact .inr ⟨later, hCycle, hName, hLive⟩

theorem drives_or_done_of_run {events : List Event} (hRun : session.run? events = some next)
    {id : Nat} {name : String} (h : session.Drives id name ∨ session.Done id name) :
    next.Drives id name ∨ next.Done id name :=
  runs?_induction (motive := fun _ later => later.Drives id name ∨ later.Done id name) h
    (fun _ _ _ _ _ hBefore hStep => drives_or_done_of_step? hStep hBefore) hRun

/-- **Only its own task takes a name out of the registry**, as the last thing that it does. -/
theorem Sound.exists_of_released (h : session.Sound) (hStep : session.step? event = some next)
    {name : String} (hBefore : session.manager.registry.contains name = true)
    (hAfter : next.manager.registry.contains name = false) :
    ∃ id draw, event = .move id draw .turn ∧ session.Drives id name ∧ next.Done id name := by
  obtain ⟨id, cycle, hCycle, rfl, hLive⟩ := (h.contains_iff name).mp hBefore
  have hFree := (OrderedMap.contains_eq_false_iff _ _).mp hAfter
  have hOver : ∀ later, next.manager.cycles[id]? = some later → later.name = cycle.name →
      later.phase.isLive = false := by
    intro later hLater hName
    refine Bool.eq_false_iff.mpr fun hStill => ?_
    have hContains : next.manager.registry.contains cycle.name = true :=
      ((h.step hStep).contains_iff cycle.name).mpr ⟨id, later, hLater, hName, hStill⟩
    rw [hAfter] at hContains
    cases hContains
  rcases (change_of_step? hStep).cycle_cases hCycle with
    hSame | ⟨draw, stimulus, later, hEvent, -, hMoves, hLater⟩
  · rw [hOver cycle hSame rfl] at hLive
    cases hLive
  · have hEnded := hOver later hLater hMoves.name
    obtain rfl : stimulus = .turn := hMoves.move.turn_of_over hEnded
    exact ⟨id, draw, hEvent, ⟨cycle, hCycle, rfl, hLive⟩, later, hLater, hMoves.name, hEnded⟩

/-! ## After the loss of a lease -/

/-- **A task after the loss of its lease**: it waits for a time, or it has waited for it, or for
a shutdown, and comes to its end. -/
def Cooling (session : Session) (id : Nat) (name : String) (due : Nat) : Prop :=
  ∃ cycle, session.manager.cycles[id]? = some cycle ∧ cycle.name = name ∧
    (cycle.phase = .cooling due ∨
      (session.manager.shutDown = true ∨ due ≤ session.now) ∧
        (cycle.phase = .departing ∨ cycle.phase = .over))

/-- **The loss of a lease.**  Only its own task takes a name from held to lost, and from then on
it waits for a lease. -/
theorem Sound.exists_cooling (h : session.Sound) (hStep : session.step? event = some next)
    {name : String} (hHeld : session.manager.state name = .held)
    (hLost : next.manager.state name = .lost) :
    ∃ id draw cycle, event = .move id draw .turn ∧
      session.manager.cycles[id]? = some cycle ∧ cycle.name = name ∧
      next.Cooling id name (session.now + (session.manager.policy cycle.interval).lease.nanos) := by
  have hRegistered : session.manager.registry.contains name = true :=
    Manager.contains_of_state (by rw [hHeld]; decide)
  obtain ⟨id, cycle, hCycle, rfl, hLive⟩ := (h.contains_iff name).mp hRegistered
  obtain ⟨registration, hGet, hShows⟩ := h.coherent.shown id cycle hCycle hLive
  rw [Manager.state_of_get? hGet] at hHeld
  rcases (change_of_step? hStep).cycle_cases hCycle with
    hSame | ⟨draw, stimulus, later, hEvent, -, hMoves, hLater⟩
  · -- The phase is still the same, and it is not one of a held name and of a lost one.
    obtain ⟨entry, hState, hShown⟩ := (h.step hStep).shows hSame rfl hLive
    rcases hShown.of_lost (hState.symm.trans hLost) with ⟨due, hPhase⟩ | hPhase <;>
      · rw [hPhase] at hShows
        have hOther := hShows.1
        rw [hHeld] at hOther
        cases hOther
  · rw [hMoves.state_eq hGet] at hLost
    obtain ⟨rfl, hPhase⟩ := hMoves.move.cooling_of_lost hHeld hLost
    exact ⟨id, draw, cycle, hEvent, hCycle, rfl, later, hLater, hMoves.name, .inl hPhase⟩

/-- A deadline comes when its time has come. -/
theorem le_of_suits {due : Nat} (h : Stimulus.deadline.suits session.now session.manager.shutDown
    (.pause due) = true) : due ≤ session.now :=
  of_decide_eq_true h

/-- A task that has lost its lease goes on to its end. -/
theorem Cooling.step {id : Nat} {name : String} {due : Nat} (h : session.Cooling id name due)
    (hStep : session.step? event = some next) : next.Cooling id name due := by
  obtain ⟨cycle, hCycle, hName, hPhase⟩ := h
  have hChange := change_of_step? hStep
  have hLater : session.manager.shutDown = true ∨ due ≤ session.now →
      next.manager.shutDown = true ∨ due ≤ next.now :=
    Or.imp hChange.shutDown fun hDue => Nat.le_trans hDue (frame_of_step? hStep).now
  rcases hChange.cycle_cases hCycle with
    hSame | ⟨draw, stimulus, later, -, hSuits, hMoves, hNext⟩
  · exact ⟨cycle, hSame, hName, hPhase.imp_right (And.imp_left hLater)⟩
  · refine ⟨later, hNext, hMoves.name.trans hName, .inr ?_⟩
    have hMove := hMoves.move
    rcases hPhase with hCooling | ⟨hReady, hDeparting | hOver⟩
    · rw [hCooling] at hMove hSuits
      generalize later.phase = phase at hMove ⊢
      cases hMove with
      | cool due => exact ⟨hLater (.inr (le_of_suits hSuits)), .inl rfl⟩
      | wakeCooling due => exact ⟨hLater (.inl (Stimulus.flag_of_suits hSuits rfl)), .inl rfl⟩
    · rw [hDeparting] at hMove
      generalize later.phase = phase at hMove ⊢
      cases hMove with
      | depart => exact ⟨hLater hReady, .inr rfl⟩
    · have hLive := hMove.isLive
      rw [hOver] at hLive
      cases hLive

theorem Cooling.run {id : Nat} {name : String} {due : Nat} (h : session.Cooling id name due)
    {events : List Event} (hRun : session.run? events = some next) :
    next.Cooling id name due :=
  runs?_induction (motive := fun _ later => later.Cooling id name due) h
    (fun _ _ _ _ _ hBefore hStep => hBefore.step hStep) hRun

/-- **A lost name stays reserved** until the time has come, unless the manager is shut down. -/
theorem Cooling.state_eq {id : Nat} {name : String} {due : Nat} (h : session.Cooling id name due)
    (hSound : session.Sound) (hFlag : session.manager.shutDown = false) (hNow : session.now < due) :
    session.manager.state name = .lost := by
  obtain ⟨cycle, hCycle, rfl, hPhase⟩ := h
  have hCooling : cycle.phase = .cooling due := by
    refine hPhase.resolve_right ?_
    rintro ⟨hRaised | hDue, -⟩
    · rw [hFlag] at hRaised
      cases hRaised
    · omega
  obtain ⟨registration, hState, hShows⟩ := hSound.shows hCycle hCooling rfl
  exact hState.trans hShows.1

/-- A task that departs comes to its end by one more move. -/
theorem exists_done_of_departing {id : Nat} {cycle : Cycle}
    (hCycle : session.manager.cycles[id]? = some cycle) (hPhase : cycle.phase = .departing) :
    ∃ later, session.run? [.move id 0 .turn] = some later ∧ later.now = session.now ∧
      later.Done id cycle.name := by
  obtain ⟨hBound, -⟩ := List.getElem?_eq_some_iff.mp hCycle
  have hStep : session.step? (.move id 0 .turn) = some (session.stepped id 0 .turn) :=
    step?_move hCycle (by rw [hPhase]; rfl) 0
  refine ⟨session.stepped id 0 .turn, ?_, rfl, { cycle with phase := .over }, ?_, rfl, rfl⟩
  · simp only [run?, runs?, hStep, Option.bind_some]
  · simp only [stepped, Manager.step, hCycle, Manager.turn, hPhase, Manager.setPhase,
      Manager.deregister]
    exact List.getElem?_set_self hBound

/-- **A lost name is released** by its task when the time has come. -/
theorem Cooling.exists_done {id : Nat} {name : String} {due : Nat}
    (h : session.Cooling id name due) (hNow : due ≤ session.now) :
    ∃ events later, (∀ event ∈ events, ∃ draw stimulus, event = .move id draw stimulus) ∧
      session.run? events = some later ∧ later.now = session.now ∧ later.Done id name := by
  obtain ⟨cycle, hCycle, rfl, hCooling | ⟨-, hDeparting | hOver⟩⟩ := h
  · obtain ⟨hBound, -⟩ := List.getElem?_eq_some_iff.mp hCycle
    have hStep : session.step? (.move id 0 .deadline) = some (session.stepped id 0 .deadline) := by
      refine step?_move hCycle ?_ 0
      rw [hCooling]
      exact decide_eq_true hNow
    have hNext : (session.stepped id 0 .deadline).manager.cycles[id]?
        = some { cycle with phase := .departing } := by
      simp only [stepped, Manager.step, hCycle, Manager.expire, hCooling, Manager.setPhase]
      exact List.getElem?_set_self hBound
    obtain ⟨later, hRun, hLater, hDone⟩ := exists_done_of_departing hNext rfl
    refine ⟨[.move id 0 .deadline, .move id 0 .turn], later, ?_, ?_, hLater, hDone⟩
    · simp
    · simp only [run?, runs?, hStep, Option.bind_some]
      exact hRun
  · obtain ⟨later, hRun, hLater, hDone⟩ := exists_done_of_departing hCycle hDeparting
    exact ⟨[.move id 0 .turn], later, by simp, hRun, hLater, hDone⟩
  · exact ⟨[], session, by simp, rfl, rfl, cycle, hCycle, rfl, by rw [hOver]; rfl⟩

/-! ## Answers to registrations -/

/-- A registered name is not registered again. -/
theorem Sound.run_eq_false (h : session.Sound) (hFlag : session.manager.shutDown = false)
    {name : String} (hContains : session.manager.registry.contains name = true)
    (interval : IntervalClass) : (session.manager.run name interval).1 = .ok false := by
  obtain ⟨id, cycle, hCycle, rfl, -⟩ := (h.contains_iff name).mp hContains
  have hScreen : session.manager.screen cycle.name = .ok () :=
    (session.manager.screen_eq_ok_iff _).mpr ⟨hFlag, h.valid id cycle hCycle⟩
  obtain ⟨entry, hEnroll⟩ := Manager.exists_enroll_of_contains hContains interval
  simp only [Manager.run_eq, hScreen, hEnroll]

theorem answer?_of_contains {k : Nat} {name : String} {interval : IntervalClass}
    (hCall : session.calls[k]? = some (name, interval))
    (hContains : session.manager.registry.contains name = true) :
    session.answer? (.enroll k) = some (name, .ok false) := by
  obtain ⟨entry, hEnroll⟩ := Manager.exists_enroll_of_contains hContains interval
  simp only [answer?, hCall, Option.map_some, hEnroll]

/-- **What an answer to a registration says.**  Only a name of a lock that was not registered is
registered, and any other answer changes nothing but the log. -/
theorem Sound.answer_cases (h : session.Sound) (hStep : session.step? event = some next)
    {name : String} {answer : Except LockError Bool}
    (hAnswer : session.answer? event = some (name, answer)) :
    (answer = .ok true ∧ Lock.isName name = true ∧
        session.manager.registry.contains name = false ∧
        ∃ interval, next.manager = session.manager.accept name interval) ∨
      answer ≠ .ok true ∧ next.manager = session.manager ∧
        ∃ entries : List Log.Entry, next.effects = session.effects ++ entries.map .log := by
  cases event with
  | enter other interval =>
      cases hScreen : session.manager.screen other with
      | error error =>
          simp only [answer?, hScreen, Option.some.injEq, Prod.mk.injEq] at hAnswer
          obtain ⟨rfl, rfl⟩ := hAnswer
          simp only [step?, hScreen, Option.some.injEq] at hStep
          subst hStep
          exact .inr ⟨by simp, rfl, [], by simp⟩
      | ok => simp [answer?, hScreen] at hAnswer
  | enroll k =>
      obtain ⟨⟨other, interval⟩, hCall, rfl⟩ := Option.map_eq_some_iff.mp hStep
      simp only [answer?, hCall, Option.map_some, Option.some.injEq, Prod.mk.injEq] at hAnswer
      obtain ⟨rfl, rfl⟩ := hAnswer
      cases hTaken : session.manager.registry.contains other with
      | true =>
          obtain ⟨entry, hEnroll⟩ := Manager.exists_enroll_of_contains hTaken interval
          simp only [enrolled, hEnroll]
          exact .inr ⟨by simp, trivial, [entry], rfl⟩
      | false =>
          obtain ⟨entry, hEnroll⟩ := Manager.exists_enroll_of_free hTaken interval
          refine .inl ⟨by rw [hEnroll], h.named _ (List.mem_of_getElem? hCall), rfl, interval, ?_⟩
          simp only [enrolled, hEnroll]
  | raiseFlag => cases hAnswer
  | cancelOne signal => cases hAnswer
  | cancelRegistered => cases hAnswer
  | move id draw stimulus => cases hAnswer
  | pass nanos => cases hAnswer
  | receive => cases hAnswer
  | dropReceiver => cases hAnswer

/-! ## The life of names -/

/-- **The life of names** in a run that has led from `start` to `session`. -/
structure Lifecycle (start : Session) (events : List Event) (session : Session) : Prop where
  /-- At most one task drives a name, -/
  unique : ∀ (id other : Nat) (name : String),
    session.Drives id name → session.Drives other name → id = other
  /-- and it is registered exactly while one does. -/
  registered : ∀ (name : String),
    session.manager.registry.contains name = true ↔ ∃ id, session.Drives id name
  /-- A registration that is accepted begins a task, which drives the name until its end. -/
  driven : ∀ (early late : List Event) (before after : Session) (k : Nat) (name : String),
    Occurs step? start events early (.enroll k) late before after →
    before.answer? (.enroll k) = some (name, .ok true) →
    after.Drives before.manager.cycles.length name ∧
      (session.Drives before.manager.cycles.length name ∨
        session.Done before.manager.cycles.length name)
  /-- Nothing but the end of this task takes the name out of the registry. -/
  released : ∀ (event : Event) (next : Session) (name : String),
    session.step? event = some next →
    session.manager.registry.contains name = true →
    next.manager.registry.contains name = false →
    ∃ id draw, event = .move id draw .turn ∧ session.Drives id name ∧ next.Done id name
  /-- The states of a name come in their order. -/
  follows : ∀ (event : Event) (next : Session) (name : String),
    session.step? event = some next →
    LockState.Follows session.manager.shutDown (session.manager.state name)
      (next.manager.state name)
  /-- Attempts on a name are made while it is acquired, -/
  attempts : ∀ (id : Nat) (cycle : Cycle) (attempt : Attempt),
    session.manager.cycles[id]? = some cycle →
    cycle.phase = .attempting attempt →
    session.manager.state cycle.name = .acquiring ∧
      attempt.claimant = session.manager.claimant cycle.name
  /-- and heartbeats while it is held. -/
  renewals : ∀ (id : Nat) (cycle : Cycle) (beat : Heartbeat) (renewal : Renewal)
    (signal : SignalId), session.manager.cycles[id]? = some cycle →
    cycle.phase = .renewing beat renewal signal →
    session.manager.state cycle.name = .held ∧
      renewal.claimant = session.manager.claimant cycle.name
  /-- A name that is lost stays reserved for one lease of its class: it is lost and not
  registered again before the lease is over, and when it is over the task ends. -/
  reserved : ∀ (early : List Event) (event : Event) (late : List Event)
    (before after : Session) (name : String),
    Occurs step? start events early event late before after →
    before.manager.state name = .held → after.manager.state name = .lost →
    session.manager.shutDown = false →
    ∃ id draw cycle, event = .move id draw .turn ∧ before.manager.cycles[id]? = some cycle ∧
      cycle.name = name ∧
      let due := before.now + (before.manager.policy cycle.interval).lease.nanos
      (session.now < due → session.manager.state name = .lost ∧
        (∀ interval, (session.manager.run name interval).1 = .ok false) ∧
        ∀ k interval, session.calls[k]? = some (name, interval) →
          session.answer? (.enroll k) = some (name, .ok false)) ∧
      (due ≤ session.now → ∃ more later,
        (∀ event ∈ more, ∃ draw stimulus, event = .move id draw stimulus) ∧
        session.run? more = some later ∧ later.now = session.now ∧ later.Done id name)
  /-- A registration is accepted only for the name of a lock that is not registered, and any
  other answer leaves the manager as it is. -/
  answers : ∀ (event : Event) (next : Session) (name : String)
    (answer : Except LockError Bool), session.step? event = some next →
    session.answer? event = some (name, answer) →
    (answer = .ok true → Lock.isName name = true ∧
      session.manager.registry.contains name = false ∧
      session.manager.state name = .unregistered) ∧
    (answer ≠ .ok true → next.manager = session.manager ∧
      ∃ entries : List Log.Entry, next.effects = session.effects ++ entries.map .log)

/-- **Every run keeps to the lifecycle.** -/
theorem lifecycle_of_run {options : Manager.Options} {capacity : Nat} {manager : Manager}
    (hNew : Manager.new options capacity = .ok manager) {events : List Event} {session : Session}
    (hRun : (around manager).run? events = some session) :
    Lifecycle (around manager) events session := by
  have hStart : (around manager).Sound := .around hNew
  have hSound : session.Sound := hStart.run hRun
  constructor
  case unique => exact fun id other name => hSound.drives_unique
  case registered => exact hSound.contains_iff
  case driven =>
    intro early late before after k name hOccurs hAnswer
    have hDrives : after.Drives before.manager.cycles.length name := by
      rcases (hStart.run hOccurs.run).answer_cases hOccurs.step hAnswer with
        ⟨-, -, -, interval, hManager⟩ | ⟨hNot, -⟩
      · have hBegun : after.manager.cycles[before.manager.cycles.length]?
            = some (.start name interval before.manager.options.retry
                (before.manager.policy interval).lease) := by
          rw [hManager]
          exact List.getElem?_concat_length
        exact ⟨_, hBegun, rfl, rfl⟩
      · exact absurd rfl hNot
    exact ⟨hDrives, drives_or_done_of_run (hOccurs.rest hRun) (.inl hDrives)⟩
  case released => exact fun event next name hStep => hSound.exists_of_released hStep
  case follows => exact fun event next name hStep => hSound.follows hStep name
  case attempts =>
    intro id cycle attempt hCycle hPhase
    obtain ⟨registration, hState, hShows⟩ := hSound.shows hCycle hPhase rfl
    have hFits := hSound.fits id cycle hCycle
    rw [hPhase] at hFits
    exact ⟨hState.trans hShows.1, hFits⟩
  case renewals =>
    intro id cycle beat renewal signal hCycle hPhase
    obtain ⟨registration, hState, hShows⟩ := hSound.shows hCycle hPhase rfl
    have hFits := hSound.fits id cycle hCycle
    rw [hPhase] at hFits
    exact ⟨hState.trans hShows.1, hFits⟩
  case reserved =>
    intro early event late before after name hOccurs hHeld hLost hFlag
    obtain ⟨id, draw, cycle, hEvent, hCycle, hName, hAfter⟩ :=
      (hStart.run hOccurs.run).exists_cooling hOccurs.step hHeld hLost
    have hCooling := hAfter.run (hOccurs.rest hRun)
    refine ⟨id, draw, cycle, hEvent, hCycle, hName, fun hNow => ?_, hCooling.exists_done⟩
    have hState := hCooling.state_eq hSound hFlag hNow
    have hContains : session.manager.registry.contains name = true :=
      Manager.contains_of_state (by rw [hState]; decide)
    exact ⟨hState, hSound.run_eq_false hFlag hContains,
      fun k interval hCall => answer?_of_contains hCall hContains⟩
  case answers =>
    intro event next name answer hStep hAnswer
    rcases hSound.answer_cases hStep hAnswer with ⟨rfl, hName, hFree, -⟩ | ⟨hNot, hKept⟩
    · refine ⟨fun _ => ⟨hName, hFree, ?_⟩, fun hNot => absurd rfl hNot⟩
      exact Manager.state_of_get?_eq_none ((OrderedMap.contains_eq_false_iff _ _).mp hFree)
    · exact ⟨fun hTrue => absurd hTrue hNot, fun _ => hKept⟩

/-- The heartbeat of a minute that finds the row of its lock gone. -/
def missedBeat : List Event :=
  [.pass 60000000000, .move 0 0 .deadline, .move 0 0 (.response (.time ⟨0, 0⟩)),
    .move 0 0 (.response (.reply (.ok (.number 0)))), .move 0 0 .turn]

/-- A manager gets a lock and loses it after three heartbeats; its job is cancelled, and its name
is about to be marked as lost. -/
def lostLease : List Event :=
  .enter "job" .short :: .enroll 0 :: firstLease 0 ++ (List.replicate 3 missedBeat).flatten
    ++ [.move 0 0 .turn]

/-- All of a lease but its last nanosecond goes by, and the name is to be registered again. -/
def earlyReturn : List Event := [.pass 599999999999, .enter "job" .medium]

theorem reserved_of_lostLease :
    Manager.new (.ofIdentity "a") 1 = .ok soleManager ∧
      ∃ session,
        (around soleManager).run? (lostLease ++ .move 0 0 .turn :: earlyReturn) = some session ∧
        session.manager.state "job" = .lost ∧
        (session.manager.run "job" .short).1 = .ok false ∧
        session.answer? (.enroll 0) = some ("job", .ok false) := by
  have hNew : Manager.new (.ofIdentity "a") 1 = .ok soleManager := rfl
  have hRuns : ((around soleManager).run?
      (lostLease ++ .move 0 0 .turn :: earlyReturn)).isSome = true := by decide
  obtain ⟨session, hRun⟩ := Option.isSome_iff_exists.mp hRuns
  have hEnd : ((around soleManager).run? (lostLease ++ .move 0 0 .turn :: earlyReturn)).map
      (fun session => (session.now, session.manager.shutDown, session.calls))
      = some (779999999999, false, [("job", .medium)]) := by rfl
  have hHeld : ((around soleManager).run? lostLease).map
      (fun session => (session.now, session.manager.state "job",
        session.manager.cycles[0]?.map fun cycle =>
          (session.manager.policy cycle.interval).lease.nanos))
      = some (180000000000, .held, some 600000000000) := by rfl
  have hLost : ((around soleManager).run? (lostLease ++ [.move 0 0 .turn])).map
      (fun session => session.manager.state "job") = some .lost := by rfl
  obtain ⟨before, after, hOccurs⟩ := Occurs.exists_of_run rfl hRun
  have hAfter : (around soleManager).run? (lostLease ++ [.move 0 0 .turn]) = some after :=
    hOccurs.run_after
  have hBefore : (around soleManager).run? lostLease = some before := hOccurs.run
  rw [hRun, Option.map_some] at hEnd
  rw [hBefore, Option.map_some] at hHeld
  rw [hAfter, Option.map_some] at hLost
  simp only [Option.some.injEq, Prod.mk.injEq] at hEnd hHeld hLost
  obtain ⟨hNow, hFlag, hCalls⟩ := hEnd
  obtain ⟨hThen, hState, hLease⟩ := hHeld
  obtain ⟨id, draw, cycle, hEvent, hCycle, -, hReserved, -⟩ :=
    (lifecycle_of_run hNew hRun).reserved _ _ _ _ _ "job" hOccurs hState hLost hFlag
  cases hEvent
  rw [hCycle, Option.map_some, Option.some.injEq] at hLease
  obtain ⟨hLate, hAnswer, hAdmit⟩ := hReserved (by rw [hNow, hThen, hLease]; decide)
  exact ⟨hNew, session, hRun, hLate, hAnswer .short, hAdmit 0 .medium (by rw [hCalls]; rfl)⟩

end Session
end Leasehold
