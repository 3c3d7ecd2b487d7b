import Leasehold.Proofs.Manager.Lifecycle

/-!
# Bystanders

Two parties look on while a manager keeps its locks: the receiver of lost leases, which may take
them, leave them or go away, and the jobs, which may end well, fail, break off or run for ever,
whatever their signals say.  The manager tells them of its locks and asks nothing of them, so
nothing that they do reaches the locks: every run is, as far as the locks go, the run of the
manager without them.

* `Manager.unheard`, `Session.sight`: what a manager and a session are without what is told to
  bystanders.
* `Session.sight_step?`: an event leaves the same sight whether bystanders are told or not.
* `Scene`: a session with the jobs that it has started.
* `Scene.acts`: the events of a run without those of bystanders.
* `Scene.Alike`, `Scene.alike_of_acts_eq`: two runs whose bystanders alone differ.
-/

namespace Leasehold

deriving instance DecidableEq for Cycle.Need

namespace Manager

/-- A heartbeat that ends changes nothing but the phase of its cycle. -/
theorem concludeRenewal_fst (manager : Manager) (id : Nat) (cycle : Cycle) (beat : Heartbeat)
    (signal : SignalId) (result : Except LockError Bool) :
    (manager.concludeRenewal id cycle beat signal result).1
      = manager.setPhase id cycle
        (if renewed result then .beating beat.recover signal
        else if manager.options.maxFailures ≤ beat.fail.failures then
          .losing beat.fail.failures signal
        else .beating beat.fail signal) := by
  unfold concludeRenewal
  split
  · rfl
  · split <;> rfl

/-- The manager without the losses that it has published. -/
def unheard (manager : Manager) : Manager := { manager with outbox := default }

variable (manager : Manager) (id : Nat)

theorem unheard_turn (cycle : Cycle) (moment : Moment) :
    (manager.unheard.turn id cycle moment).1.unheard
      = (manager.turn id cycle moment).1.unheard := by
  obtain ⟨options, registry, shutDown, signals, outbox, cycles⟩ := manager
  cases hPhase : cycle.phase with
  | retrying =>
      simp only [turn, hPhase]
      cases shutDown <;> rfl
  | attempting attempt =>
      simp only [turn, hPhase]
      cases attempt.result? with
      | none => rfl
      | some result =>
          rcases result with error | outcome
          · rfl
          · cases outcome <;> rfl
  | marked version signal =>
      simp only [turn, hPhase]
      cases shutDown <;> rfl
  | renewing beat renewal signal =>
      simp only [turn, hPhase]
      cases renewal.result? with
      | none => rfl
      | some result =>
          simp only [concludeRenewal_fst]
          rfl
  | _ =>
      simp only [turn, hPhase]
      rfl

theorem unheard_respond (cycle : Cycle) (response : Response) :
    (manager.unheard.respond id cycle response).1.unheard
      = (manager.respond id cycle response).1.unheard := by
  unfold respond
  cases cycle.phase <;> rfl

theorem unheard_expire (cycle : Cycle) (moment : Moment) :
    (manager.unheard.expire id cycle moment).unheard
      = (manager.expire id cycle moment).unheard := by
  unfold expire
  cases cycle.phase <;> rfl

theorem unheard_interrupt (cycle : Cycle) :
    (manager.unheard.interrupt id cycle).unheard = (manager.interrupt id cycle).unheard := by
  unfold interrupt
  cases cycle.phase <;> rfl

/-- **No move of a cycle looks at what was published.** -/
theorem unheard_step (moment : Moment) (stimulus : Stimulus) :
    (manager.unheard.step id moment stimulus).1.unheard
      = (manager.step id moment stimulus).1.unheard := by
  cases hCycle : manager.cycles[id]? with
  | none =>
      have hUnheard : manager.unheard.cycles[id]? = none := hCycle
      simp only [step, hCycle, hUnheard]
      rfl
  | some cycle =>
      have hUnheard : manager.unheard.cycles[id]? = some cycle := hCycle
      simp only [step, hCycle, hUnheard]
      cases stimulus with
      | turn => exact manager.unheard_turn id cycle moment
      | response response => exact manager.unheard_respond id cycle response
      | deadline => exact manager.unheard_expire id cycle moment
      | shutdown => exact manager.unheard_interrupt id cycle

end Manager

namespace Session

/-- The session without what is told to bystanders, and without what was logged and measured. -/
def sight (session : Session) : Session :=
  { session with manager := session.manager.unheard, effects := [] }

/-- Whether the receiver of lost leases does something. -/
def Event.isHeard : Event → Bool
  | .receive | .dropReceiver => true
  | _ => false

variable {session next : Session} {event : Event}

/-- **An event leaves the same sight** whether bystanders are told or not. -/
theorem sight_step? (session : Session) (event : Event) :
    (session.sight.step? event).map sight = (session.step? event).map sight := by
  cases event with
  | enter name interval =>
      have hScreen : session.sight.manager.screen name = session.manager.screen name := rfl
      simp only [step?, hScreen]
      cases session.manager.screen name <;> rfl
  | enroll k =>
      have hCalls : session.sight.calls = session.calls := rfl
      simp only [step?, hCalls]
      cases session.calls[k]? with
      | none => rfl
      | some call =>
          have hTaken : session.sight.manager.registry = session.manager.registry := rfl
          simp only [Option.map_some, enrolled, Manager.enroll, hTaken]
          split <;> rfl
  | raiseFlag =>
      have hFlag : session.sight.manager.shutDown = session.manager.shutDown := rfl
      simp only [step?, hFlag]
      split <;> rfl
  | cancelOne signal =>
      have hFlag : session.sight.manager.shutDown = session.manager.shutDown := rfl
      have hSignals : session.sight.manager.registeredSignals
          = session.manager.registeredSignals := rfl
      simp only [step?, hFlag, hSignals]
      split <;> rfl
  | cancelRegistered =>
      have hFlag : session.sight.manager.shutDown = session.manager.shutDown := rfl
      simp only [step?, hFlag]
      split <;> rfl
  | move id draw stimulus =>
      have hCycles : session.sight.manager.cycles = session.manager.cycles := rfl
      have hFlag : session.sight.manager.shutDown = session.manager.shutDown := rfl
      have hNow : session.sight.now = session.now := rfl
      simp only [step?, hCycles, hFlag, hNow]
      cases session.manager.cycles[id]? with
      | none => rfl
      | some cycle =>
          simp only
          split
          · have hUnheard := session.manager.unheard_step id ⟨session.now, draw⟩ stimulus
            simp only [Option.map_some, stepped, sight] at hUnheard ⊢
            rw [hUnheard]
          · rfl
  | pass nanos => rfl
  | receive => rfl
  | dropReceiver => rfl

/-- Two sessions of one sight can go on in the same ways, and stay of one sight. -/
theorem exists_step?_of_sight_eq {other : Session} (hSight : other.sight = session.sight)
    (hStep : session.step? event = some next) :
    ∃ later, other.step? event = some later ∧ later.sight = next.sight := by
  have hMap := sight_step? other event
  rw [hSight, sight_step? session event, hStep, Option.map_some] at hMap
  exact Option.map_eq_some_iff.mp hMap.symm

/-- The receiver of lost leases changes nothing in sight. -/
theorem sight_of_isHeard (hHeard : event.isHeard = true)
    (hStep : session.step? event = some next) : next.sight = session.sight := by
  cases event with
  | receive =>
      obtain rfl := Option.some.inj hStep
      rfl
  | dropReceiver =>
      obtain rfl := Option.some.inj hStep
      rfl
  | _ => cases hHeard

/-- What all cycles need to move on, in the order of their registrations: the calls of the store
that are under way, and the deadlines of heartbeats, retries and cool-downs. -/
def needs (session : Session) : List Cycle.Need :=
  session.manager.cycles.map fun cycle => cycle.phase.need

/-- The answers that the user gets in a run, in their order. -/
def answers (start : Session) (events : List Event) :
    List (String × Except LockError Bool) :=
  (trace step? start events).filterMap fun (before, event, _) => before.answer? event

/-- The user gets the same answer whether bystanders are told or not. -/
theorem answer?_sight (session : Session) (event : Event) :
    session.sight.answer? event = session.answer? event := by
  cases event with
  | enroll k =>
      have hCalls : session.sight.calls = session.calls := rfl
      have hTaken : session.sight.manager.registry = session.manager.registry := rfl
      simp only [answer?, hCalls, Manager.enroll, hTaken]
      cases session.calls[k]? with
      | none => rfl
      | some call =>
          simp only [Option.map_some]
          split <;> rfl
  | _ => rfl

end Session

/-! ## Sessions with their jobs -/

/-- A job that a cycle has started for a name, and whether it still runs. -/
structure Scene.Job where
  name : String
  signal : SignalId
  runs : Bool
  deriving Repr, DecidableEq

/-- How a job ends: well, with an error, or broken off without a word. -/
inductive Scene.Ending where
  | finished
  | failed (text : String)
  | broken
  deriving Repr, DecidableEq

/-- A session with the jobs that it has started, in their order. -/
structure Scene where
  session : Session
  jobs : List Scene.Job
  deriving Repr

/-- What happens next: something in the session, or a job ends. -/
inductive Scene.Event where
  | session (event : Session.Event)
  | ends (job : Nat) (ending : Scene.Ending)
  deriving Repr

namespace Scene

/-- A session before anything has happened. -/
def around (manager : Manager) : Scene := ⟨.around manager, []⟩

/-- What is logged of the end of a job. -/
def Ending.remark (name : String) : Ending → List Effect
  | .finished => [.log (Manager.jobFinished name)]
  | .failed text => [.log (Manager.jobFailed name text)]
  | .broken => []

/-- The jobs that an event of the session starts. -/
def begun (before after : Session) : List Job :=
  (after.effects.drop before.effects.length).filterMap fun effect =>
    match effect with
    | .startJob id signal =>
      (before.manager.cycles[id]?).map fun cycle => ⟨cycle.name, signal, true⟩
    | _ => none

/-- One event; `none` if it cannot happen. -/
def step? (scene : Scene) : Event → Option Scene
  | .session event =>
    (scene.session.step? event).map fun next => ⟨next, scene.jobs ++ begun scene.session next⟩
  | .ends k ending =>
    match scene.jobs[k]? with
    | some job =>
      if job.runs then
        some
          { session := { scene.session with
              effects := scene.session.effects ++ ending.remark job.name }
            jobs := scene.jobs.set k { job with runs := false } }
      else none
    | none => none

/-- A run of events. -/
def run? (scene : Scene) (events : List Event) : Option Scene := runs? step? scene events

/-- What happens in the session because of its user, its store, its clock and its cycles;
`none` for what the receiver and the jobs do. -/
def Event.act? : Event → Option Session.Event
  | .session event => if event.isHeard then none else some event
  | .ends _ _ => none

/-- The events of a run without those of bystanders. -/
def acts (events : List Event) : List Session.Event := events.filterMap Event.act?

/-- The changes of a view of the session in a run, with their times. -/
def changes {α : Type} [DecidableEq α] (view : Session → α) (start : Scene)
    (events : List Event) : List (Nat × α) :=
  Leasehold.changes step? (fun scene => scene.session.now) (fun scene => view scene.session) start
    events

/-- The answers that the user gets in a run, in their order. -/
def answers (start : Scene) (events : List Event) : List (String × Except LockError Bool) :=
  (trace step? start events).filterMap fun (before, event, _) =>
    event.act?.bind before.session.answer?

variable {start before after : Scene} {event : Event} {events : List Event}

/-- An event of the session, seen from there. -/
theorem step?_of_act {act : Session.Event} (hAct : event.act? = some act)
    (hStep : before.step? event = some after) : before.session.step? act = some after.session := by
  cases event with
  | session inner =>
      simp only [Event.act?] at hAct
      split at hAct
      · cases hAct
      · obtain rfl := Option.some.inj hAct
        obtain ⟨next, hNext, rfl⟩ := Option.map_eq_some_iff.mp hStep
        exact hNext
  | ends k ending => cases hAct

/-- **Bystanders change nothing in sight.** -/
theorem sight_of_act?_eq_none (hAct : event.act? = none)
    (hStep : before.step? event = some after) : after.session.sight = before.session.sight := by
  cases event with
  | session inner =>
      obtain ⟨next, hNext, rfl⟩ := Option.map_eq_some_iff.mp hStep
      refine Session.sight_of_isHeard ?_ hNext
      by_contra hHeard
      simp [Event.act?, hHeard] at hAct
  | ends k ending =>
      simp only [step?] at hStep
      split at hStep
      · split at hStep
        · obtain rfl := Option.some.inj hStep
          rfl
        · cases hStep
      · cases hStep

/-- **The run without bystanders.**  From any session of the same sight the other events of a run
can happen alone.  They lead to the same sight, with the same answers on the way, and whatever is
in sight changes at the same times to the same values. -/
theorem exists_run_of_acts {alone : Session} {events : List Event} {start last : Scene}
    (hSight : alone.sight = start.session.sight) (hRun : start.run? events = some last) :
    ∃ later, alone.run? (acts events) = some later ∧ later.sight = last.session.sight ∧
      answers start events = Session.answers alone (acts events) ∧
      ∀ {α : Type} [DecidableEq α] (view : Session → α),
        (∀ session, view session.sight = view session) →
        changes view start events
          = Leasehold.changes Session.step? Session.now view alone (acts events) := by
  induction events generalizing start alone with
  | nil =>
      obtain rfl : start = last := Option.some.inj hRun
      exact ⟨alone, rfl, hSight, rfl, fun _ _ => rfl⟩
  | cons event rest ih =>
      obtain ⟨next, hStep, hRest⟩ := Option.bind_eq_some_iff.mp hRun
      cases hAct : event.act? with
      | none =>
          have hNext := sight_of_act?_eq_none hAct hStep
          obtain ⟨later, hLater, hLast, hAnswers, hChanges⟩ := ih (hSight.trans hNext.symm) hRest
          have hActs : acts (event :: rest) = acts rest := List.filterMap_cons_none hAct
          rw [hActs]
          refine ⟨later, hLater, hLast, ?_, fun view hView => ?_⟩
          · simp only [← hAnswers, answers, trace, hStep, List.filterMap_cons, hAct,
              Option.bind_none]
          · have hSame : view next.session = view start.session := by
              rw [← hView, hNext, hView]
            have hNone : change? (fun scene : Scene => scene.session.now)
                (fun scene => view scene.session) start next = none := change?_of_eq hSame
            rw [← hChanges view hView, changes, changes_cons _ _ _ hStep, hNone]
            rfl
      | some act =>
          obtain ⟨moved, hMoved, hNext⟩ :=
            Session.exists_step?_of_sight_eq hSight (step?_of_act hAct hStep)
          obtain ⟨later, hLater, hLast, hAnswers, hChanges⟩ := ih hNext hRest
          have hActs : acts (event :: rest) = act :: acts rest := List.filterMap_cons_some hAct
          have hAnswer : start.session.answer? act = alone.answer? act := by
            rw [← Session.answer?_sight, ← hSight, Session.answer?_sight]
          rw [hActs]
          refine ⟨later, ?_, hLast, ?_, fun view hView => ?_⟩
          · exact Option.bind_eq_some_iff.mpr ⟨moved, hMoved, hLater⟩
          · simp only [answers, Session.answers, trace, hStep, hMoved, List.filterMap_cons, hAct,
              Option.bind_some, hAnswer] at hAnswers ⊢
            rw [hAnswers]
          · have hBefore : view start.session = view alone := by
              rw [← hView, ← hSight, hView]
            have hAfter : view next.session = view moved := by
              rw [← hView, ← hNext, hView]
            have hNow : moved.sight.now = next.session.sight.now := congrArg Session.now hNext
            rw [changes, changes_cons _ _ _ hStep, changes_cons _ _ _ hMoved, ← hChanges view hView]
            have hChange : change? (fun scene : Scene => scene.session.now)
                (fun scene => view scene.session) start next
                = change? Session.now view alone moved := by
              rw [change?, change?, hBefore, hAfter,
                show next.session.now = moved.now from hNow.symm]
            rw [hChange]
            rfl

/-- **Two scenes that are alike** but for their bystanders, after two runs from one start. -/
structure Alike (start : Scene) (first second : List Event) (one other : Scene) : Prop where
  /-- The time, the registry, the signals, the shutdown, the registrations under way and all
  cycles are the same, and so is the state of every name. -/
  sight : one.session.sight = other.session.sight
  state : ∀ (name : String), one.session.manager.state name = other.session.manager.state name
  /-- At the same times the registry has changed to the same entries, -/
  registry : changes (fun session => session.manager.registry) start first
    = changes (fun session => session.manager.registry) start second
  /-- the same calls of the store were begun and answered, and the same deadlines set and met, -/
  needs : changes Session.needs start first = changes Session.needs start second
  /-- the same signals were made and cancelled, -/
  signals : changes (fun session => session.manager.signals) start first
    = changes (fun session => session.manager.signals) start second
  /-- and the user had the same answers. -/
  answers : answers start first = answers start second
  /-- Whatever can happen next without bystanders in the one can happen in the other. -/
  free : ∀ (event : Event), event.act?.isSome = true →
    (one.step? event).isSome = (other.step? event).isSome
  /-- All that bystanders did on the way changed nothing in sight. -/
  still : ∀ (early : List Event) (event : Event) (late : List Event) (before after : Scene),
    Occurs step? start first early event late before after →
    event.act? = none → after.session.sight = before.session.sight

/-- **Bystanders have no influence.**  Two runs of a manager that differ in what the receiver of
lost leases and the jobs do, and in nothing else, are alike. -/
theorem alike_of_acts_eq (manager : Manager) {first second : List Event} {one other : Scene}
    (hFirst : (around manager).run? first = some one)
    (hSecond : (around manager).run? second = some other) (hActs : acts first = acts second) :
    Alike (around manager) first second one other := by
  have hStart : (Session.around manager).sight = (around manager).session.sight := rfl
  obtain ⟨later, hLater, hOne, hOneAnswers, hOneChanges⟩ := exists_run_of_acts hStart hFirst
  obtain ⟨again, hAgain, hOther, hOtherAnswers, hOtherChanges⟩ :=
    exists_run_of_acts hStart hSecond
  obtain rfl : later = again := by
    rw [hActs] at hLater
    exact Option.some.inj (hLater.symm.trans hAgain)
  have hSight : one.session.sight = other.session.sight := hOne.symm.trans hOther
  have hChanges : ∀ {α : Type} [DecidableEq α] (view : Session → α),
      (∀ session, view session.sight = view session) →
      changes view (around manager) first = changes view (around manager) second := by
    intro α _ view hView
    rw [hOneChanges view hView, hOtherChanges view hView, hActs]
  constructor
  case sight => exact hSight
  case state =>
    intro name
    have hState : one.session.sight.manager.state name = other.session.sight.manager.state name :=
      congrArg (fun session => session.manager.state name) hSight
    exact hState
  case registry => exact hChanges _ fun _ => rfl
  case needs => exact hChanges _ fun _ => rfl
  case signals => exact hChanges _ fun _ => rfl
  case answers => rw [hOneAnswers, hOtherAnswers, hActs]
  case free =>
    intro event hAct
    cases event with
    | ends k ending => cases hAct
    | session event =>
        have hStep := congrArg Option.isSome (Session.sight_step? one.session event)
        rw [hSight, Session.sight_step? other.session event] at hStep
        simpa only [step?, Option.isSome_map] using hStep.symm
  case still => exact fun _ _ _ _ _ hOccurs hNone => sight_of_act?_eq_none hNone hOccurs.step

/-- Three heartbeats are missed, and a lock is lost. -/
def threeMisses : List Session.Event :=
  (List.replicate 3 Session.missedBeat).flatten ++ [.move 0 0 .turn, .move 0 0 .turn]

/-- The job is done at once, and the receiver takes the loss of its lock. -/
def promptBystanders : List Event :=
  (.enter "job" .short :: .enroll 0 :: Session.firstLease 0).map Event.session
    ++ .ends 0 .finished :: threeMisses.map Event.session ++ [.session .receive]

/-- The receiver goes away before anything happens, and the job runs on after the loss. -/
def absentBystanders : List Event :=
  .session .dropReceiver ::
    (.enter "job" .short :: .enroll 0 :: Session.firstLease 0 ++ threeMisses).map Event.session

theorem alike_of_promptBystanders :
    ∃ one other, (around Session.soleManager).run? promptBystanders = some one ∧
      (around Session.soleManager).run? absentBystanders = some other ∧
      acts promptBystanders = acts absentBystanders ∧
      Alike (around Session.soleManager) promptBystanders absentBystanders one other ∧
      one.jobs = [⟨"job", 0, false⟩] ∧ other.jobs = [⟨"job", 0, true⟩] ∧
      one.session.manager.state "job" = .lost ∧ other.session.manager.state "job" = .lost := by
  have hFirst : ((around Session.soleManager).run? promptBystanders).isSome = true := by decide
  have hSecond : ((around Session.soleManager).run? absentBystanders).isSome = true := by decide
  obtain ⟨one, hOne⟩ := Option.isSome_iff_exists.mp hFirst
  obtain ⟨other, hOther⟩ := Option.isSome_iff_exists.mp hSecond
  have hActs : acts promptBystanders = acts absentBystanders := rfl
  have hAlike := alike_of_acts_eq Session.soleManager hOne hOther hActs
  have hOneEnd : ((around Session.soleManager).run? promptBystanders).map
      (fun scene => (scene.jobs, scene.session.manager.state "job"))
      = some ([⟨"job", 0, false⟩], .lost) := by rfl
  have hOtherEnd : ((around Session.soleManager).run? absentBystanders).map Scene.jobs
      = some [⟨"job", 0, true⟩] := by rfl
  rw [hOne, Option.map_some, Option.some.injEq, Prod.mk.injEq] at hOneEnd
  rw [hOther, Option.map_some, Option.some.injEq] at hOtherEnd
  exact ⟨one, other, hOne, hOther, hActs, hAlike, hOneEnd.1, hOtherEnd, hOneEnd.2,
    (hAlike.state "job").symm.trans hOneEnd.2⟩

end Scene
end Leasehold
