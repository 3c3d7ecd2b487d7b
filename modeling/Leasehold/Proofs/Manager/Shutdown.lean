import Leasehold.Proofs.Manager.Session

/-!
# Shutdowns and jobs

A shutdown and the start of a job can miss each other: the walk of the shutdown cancels the
signals that it finds in the registry, and a cycle may mark its name only after that.  So a
cycle looks at the flag once more after it has marked its name, and whichever comes first, no
job is left with a signal that is not cancelled.

* `Cycle.Phase.job?`: the signal of a job that was started, or whose cycle has looked at the
  flag.
* `Session.run?_shutdown`, `Session.run?_walk`: a shutdown is its two halves, and its walk is the
  steps of this walk.
* `Session.Jobs`: which cycle has started which job under which signal.
* `Session.Drained`: no job has a signal that is not cancelled.
* `Session.shutdown_reaches_jobs`: a shutdown reaches every job, and before a shutdown only the
  loss of a lease does.
-/

namespace Leasehold

namespace Cycle

/-- The signal of a job that was started, or is to be started next. -/
def Phase.job? : Phase → Option SignalId
  | .starting _ signal => some signal
  | .beating _ signal => some signal
  | .renewing _ _ signal => some signal
  | .losing _ signal => some signal
  | .stopping signal => some signal
  | _ => none

theorem Phase.signal?_of_job? {phase : Phase} {signal : SignalId}
    (h : phase.job? = some signal) : phase.signal? = some signal := by
  cases phase with
  | marked version other => cases h
  | _ => exact h

namespace Move

variable {manager : Manager} {cycle : Cycle} {moment : Moment} {stimulus : Stimulus}
  {phase phase' : Phase} {signal : SignalId}

/-- The moves that lead to a job or keep it: the look at the flag, the start, and the moves
between heartbeats. -/
theorem job?_cases (h : Move manager cycle moment stimulus phase phase')
    (hJob : phase'.job? = some signal) :
    (∃ version, phase = .marked version signal ∧ phase' = .starting version signal) ∨
      (stimulus = .turn ∧ ∃ version, phase = .starting version signal) ∨
      phase.job? = some signal ∧ ∀ version, phase ≠ .starting version signal := by
  cases h with
  | look version other =>
      obtain rfl := Option.some.inj hJob
      exact .inl ⟨version, rfl, rfl⟩
  | start version other =>
      obtain rfl := Option.some.inj hJob
      exact .inr (.inl ⟨rfl, version, rfl⟩)
  | recover hResult => exact .inr (.inr ⟨hJob, nofun⟩)
  | falter hResult hFailed hFailures => exact .inr (.inr ⟨hJob, nofun⟩)
  | lose hResult hFailed hFailures => exact .inr (.inr ⟨hJob, nofun⟩)
  | renew beat renewal other response => exact .inr (.inr ⟨hJob, nofun⟩)
  | beat beat other => exact .inr (.inr ⟨hJob, nofun⟩)
  | wakeBeating beat other => exact .inr (.inr ⟨hJob, nofun⟩)
  | _ => cases hJob

/-- A cycle leaves its job only by the move that cancels its signal. -/
theorem job?_or_cancelled (h : Move manager cycle moment stimulus phase phase')
    (hJob : phase.job? = some signal) (hCreated : signal < manager.signals.cancelled.length) :
    phase'.job? = some signal ∨ (manager.signalsAfter phase phase').isCancelled signal = true := by
  cases h with
  | cancel failures other =>
      obtain rfl := Option.some.inj hJob
      exact .inr (Signals.isCancelled_cancel_self hCreated)
  | stop other =>
      obtain rfl := Option.some.inj hJob
      exact .inr (Signals.isCancelled_cancel_self hCreated)
  | look version other => cases hJob
  | _ => exact .inl hJob

/-- The moves that cancel a signal. -/
theorem cancelled_cases (h : Move manager cycle moment stimulus phase phase')
    (hBefore : manager.signals.isCancelled signal = false)
    (hAfter : (manager.signalsAfter phase phase').isCancelled signal = true) :
    manager.shutDown = true ∨ phase = .stopping signal ∨
      stimulus = .turn ∧ ∃ failures, phase = .losing failures signal := by
  cases h with
  | mark version =>
      have hCancelled := Signals.isCancelled_of_create hAfter
      rw [hBefore] at hCancelled
      cases hCancelled
  | look version other =>
      cases hFlag : manager.shutDown with
      | true => exact .inl rfl
      | false =>
          simp only [Manager.signalsAfter, hFlag, Bool.false_eq_true, if_false] at hAfter
          rw [hBefore] at hAfter
          cases hAfter
  | cancel failures other =>
      obtain rfl := Signals.eq_of_isCancelled_cancel hBefore hAfter
      exact .inr (.inr ⟨rfl, failures, rfl⟩)
  | stop other =>
      obtain rfl := Signals.eq_of_isCancelled_cancel hBefore hAfter
      exact .inr (.inl rfl)
  | _ => exact absurd (hBefore.symm.trans hAfter) (by decide)

end Move
end Cycle

namespace Session

variable {session next : Session} {event : Event}

/-! ## The halves of a shutdown -/

/-- A shutdown that nothing comes between is its two halves. -/
theorem run?_shutdown (hFlag : session.manager.shutDown = false) :
    session.run? [.raiseFlag, .cancelRegistered]
      = some { session with
          manager := session.manager.shutdown.1
          effects := session.effects ++ session.manager.shutdown.2 } := by
  rw [Manager.shutdown_eq _ hFlag]
  simp only [run?, runs?, step?, hFlag, Bool.false_eq_true, if_false, Option.bind_some]
  rfl

/-- The walk of a shutdown through signals that are registered. -/
theorem run?_cancelOne (hFlag : session.manager.shutDown = true) {signals : List SignalId}
    (hRegistered : ∀ signal ∈ signals, signal ∈ session.manager.registeredSignals) :
    session.run? (signals.map .cancelOne)
      = some { session with manager := session.manager.cancelAll signals } := by
  induction signals generalizing session with
  | nil => rfl
  | cons signal rest ih =>
      have hStep : session.step? (.cancelOne signal)
          = some { session with manager := session.manager.cancel signal } :=
        if_pos ⟨hFlag, hRegistered signal List.mem_cons_self⟩
      simp only [List.map_cons, run?, runs?, hStep, Option.bind_some]
      exact ih hFlag fun other hOther => hRegistered other (List.mem_cons_of_mem _ hOther)

/-- **The walk of a shutdown** that nothing comes between is its steps. -/
theorem run?_walk (hFlag : session.manager.shutDown = true) :
    session.run? (session.manager.registeredSignals.map .cancelOne)
      = session.step? .cancelRegistered := by
  rw [run?_cancelOne hFlag fun _ => id]
  exact (if_pos hFlag).symm

/-! ## Jobs and their signals -/

/-- An event only creates and cancels signals. -/
theorem Change.leads (h : Change session next event) :
    session.manager.signals.Leads next.manager.signals := by
  cases h with
  | kept hSame => exact hSame.signals ▸ .refl _
  | accepted hEvent hCall hFree hManager => exact hManager ▸ .refl _
  | raised hEvent hFlag hManager => exact hManager ▸ .refl _
  | walked hFlag hManager => exact hManager ▸ Signals.leads_cancelAll _ _
  | moved hEvent hCycle hSuits hMoves => exact hMoves.signals ▸ Manager.leads_signalsAfter _ _ _

/-- The signal of a cycle was the one of this cycle before, or it is new. -/
theorem Change.signal_origin (h : Change session next event) {id : Nat} {cycle : Cycle}
    {signal : SignalId} (hCycle : next.manager.cycles[id]? = some cycle)
    (hSignal : cycle.phase.signal? = some signal) :
    (∃ earlier, session.manager.cycles[id]? = some earlier ∧
        earlier.phase.signal? = some signal) ∨
      signal = session.manager.signals.create.1 ∧
        ∃ draw stimulus, event = .move id draw stimulus := by
  cases h.origin hCycle with
  | same hSame => exact .inl ⟨cycle, hSame, hSignal⟩
  | begun hEvent hCall hFree hManager hId hNew =>
      rw [hNew] at hSignal
      cases hSignal
  | @moved draw stimulus earlier hEvent hEarlier hSuits hMoves =>
      rcases hMoves.move.signal?_cases hSignal with hBefore | ⟨hNew, -⟩
      · exact .inl ⟨earlier, hEarlier, hBefore⟩
      · exact .inr ⟨hNew, draw, stimulus, hEvent⟩

/-- A job that was started was started before, or its cycle was about to start it. -/
theorem startJob_cases (hStep : session.step? event = some next) {id : Nat} {signal : SignalId}
    (hStarted : .startJob id signal ∈ next.effects) :
    .startJob id signal ∈ session.effects ∨
      ∃ cycle version, session.manager.cycles[id]? = some cycle ∧
        cycle.phase = .starting version signal := by
  obtain ⟨more, hEffects, hMore⟩ := (frame_of_step? hStep).effects
  rw [hEffects] at hStarted
  refine (List.mem_append.mp hStarted).imp_right fun hNew => ?_
  obtain ⟨draw, cycle, version, -, hCycle, hPhase⟩ := hMore id signal hNew
  exact ⟨cycle, version, hCycle, hPhase⟩

theorem startJob_mem_stepped {id : Nat} {cycle : Cycle} {version : Int} {signal : SignalId}
    (hCycle : session.manager.cycles[id]? = some cycle)
    (hPhase : cycle.phase = .starting version signal) (draw : Nat) :
    .startJob id signal ∈ (session.stepped id draw .turn).effects := by
  simp [stepped, Manager.step, hCycle, Manager.turn, hPhase, Manager.startJob]

/-- **Which jobs were started under which signals.** -/
structure Jobs (session : Session) : Prop where
  sound : session.Sound
  created : ∀ (id : Nat) (signal : SignalId), .startJob id signal ∈ session.effects →
    signal < session.manager.signals.cancelled.length
  /-- A job whose signal is not cancelled has the cycle that has started it. -/
  owned : ∀ (id : Nat) (signal : SignalId), .startJob id signal ∈ session.effects →
    session.manager.signals.isCancelled signal = true ∨
      ∃ cycle, session.manager.cycles[id]? = some cycle ∧ cycle.phase.job? = some signal
  /-- No two cycles share a signal, -/
  distinct : ∀ (id other : Nat) (cycle rival : Cycle) (signal : SignalId),
    session.manager.cycles[id]? = some cycle → session.manager.cycles[other]? = some rival →
    cycle.phase.signal? = some signal → rival.phase.signal? = some signal → id = other
  /-- and the signal of a cycle goes to no job but its own. -/
  sole : ∀ (id other : Nat) (cycle : Cycle) (signal : SignalId),
    session.manager.cycles[id]? = some cycle → cycle.phase.signal? = some signal →
    .startJob other signal ∈ session.effects → other = id
  /-- A cycle that makes heartbeats has started its job. -/
  begun : ∀ (id : Nat) (cycle : Cycle) (signal : SignalId),
    session.manager.cycles[id]? = some cycle → cycle.phase.job? = some signal →
    (∃ version, cycle.phase = .starting version signal) ∨ .startJob id signal ∈ session.effects

namespace Jobs

theorem around {options : Manager.Options} {capacity : Nat} {manager : Manager}
    (h : Manager.new options capacity = .ok manager) : (Session.around manager).Jobs := by
  have hSound := Sound.around h
  unfold Manager.new at h
  split at h
  · cases h
  · obtain rfl := Except.ok.inj h
    refine ⟨hSound, ?_, ?_, ?_, ?_, ?_⟩
    · intro id signal hStarted
      cases hStarted
    · intro id signal hStarted
      cases hStarted
    · intro id other cycle rival signal hCycle
      simp [Session.around] at hCycle
    · intro id other cycle signal hCycle
      simp [Session.around] at hCycle
    · intro id cycle signal hCycle
      simp [Session.around] at hCycle

/-- The signal of a cycle is not one that is to be created. -/
theorem ne_create (h : session.Jobs) {id : Nat} {cycle : Cycle}
    (hCycle : session.manager.cycles[id]? = some cycle) :
    cycle.phase.signal? ≠ some session.manager.signals.create.1 := fun hSignal =>
  Nat.lt_irrefl _ (h.sound.coherent.created id cycle _ hCycle hSignal)

/-- A started job stays with its cycle until its signal is cancelled. -/
theorem owned_step (h : session.Jobs) (hStep : session.step? event = some next) {id : Nat}
    {signal : SignalId} (hStarted : .startJob id signal ∈ next.effects) :
    next.manager.signals.isCancelled signal = true ∨
      ∃ cycle, next.manager.cycles[id]? = some cycle ∧ cycle.phase.job? = some signal := by
  have hChange := change_of_step? hStep
  -- A job that is started now has its cycle already.
  have hOwned : session.manager.signals.isCancelled signal = true ∨
      ∃ cycle, session.manager.cycles[id]? = some cycle ∧ cycle.phase.job? = some signal := by
    rcases startJob_cases hStep hStarted with hOld | ⟨cycle, version, hCycle, hPhase⟩
    · exact h.owned id signal hOld
    · exact .inr ⟨cycle, hCycle, by rw [hPhase]; rfl⟩
  rcases hOwned with hCancelled | ⟨cycle, hCycle, hJob⟩
  · exact .inl (hChange.leads.kept signal hCancelled)
  · rcases hChange.cycle_cases hCycle with hSame | ⟨draw, stimulus, later, -, -, hMoves, hLater⟩
    · exact .inr ⟨cycle, hSame, hJob⟩
    · have hBound : signal < session.manager.signals.cancelled.length :=
        h.sound.coherent.created id cycle signal hCycle (Cycle.Phase.signal?_of_job? hJob)
      rcases hMoves.move.job?_or_cancelled hJob hBound with hKept | hCancelled
      · exact .inr ⟨later, hLater, hKept⟩
      · exact .inl (hMoves.signals ▸ hCancelled)

/-- The job of a cycle is about to be started, or was started. -/
theorem begun_step (h : session.Jobs) (hStep : session.step? event = some next) {id : Nat}
    {cycle : Cycle} {signal : SignalId} (hCycle : next.manager.cycles[id]? = some cycle)
    (hJob : cycle.phase.job? = some signal) :
    (∃ version, cycle.phase = .starting version signal) ∨ .startJob id signal ∈ next.effects := by
  obtain ⟨more, hEffects, -⟩ := (frame_of_step? hStep).effects
  have hKept : .startJob id signal ∈ session.effects → .startJob id signal ∈ next.effects :=
    fun hOld => hEffects ▸ List.mem_append_left more hOld
  cases (change_of_step? hStep).origin hCycle with
  | same hSame => exact (h.begun id cycle signal hSame hJob).imp_right hKept
  | begun hEvent hCall hFree hManager hId hNew =>
      rw [hNew] at hJob
      cases hJob
  | @moved draw stimulus earlier hEvent hEarlier hSuits hMoves =>
      rcases hMoves.move.job?_cases hJob with
        ⟨version, -, hPhase⟩ | ⟨rfl, version, hPhase⟩ | ⟨hBefore, hStarting⟩
      · exact .inl ⟨version, hPhase⟩
      · rw [hEvent] at hStep
        obtain ⟨-, -, -, rfl⟩ := exists_of_move hStep
        exact .inr (startJob_mem_stepped hEarlier hPhase draw)
      · rcases h.begun id earlier signal hEarlier hBefore with ⟨version, hPhase⟩ | hOld
        · exact absurd hPhase (hStarting version)
        · exact .inr (hKept hOld)

/-- Every event keeps this. -/
theorem step (h : session.Jobs) (hStep : session.step? event = some next) : next.Jobs := by
  have hChange := change_of_step? hStep
  refine ⟨h.sound.step hStep, ?_, fun id signal => h.owned_step hStep, ?_, ?_,
    fun id cycle signal => h.begun_step hStep⟩
  · intro id signal hStarted
    refine Nat.lt_of_lt_of_le ?_ hChange.leads.length
    rcases startJob_cases hStep hStarted with hOld | ⟨cycle, version, hCycle, hPhase⟩
    · exact h.created id signal hOld
    · exact h.sound.coherent.created id cycle signal hCycle (by rw [hPhase]; rfl)
  · intro id other cycle rival signal hCycle hRival hSignal hRivalSignal
    rcases hChange.signal_origin hCycle hSignal with
      ⟨earlier, hEarlier, hBefore⟩ | ⟨rfl, draw, stimulus, hEvent⟩ <;>
      rcases hChange.signal_origin hRival hRivalSignal with
        ⟨former, hFormer, hFormerSignal⟩ | ⟨hNew, otherDraw, otherStimulus, hOtherEvent⟩
    · exact h.distinct id other earlier former signal hEarlier hFormer hBefore hFormerSignal
    · exact absurd (hNew ▸ hBefore) (h.ne_create hEarlier)
    · exact absurd hFormerSignal (h.ne_create hFormer)
    · rw [hEvent] at hOtherEvent
      cases hOtherEvent
      rfl
  · intro id other cycle signal hCycle hSignal hStarted
    rcases hChange.signal_origin hCycle hSignal with
      ⟨earlier, hEarlier, hBefore⟩ | ⟨rfl, -⟩ <;>
      rcases startJob_cases hStep hStarted with hOld | ⟨rival, version, hRival, hPhase⟩
    · exact h.sole id other earlier signal hEarlier hBefore hOld
    · exact h.distinct other id rival earlier signal hRival hEarlier (by rw [hPhase]; rfl) hBefore
    · exact absurd (h.created other _ hOld) (Nat.lt_irrefl _)
    · exact absurd (by rw [hPhase]; rfl) (h.ne_create hRival)

theorem run (h : session.Jobs) {events : List Event} (hRun : session.run? events = some next) :
    next.Jobs :=
  runs?_induction (motive := fun _ session => session.Jobs) h
    (fun _ _ _ _ _ hBefore hStep => hBefore.step hStep) hRun

/-- **Before a shutdown only the loss of a lease cancels a signal**, and it is the signal of the
job that the cycle of this lease has started. -/
theorem losing_of_cancelled (h : session.Jobs) (hStep : session.step? event = some next)
    (hFlag : session.manager.shutDown = false) {signal : SignalId}
    (hBefore : session.manager.signals.isCancelled signal = false)
    (hAfter : next.manager.signals.isCancelled signal = true) :
    ∃ id draw cycle failures, event = .move id draw .turn ∧
      session.manager.cycles[id]? = some cycle ∧ cycle.phase = .losing failures signal ∧
      session.manager.options.maxFailures ≤ failures ∧
      ∀ other, .startJob other signal ∈ session.effects ↔ other = id := by
  have hKept : next.manager.signals ≠ session.manager.signals := by
    intro hSame
    rw [hSame, hBefore] at hAfter
    cases hAfter
  cases change_of_step? hStep with
  | kept hSame => exact absurd hSame.signals hKept
  | accepted hEvent hCall hFree hManager => exact absurd (by rw [hManager]; rfl) hKept
  | raised hEvent hDown hManager => exact absurd (by rw [hManager]; rfl) hKept
  | walked hUp hManager =>
      rw [hFlag] at hUp
      cases hUp
  | @moved id draw stimulus cycle later hEvent hCycle hSuits hMoves =>
      have hFits := h.sound.fits id cycle hCycle
      rw [hMoves.signals] at hAfter
      rcases hMoves.move.cancelled_cases hBefore hAfter with
        hUp | hStopping | ⟨rfl, failures, hLosing⟩
      · rw [hFlag] at hUp
        cases hUp
      · rw [hStopping] at hFits
        have hUp : session.manager.shutDown = true := hFits
        rw [hFlag] at hUp
        cases hUp
      · rw [hLosing] at hFits
        refine ⟨id, draw, cycle, failures, hEvent, hCycle, hLosing, hFits, fun other => ?_⟩
        constructor
        · exact h.sole id other cycle signal hCycle (by rw [hLosing]; rfl)
        · rintro rfl
          refine (h.begun other cycle signal hCycle (by rw [hLosing]; rfl)).resolve_left ?_
          rintro ⟨version, hStarting⟩
          rw [hLosing] at hStarting
          cases hStarting

end Jobs

/-! ## After a shutdown -/

/-- **What a shutdown leaves**: the flag is raised, and every cycle that has looked at it since
it was marked has a signal that is cancelled. -/
structure Drained (session : Session) : Prop where
  flag : session.manager.shutDown = true
  cancelled : ∀ (id : Nat) (cycle : Cycle) (signal : SignalId),
    session.manager.cycles[id]? = some cycle → cycle.phase.job? = some signal →
    session.manager.signals.isCancelled signal = true

/-- The signal of a cycle is in the registry. -/
theorem Sound.mem_registeredSignals (h : session.Sound) {id : Nat} {cycle : Cycle}
    {signal : SignalId} (hCycle : session.manager.cycles[id]? = some cycle)
    (hJob : cycle.phase.job? = some signal) : signal ∈ session.manager.registeredSignals := by
  have hLive : cycle.phase.isLive = true := by
    cases hPhase : cycle.phase with
    | «over» =>
        rw [hPhase] at hJob
        cases hJob
    | _ => rfl
  obtain ⟨registration, hGet, hShows⟩ := h.coherent.shown id cycle hCycle hLive
  have hSignal : registration.signal = some signal := by
    cases hPhase : cycle.phase with
    | starting version other => rw [hPhase] at hShows hJob; exact hShows.2.trans hJob
    | beating beat other => rw [hPhase] at hShows hJob; exact hShows.2.trans hJob
    | renewing beat renewal other => rw [hPhase] at hShows hJob; exact hShows.2.trans hJob
    | losing failures other => rw [hPhase] at hShows hJob; exact hShows.2.trans hJob
    | stopping other => rw [hPhase] at hShows hJob; exact hShows.2.trans hJob
    | _ => rw [hPhase] at hJob; cases hJob
  have hValue : registration ∈ session.manager.registry.values :=
    List.mem_map.mpr ⟨_, OrderedMap.mem_of_get? hGet, rfl⟩
  exact List.mem_filterMap.mpr ⟨registration, hValue, hSignal⟩

namespace Drained

/-- The walk of a shutdown comes to every cycle that has looked at the flag too early. -/
theorem of_walk (h : session.Sound) (hStep : session.step? .cancelRegistered = some next) :
    next.Drained := by
  simp only [step?] at hStep
  split at hStep
  · next hFlag =>
    obtain rfl := Option.some.inj hStep
    refine ⟨hFlag, fun id cycle signal hCycle hJob => ?_⟩
    exact Signals.isCancelled_cancelAll (h.mem_registeredSignals hCycle hJob)
      (h.coherent.created id cycle signal hCycle (Cycle.Phase.signal?_of_job? hJob))
  · cases hStep

/-- After the walk a cycle sees the flag before it starts a job. -/
theorem step (h : session.Drained) (hSound : session.Sound)
    (hStep : session.step? event = some next) : next.Drained := by
  have hChange := change_of_step? hStep
  refine ⟨hChange.shutDown h.flag, fun id cycle signal hCycle hJob => ?_⟩
  cases hChange.origin hCycle with
  | same hSame => exact hChange.leads.kept signal (h.cancelled id cycle signal hSame hJob)
  | begun hEvent hCall hFree hManager hId hNew =>
      rw [hNew] at hJob
      cases hJob
  | @moved draw stimulus earlier hEvent hEarlier hSuits hMoves =>
      rcases hMoves.move.job?_cases hJob with
        ⟨version, hMarked, hStarting⟩ | ⟨-, version, hPhase⟩ | ⟨hBefore, -⟩
      · have hBound := hSound.coherent.created id earlier signal hEarlier (by rw [hMarked]; rfl)
        rw [hMoves.signals, hMarked, hStarting]
        simp only [Manager.signalsAfter, h.flag, if_true]
        exact Signals.isCancelled_cancel_self hBound
      · exact hChange.leads.kept signal
          (h.cancelled id earlier signal hEarlier (by rw [hPhase]; rfl))
      · exact hChange.leads.kept signal (h.cancelled id earlier signal hEarlier hBefore)

theorem run (h : session.Drained) (hSound : session.Sound) {events : List Event}
    (hRun : session.run? events = some next) : next.Drained := by
  have hBoth : next.Drained ∧ next.Sound :=
    runs?_induction (motive := fun _ session => session.Drained ∧ session.Sound) ⟨h, hSound⟩
      (fun _ _ _ _ _ hBefore hStep => ⟨hBefore.1.step hBefore.2 hStep, hBefore.2.step hStep⟩) hRun
  exact hBoth.1

/-- No job has a signal that is not cancelled. -/
theorem isCancelled (h : session.Drained) (hJobs : session.Jobs) {id : Nat} {signal : SignalId}
    (hStarted : .startJob id signal ∈ session.effects) :
    session.manager.signals.isCancelled signal = true := by
  rcases hJobs.owned id signal hStarted with hCancelled | ⟨cycle, hCycle, hJob⟩
  · exact hCancelled
  · exact h.cancelled id cycle signal hCycle hJob

end Drained

/-- An event starts the job of a cycle under a signal. -/
def Starts (session next : Session) (id : Nat) (signal : SignalId) : Prop :=
  ∃ more, next.effects = session.effects ++ more ∧ .startJob id signal ∈ more

/-- A job that is started after a shutdown has a signal that was cancelled before. -/
theorem Drained.isCancelled_of_starts (h : session.Drained)
    (hStep : session.step? event = some next) {id : Nat} {signal : SignalId}
    (hStarts : session.Starts next id signal) :
    session.manager.signals.isCancelled signal = true := by
  obtain ⟨more, hEffects, hStarted⟩ := hStarts
  obtain ⟨other, hOther, hMore⟩ := (frame_of_step? hStep).effects
  obtain rfl : more = other := List.append_cancel_left (hEffects.symm.trans hOther)
  obtain ⟨draw, cycle, version, -, hCycle, hPhase⟩ := hMore id signal hStarted
  exact h.cancelled id cycle signal hCycle (by rw [hPhase]; rfl)

/-- **A shutdown reaches every job.**  From the end of its walk on the signal of every job that
was started is cancelled, and a job that is started later gets a signal that is cancelled
already.  Before a shutdown a signal is cancelled only when a cycle has lost its lease, and it
is the signal of the one job that this cycle has started. -/
theorem shutdown_reaches_jobs {options : Manager.Options} {capacity : Nat} {manager : Manager}
    (hNew : Manager.new options capacity = .ok manager) {events : List Event} {session : Session}
    (hRun : (around manager).run? events = some session) :
    (∀ early late before after,
      Occurs step? (around manager) events early .cancelRegistered late before after →
      (∀ id signal, .startJob id signal ∈ session.effects →
        session.manager.signals.isCancelled signal = true) ∧
      ∀ pre event post earlier later, Occurs step? after late pre event post earlier later →
        ∀ id signal, earlier.Starts later id signal →
          earlier.manager.signals.isCancelled signal = true) ∧
    ∀ event next signal, session.step? event = some next → session.manager.shutDown = false →
      session.manager.signals.isCancelled signal = false →
      next.manager.signals.isCancelled signal = true →
      ∃ id draw cycle failures, event = .move id draw .turn ∧
        session.manager.cycles[id]? = some cycle ∧ cycle.phase = .losing failures signal ∧
        session.manager.options.maxFailures ≤ failures ∧
        ∀ other, .startJob other signal ∈ session.effects ↔ other = id := by
  have hStart : (around manager).Jobs := .around hNew
  constructor
  · intro early late before after hOccurs
    have hBefore : before.Sound := hStart.sound.run hOccurs.run
    have hAfter : after.Drained := .of_walk hBefore hOccurs.step
    have hSound : after.Sound := hBefore.step hOccurs.step
    constructor
    · exact fun id signal => (hAfter.run hSound (hOccurs.rest hRun)).isCancelled (hStart.run hRun)
    · intro pre event post earlier later hLater id signal
      exact (hAfter.run hSound hLater.run).isCancelled_of_starts hLater.step
  · intro event next signal hStep hFlag hActive hCancelled
    exact (hStart.run hRun).losing_of_cancelled hStep hFlag hActive hCancelled

/-- One job runs, and another lock was just had, when a shutdown comes: its walk does not find
the second lock, which is marked and gets its job only afterwards. -/
def lateJob : List Event :=
  .enter "x" .short :: .enroll 0 :: firstLease 0 ++ .enter "y" .short :: .enroll 0
    :: (firstLease 1).take 5 ++ [.raiseFlag]

theorem cancelled_of_lateJob :
    Manager.new (.ofIdentity "a") 1 = .ok soleManager ∧
      ∃ session,
        (around soleManager).run? (lateJob ++ .cancelRegistered :: (firstLease 1).drop 5)
          = some session ∧
        .startJob 0 0 ∈ session.effects ∧ session.manager.signals.isCancelled 0 = true ∧
        .startJob 1 1 ∈ session.effects ∧ session.manager.signals.isCancelled 1 = true := by
  have hNew : Manager.new (.ofIdentity "a") 1 = .ok soleManager := rfl
  have hRuns : ((around soleManager).run?
      (lateJob ++ .cancelRegistered :: (firstLease 1).drop 5)).isSome = true := by decide
  obtain ⟨session, hRun⟩ := Option.isSome_iff_exists.mp hRuns
  have hEffects : ((around soleManager).run?
      (lateJob ++ .cancelRegistered :: (firstLease 1).drop 5)).map
        (fun session => (session.effects[4]?, session.effects[10]?))
      = some (some (.startJob 0 0), some (.startJob 1 1)) := by rfl
  rw [hRun, Option.map_some, Option.some.injEq, Prod.mk.injEq] at hEffects
  have hFirst := List.mem_of_getElem? hEffects.1
  have hSecond := List.mem_of_getElem? hEffects.2
  obtain ⟨before, after, hOccurs⟩ := Occurs.exists_of_run rfl hRun
  obtain ⟨hReached, -⟩ := (shutdown_reaches_jobs hNew hRun).1 _ _ _ _ hOccurs
  exact ⟨hNew, session, hRun, hFirst, hReached 0 0 hFirst, hSecond, hReached 1 1 hSecond⟩

end Session
end Leasehold
