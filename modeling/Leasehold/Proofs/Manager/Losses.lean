import Leasehold.Proofs.Manager.Balance
import Leasehold.Proofs.Manager.Outbox
import Leasehold.Proofs.Manager.Shutdown

/-!
# Lost leases

Every lease that is lost is published once and counted once, and nothing else is.  What the
receiver has taken and what it can still take are together the losses of the run, and whenever
a loss can be received the job of its lock is cancelled already.

* `Cycle.Phase.Strikes`: how many failures a cycle has counted in a phase.
* `Session.Struck`: the invariant of losses.
* `Session.Tally`: what an event does to the losses.
* `Session.losses`, `Session.received`: the losses of a run, and what its receiver has taken.
* `Session.Delivered`: what has become of the losses of a run.
* `Session.Settled`: a task that has lost its lease, with its job cancelled.
* `Session.Account`, `Session.account_of_run`: the account of a run.
-/

namespace Leasehold

/-! ## How many failures -/

@[simp]
theorem Heartbeat.tick_failures (beat : Heartbeat) (now : Nat) (period : Span) :
    (beat.tick now period).failures = beat.failures := by
  rw [tick]

namespace Cycle

/-- **How many failures a cycle has counted**: fewer than the options allow while it makes
heartbeats, and as many as they allow when it has lost its lease. -/
def Phase.Strikes (limit : Nat) : Phase → Prop
  | .beating beat _ => beat.failures < limit
  | .renewing beat _ _ => beat.failures < limit
  | .losing failures _ => failures = limit
  | .demoting failures => failures = limit
  | _ => True

theorem Move.strikes {manager : Manager} {cycle : Cycle} {moment : Moment} {stimulus : Stimulus}
    {phase phase' : Phase} (h : Move manager cycle moment stimulus phase phase')
    (hStrikes : phase.Strikes manager.options.maxFailures)
    (hLimit : 0 < manager.options.maxFailures) : phase'.Strikes manager.options.maxFailures := by
  cases h with
  | start version signal =>
      show 0 < manager.options.maxFailures
      exact hLimit
  | recover hResult =>
      show 0 < manager.options.maxFailures
      exact hLimit
  | falter hResult hFailed hFailures => exact hFailures
  | lose hResult hFailed hFailures =>
      rename_i beat _ _ _
      have hFewer : beat.failures < manager.options.maxFailures := hStrikes
      show beat.failures + 1 = manager.options.maxFailures
      omega
  | cancel failures signal => exact hStrikes
  | renew beat renewal signal response => exact hStrikes
  | beat beat signal =>
      have hFewer : beat.failures < manager.options.maxFailures := hStrikes
      show (beat.tick _ _).failures < manager.options.maxFailures
      rw [Heartbeat.tick_failures]
      exact hFewer
  | _ => trivial

theorem Move.losing_of_demoting {manager : Manager} {cycle : Cycle} {moment : Moment}
    {stimulus : Stimulus} {phase : Phase} {failures : Nat}
    (h : Move manager cycle moment stimulus phase (.demoting failures)) :
    ∃ signal, phase = .losing failures signal := by
  cases h with
  | cancel failures signal => exact ⟨signal, rfl⟩

end Cycle

namespace Session

variable {start session next : Session} {event : Event} {events : List Event}

/-- **The invariant of losses.**  A lease is lost by as many failures as the options allow, and
a cycle that has lost its lease has started a job. -/
structure Struck (session : Session) : Prop where
  jobs : session.Jobs
  limit : 0 < session.manager.options.maxFailures
  strikes : ∀ (id : Nat) (cycle : Cycle), session.manager.cycles[id]? = some cycle →
    cycle.phase.Strikes session.manager.options.maxFailures
  begun : ∀ (id : Nat) (cycle : Cycle) (failures : Nat),
    session.manager.cycles[id]? = some cycle → cycle.phase = .demoting failures →
    ∃ signal, .startJob id signal ∈ session.effects

namespace Struck

theorem around {options : Manager.Options} {capacity : Nat} {manager : Manager}
    (h : Manager.new options capacity = .ok manager) : (Session.around manager).Struck := by
  have hLimit := (Manager.Options.of_validate (Manager.eq_of_new h).1).1
  have hNone : ∀ (id : Nat) (cycle : Cycle), manager.cycles[id]? ≠ some cycle := by
    rw [Manager.cycles_of_new h]
    exact fun id cycle => nofun
  refine ⟨.around h, ?_, ?_, ?_⟩
  · rw [(Manager.eq_of_new h).2]
    exact hLimit
  · exact fun id cycle hCycle => absurd hCycle (hNone id cycle)
  · exact fun id cycle failures hCycle => absurd hCycle (hNone id cycle)

/-- A cycle that is about to lose its lease has started its job. -/
theorem exists_startJob (h : session.Struck) {id failures : Nat} {cycle : Cycle}
    {signal : SignalId} (hCycle : session.manager.cycles[id]? = some cycle)
    (hLosing : cycle.phase = .losing failures signal) :
    .startJob id signal ∈ session.effects := by
  refine (h.jobs.begun id cycle signal hCycle (by rw [hLosing]; rfl)).resolve_left ?_
  rintro ⟨version, hStarting⟩
  rw [hLosing] at hStarting
  cases hStarting

/-- Every event keeps the invariant. -/
theorem step (h : session.Struck) (hStep : session.step? event = some next) : next.Struck := by
  have hChange := change_of_step? hStep
  obtain ⟨more, hEffects, -⟩ := (frame_of_step? hStep).effects
  have hKept : ∀ {id : Nat}, (∃ signal, .startJob id signal ∈ session.effects) →
      ∃ signal, .startJob id signal ∈ next.effects :=
    fun ⟨signal, hStarted⟩ => ⟨signal, hEffects ▸ List.mem_append_left more hStarted⟩
  refine ⟨h.jobs.step hStep, hChange.options ▸ h.limit, ?_, ?_⟩
  · intro id cycle hCycle
    rw [hChange.options]
    cases hChange.origin hCycle with
    | same hSame => exact h.strikes id cycle hSame
    | begun hEvent hCall hFree hManager hId hNew =>
        rw [hNew]
        trivial
    | moved hEvent hEarlier hSuits hMoves =>
        exact hMoves.move.strikes (h.strikes id _ hEarlier) h.limit
  · intro id cycle failures hCycle hDemoting
    cases hChange.origin hCycle with
    | same hSame => exact hKept (h.begun id cycle failures hSame hDemoting)
    | begun hEvent hCall hFree hManager hId hNew =>
        rw [hNew] at hDemoting
        cases hDemoting
    | @moved draw stimulus earlier hEvent hEarlier hSuits hMoves =>
        have hMove := hMoves.move
        rw [hDemoting] at hMove
        obtain ⟨signal, hLosing⟩ := hMove.losing_of_demoting
        exact hKept ⟨signal, h.exists_startJob hEarlier hLosing⟩

theorem run (h : session.Struck) (hRun : session.run? events = some next) : next.Struck :=
  runs?_induction (motive := fun _ session => session.Struck) h
    (fun _ _ _ _ _ hBefore hStep => hBefore.step hStep) hRun

end Struck

end Session

/-! ## What an event does to the losses -/

namespace Session

variable {start session next : Session} {event : Event} {events : List Event}

/-- **What an event does to the losses.**  It takes one name from held to lost, publishes the
loss and counts it, or it takes no name there, publishes nothing and counts nothing. -/
inductive Tally (before : Session) (event : Event) (after : Session) : Prop where
  | lost {id draw : Nat} {name : String} (hEvent : event = .move id draw .turn)
      (hDrives : before.Drives id name)
      (hHeld : before.manager.state name = .held) (hLost : after.manager.state name = .lost)
      (hOthers : ∀ other, other ≠ name →
        after.manager.state other = before.manager.state other)
      (hPublished : after.manager.outbox = (before.manager.outbox.publish
        ⟨name, before.manager.options.identity, before.manager.options.maxFailures⟩).1)
      (hCounted : ∀ other, Effect.total (.losses other) after.effects
        = Effect.total (.losses other) before.effects + if name = other then 1 else 0)
  | kept
      (hKept : ∀ name, before.manager.state name = .held → after.manager.state name ≠ .lost)
      (hOutbox : after.manager.outbox = before.served event)
      (hCounted : ∀ name, Effect.total (.losses name) after.effects
        = Effect.total (.losses name) before.effects)

/-- A name is lost by a cycle that was about to publish its loss. -/
theorem Sound.exists_demoting (h : session.Sound) (hStep : session.step? event = some next)
    {name : String} (hHeld : session.manager.state name = .held)
    (hLost : next.manager.state name = .lost) :
    ∃ id draw stimulus cycle failures, event = .move id draw stimulus ∧
      session.manager.cycles[id]? = some cycle ∧ cycle.name = name ∧
      cycle.phase = .demoting failures := by
  cases h.progress hStep name with
  | idle hState hDriver hBooks =>
      rw [hState, hHeld] at hLost
      cases hLost
  | registered hState hDriver hNextState hNextDriver hBegun hBooks =>
      rw [hState] at hHeld
      cases hHeld
  | @moved id draw stimulus cycle moved registration hEvent hCycle hName hSuits hMoves hState
      hShows hDriver hNextState hNextDriver hBooks =>
      have hOne := hMoves.move.lost_eq hShows hNextState
      rw [if_pos ⟨hState.symm.trans hHeld, hLost⟩] at hOne
      obtain ⟨failures, hDemoting⟩ : ∃ failures, cycle.phase = .demoting failures := by
        cases hPhase : cycle.phase with
        | demoting failures => exact ⟨failures, rfl⟩
        | _ => rw [hPhase] at hOne; cases hOne
      exact ⟨id, draw, stimulus, cycle, failures, hEvent, hCycle, hName, hDemoting⟩

/-- An event that counts no loss takes no name from held to lost. -/
theorem Sound.ne_lost_of_total (h : session.Sound) (hStep : session.step? event = some next)
    {name : String} (hCounted : Effect.total (.losses name) next.effects
      = Effect.total (.losses name) session.effects)
    (hHeld : session.manager.state name = .held) : next.manager.state name ≠ .lost := by
  intro hLost
  obtain ⟨id, draw, stimulus, cycle, failures, rfl, hCycle, hName, hDemoting⟩ :=
    h.exists_demoting hStep hHeld hLost
  have hTotal := (books_of_move hStep hCycle name).lost
  rw [if_pos hName, hDemoting, hCounted] at hTotal
  exact Nat.succ_ne_self _ hTotal.symm

/-- **Every event is one of these.** -/
theorem Struck.tally (h : session.Struck) (hStep : session.step? event = some next) :
    Tally session event next := by
  have hSound := h.jobs.sound
  by_cases hMove : ∃ id draw stimulus, event = .move id draw stimulus
  · obtain ⟨id, draw, stimulus, rfl⟩ := hMove
    obtain ⟨cycle, moved, hCycle, hSuits, hMoves, -⟩ := exists_moves_of_move hStep
    have hLive := hMoves.move.isLive
    have hOutbox := outbox_of_move hStep hCycle
    have hLost := fun name => (books_of_move hStep hCycle name).lost
    cases hPhase : cycle.phase with
    | demoting failures =>
        have hMove := hMoves.move
        rw [hPhase] at hMove
        obtain ⟨registration, hGet, hShows⟩ := hSound.coherent.shown id cycle hCycle hLive
        rw [hPhase] at hShows
        obtain ⟨rfl, hAfter⟩ := hMove.lost_of_demoting registration
        have hFailures : failures = session.manager.options.maxFailures := by
          have hStrikes := h.strikes id cycle hCycle
          rw [hPhase] at hStrikes
          exact hStrikes
        refine .lost rfl ⟨cycle, hCycle, rfl, hLive⟩ ((Manager.state_of_get? hGet).trans hShows.1)
          ((hMoves.state_eq hGet).trans hAfter) ?_ ?_ ?_
        · intro other hOther
          refine Manager.state_of_registry_eq ?_
          rw [hMoves.registry]
          exact session.manager.get?_registryAfter_of_ne _ hOther
        · rw [hOutbox, hPhase, hFailures]
          rfl
        · intro other
          rw [hLost other, hPhase]
          rfl
    | _ =>
        have hCounted : ∀ name, Effect.total (.losses name) next.effects
            = Effect.total (.losses name) session.effects := by
          intro name
          rw [hLost name, hPhase]
          exact congrArg _ (ite_self 0)
        refine .kept (fun name => hSound.ne_lost_of_total hStep (hCounted name)) ?_ hCounted
        rw [hOutbox, hPhase]
        rfl
  · have hEvent : ∀ id draw stimulus, event ≠ .move id draw stimulus :=
      fun id draw stimulus hEq => hMove ⟨id, draw, stimulus, hEq⟩
    obtain ⟨entries, hEffects⟩ := exists_logs_of_step? hStep hEvent
    have hCounted : ∀ name, Effect.total (.losses name) next.effects
        = Effect.total (.losses name) session.effects :=
      fun name => (books_of_logs hEffects name).lost
    exact .kept (fun name => hSound.ne_lost_of_total hStep (hCounted name))
      (outbox_of_step? hStep hEvent) hCounted

/-- The loss that an event stands for: the name that it takes from held to lost, under the
identity of the manager, with the failures that its options allow. -/
def loss? (before after : Session) : Option LeaseLoss :=
  (before.manager.registry.keys.find? fun name =>
    before.manager.state name = .held && after.manager.state name = .lost).map fun name =>
      ⟨name, before.manager.options.identity, before.manager.options.maxFailures⟩

/-- The loss that the receiver takes with an event. -/
def taken? (before : Session) : Event → Option LeaseLoss
  | .receive => before.manager.outbox.receive.1
  | _ => none

/-- The losses of a run, in their order. -/
def losses (start : Session) (events : List Event) : List LeaseLoss :=
  (trace step? start events).filterMap fun (before, _, after) => before.loss? after

/-- What the receiver has taken in a run, in its order. -/
def received (start : Session) (events : List Event) : List LeaseLoss :=
  (trace step? start events).filterMap fun (before, event, _) => before.taken? event

theorem loss?_of_kept
    (h : ∀ name, session.manager.state name = .held → next.manager.state name ≠ .lost) :
    session.loss? next = none := by
  refine Option.map_eq_none_iff.mpr (List.find?_eq_none.mpr fun name hName => ?_)
  simpa using h name

theorem mem_loss? {loss : LeaseLoss} (h : session.loss? next = some loss) :
    session.manager.state loss.name = .held ∧ next.manager.state loss.name = .lost := by
  obtain ⟨name, hFind, rfl⟩ := Option.map_eq_some_iff.mp h
  simpa using List.find?_some hFind

theorem loss?_of_lost {name : String} (hHeld : session.manager.state name = .held)
    (hLost : next.manager.state name = .lost)
    (hOthers : ∀ other, other ≠ name →
      next.manager.state other = session.manager.state other) :
    session.loss? next = some
      ⟨name, session.manager.options.identity, session.manager.options.maxFailures⟩ := by
  have hOnly : ∀ other, session.manager.state other = .held →
      next.manager.state other = .lost → other = name := by
    intro other hOtherHeld hOtherLost
    refine Decidable.byContradiction fun hOther => ?_
    rw [hOthers other hOther, hOtherHeld] at hOtherLost
    cases hOtherLost
  have hKey : name ∈ session.manager.registry.keys := by
    have hContains : session.manager.registry.contains name = true :=
      Manager.contains_of_state (by rw [hHeld]; decide)
    obtain ⟨registration, hGet⟩ := Option.isSome_iff_exists.mp hContains
    exact List.mem_map.mpr ⟨_, OrderedMap.mem_of_get? hGet, rfl⟩
  cases hLoss : session.loss? next with
  | none =>
      have hNone := List.find?_eq_none.mp (Option.map_eq_none_iff.mp hLoss) name hKey
      simp [hHeld, hLost] at hNone
  | some loss =>
      obtain ⟨other, hFind, rfl⟩ := Option.map_eq_some_iff.mp hLoss
      have hFound := List.find?_some hFind
      simp only [Bool.and_eq_true, decide_eq_true_eq] at hFound
      rw [hOnly other hFound.1 hFound.2]

theorem losses_snoc (hRun : start.run? events = some session)
    (hStep : session.step? event = some next) :
    losses start (events ++ [event]) = losses start events ++ (session.loss? next).toList := by
  rw [losses, trace_snoc hRun hStep, List.filterMap_append, losses]
  simp only [List.filterMap_cons, List.filterMap_nil]
  cases session.loss? next <;> rfl

theorem received_snoc (hRun : start.run? events = some session)
    (hStep : session.step? event = some next) :
    received start (events ++ [event])
      = received start events ++ (session.taken? event).toList := by
  rw [received, trace_snoc hRun hStep, List.filterMap_append, received]
  simp only [List.filterMap_cons, List.filterMap_nil]
  cases session.taken? event <;> rfl

/-! ## What arrives -/

/-- **What has become of the losses of a run**: what the receiver can still take are losses of
the run, and while the receiver is there what it has taken comes before them and nothing is
missing. -/
structure Delivered (start : Session) (events : List Event) (session : Session) : Prop where
  orderly : session.manager.outbox.Orderly
  kept : ∀ loss ∈ session.manager.outbox.pending, loss ∈ losses start events
  whole : .dropReceiver ∉ events → session.manager.outbox.dropped = false ∧
    received start events ++ session.manager.outbox.pending = losses start events

/-- Nothing is published in the beginning. -/
theorem Delivered.around {options : Manager.Options} {capacity : Nat} {manager : Manager}
    (h : Manager.new options capacity = .ok manager) (hCapacity : 1 ≤ capacity) :
    Delivered (Session.around manager) [] (Session.around manager) := by
  rw [(Manager.eq_of_new h).2]
  exact ⟨.ofCapacity hCapacity, nofun, fun _ => ⟨rfl, rfl⟩⟩

/-- A published loss is one that can be received. -/
theorem mem_pending_publish {outbox : Outbox} {loss other : LeaseLoss}
    (h : other ∈ (outbox.publish loss).1.pending) : other ∈ outbox.pending ∨ other = loss := by
  cases hDropped : outbox.dropped with
  | true =>
      simp only [Outbox.publish, hDropped, if_true] at h
      exact .inl h
  | false =>
      rw [outbox.pending_publish loss hDropped] at h
      exact (List.mem_append.mp h).imp_right List.mem_singleton.mp

/-- A loss is published in its turn, and everything that is there stays. -/
theorem Delivered.publish (h : Delivered start events session) {loss : LeaseLoss}
    (hOutbox : next.manager.outbox = (session.manager.outbox.publish loss).1)
    (hLosses : losses start (events ++ [event]) = losses start events ++ [loss])
    (hReceived : received start (events ++ [event]) = received start events) :
    Delivered start (events ++ [event]) next := by
  refine ⟨hOutbox ▸ h.orderly.publish loss, ?_, ?_⟩
  · intro other hOther
    rw [hOutbox] at hOther
    rw [hLosses]
    exact List.mem_append.mpr ((mem_pending_publish hOther).imp (h.kept other)
      List.mem_singleton.mpr)
  · intro hNone
    obtain ⟨hThere, hWhole⟩ := h.whole fun hMem => hNone (List.mem_append_left _ hMem)
    rw [hOutbox, hReceived, hLosses, Outbox.pending_publish _ _ hThere, ← hWhole,
      List.append_assoc]
    refine ⟨?_, rfl⟩
    unfold Outbox.publish
    simp only [hThere, Bool.false_eq_true, if_false]
    split <;> rfl

/-- Taking a loss moves it from one list to the other. -/
theorem Delivered.receive (h : Delivered start events session)
    (hOutbox : next.manager.outbox = session.manager.outbox.receive.2)
    (hLosses : losses start (events ++ [event]) = losses start events)
    (hReceived : received start (events ++ [event])
      = received start events ++ session.manager.outbox.receive.1.toList) :
    Delivered start (events ++ [event]) next := by
  have hPending := h.orderly.pending_receive
  refine ⟨hOutbox ▸ h.orderly.receive, ?_, ?_⟩
  · intro loss hLoss
    rw [hOutbox, hPending] at hLoss
    rw [hLosses]
    exact h.kept loss (List.mem_of_mem_tail hLoss)
  · intro hNone
    obtain ⟨hThere, hWhole⟩ := h.whole fun hMem => hNone (List.mem_append_left _ hMem)
    rw [hOutbox, hReceived, hLosses, hPending, h.orderly.receive_fst, ← hWhole, List.append_assoc]
    refine ⟨?_, ?_⟩
    · unfold Outbox.receive
      split
      · exact hThere
      · exact hThere
    · cases session.manager.outbox.pending <;> rfl

/-- Every event keeps this. -/
theorem Delivered.step (h : Delivered start events session) (hStruck : session.Struck)
    (hRun : start.run? events = some session) (hStep : session.step? event = some next) :
    Delivered start (events ++ [event]) next := by
  have hLosses := losses_snoc hRun hStep
  have hReceived := received_snoc hRun hStep
  cases hStruck.tally hStep with
  | lost hEvent hDrives hHeld hLost hOthers hPublished hCounted =>
      subst hEvent
      rw [loss?_of_lost hHeld hLost hOthers] at hLosses
      exact h.publish hPublished hLosses (hReceived.trans (List.append_nil _))
  | kept hKept hOutbox hCounted =>
      rw [loss?_of_kept hKept, Option.toList_none, List.append_nil] at hLosses
      cases event with
      | receive => exact h.receive hOutbox hLosses hReceived
      | dropReceiver =>
          refine ⟨hOutbox ▸ h.orderly.drop, ?_, fun hNone => absurd (by simp) hNone⟩
          rw [hOutbox]
          exact nofun
      | _ =>
          have hSame : next.manager.outbox = session.manager.outbox := hOutbox
          have hNothing := hReceived.trans (List.append_nil _)
          refine ⟨hSame ▸ h.orderly, ?_, fun hNone => ?_⟩
          · rw [hSame, hLosses]
            exact h.kept
          · rw [hSame, hNothing, hLosses]
            exact h.whole fun hMem => hNone (List.mem_append_left _ hMem)

theorem Delivered.run (h : Delivered start [] start) (hStruck : start.Struck)
    (hRun : start.run? events = some session) : Delivered start events session :=
  runs?_induction (motive := fun events session => Delivered start events session) h
    (fun _ _ _ _ hBefore hDelivered hStep =>
      hDelivered.step (hStruck.run hBefore) hBefore hStep) hRun

/-- The session after its receiver has taken a loss. -/
def afterReceive (session : Session) : Session :=
  { session with manager := { session.manager with outbox := session.manager.outbox.receive.2 } }

/-- Taking losses is the receiver's affair only. -/
theorem Delivered.afterReceive (h : Delivered start events session)
    (hRun : start.run? events = some session) :
    Delivered start (events ++ [.receive]) session.afterReceive ∧
      losses start (events ++ [.receive]) = losses start events := by
  have hStep : session.step? .receive = some session.afterReceive := rfl
  have hLosses := losses_snoc hRun hStep
  have hKept : ∀ name, session.manager.state name = .held →
      session.afterReceive.manager.state name ≠ .lost := by
    intro name hHeld hLost
    have hSame : session.afterReceive.manager.state name = session.manager.state name := rfl
    rw [hSame, hHeld] at hLost
    cases hLost
  rw [loss?_of_kept hKept, Option.toList_none, List.append_nil] at hLosses
  exact ⟨h.receive rfl hLosses (received_snoc hRun hStep), hLosses⟩

/-- Everything that can be received arrives when the receiver takes it. -/
theorem Delivered.exists_drained (h : Delivered start events session)
    (hRun : start.run? events = some session) (hNone : .dropReceiver ∉ events) :
    ∃ later, session.run? (List.replicate session.manager.outbox.pending.length .receive)
        = some later ∧ later.manager.outbox.pending = [] ∧
      received start (events ++ List.replicate session.manager.outbox.pending.length .receive)
        = losses start events := by
  generalize hLength : session.manager.outbox.pending.length = n
  induction n generalizing events session with
  | zero =>
      have hEmpty := List.eq_nil_of_length_eq_zero hLength
      have hWhole := (h.whole hNone).2
      rw [hEmpty, List.append_nil] at hWhole
      refine ⟨session, rfl, hEmpty, ?_⟩
      rw [List.replicate_zero, List.append_nil]
      exact hWhole
  | succ n ih =>
      obtain ⟨hNext, hLosses⟩ := h.afterReceive hRun
      have hRunNext : start.run? (events ++ [.receive]) = some session.afterReceive := by
        rw [run?, runs?_snoc, show runs? step? start events = some session from hRun]
        rfl
      have hNoneNext : .dropReceiver ∉ events ++ [.receive] := by simp [hNone]
      have hLengthNext : session.afterReceive.manager.outbox.pending.length = n := by
        have hPending : session.afterReceive.manager.outbox.pending
            = session.manager.outbox.pending.tail := h.orderly.pending_receive
        rw [hPending, List.length_tail, hLength, Nat.add_sub_cancel]
      obtain ⟨later, hLater, hEmpty, hReceived⟩ := ih hNext hRunNext hNoneNext hLengthNext
      refine ⟨later, hLater, hEmpty, ?_⟩
      rw [List.replicate_succ, List.append_cons, ← hLosses]
      exact hReceived

/-! ## The account of a run -/

/-- **A task that has lost its lease**: it has started a job, every job that it has started has
a signal that is cancelled, and it is on the way to its end. -/
structure Settled (session : Session) (id : Nat) (name : String) : Prop where
  started : ∃ signal, .startJob id signal ∈ session.effects
  cancelled : ∀ signal, .startJob id signal ∈ session.effects →
    session.manager.signals.isCancelled signal = true
  cooling : ∃ due, session.Cooling id name due

/-- A task that is on the way to its end has no job. -/
theorem Jobs.cancelled_of_cooling (h : session.Jobs) {id : Nat} {name : String} {due : Nat}
    (hCooling : session.Cooling id name due) {signal : SignalId}
    (hStarted : .startJob id signal ∈ session.effects) :
    session.manager.signals.isCancelled signal = true := by
  obtain ⟨cycle, hCycle, -, hPhase⟩ := hCooling
  have hNoJob : cycle.phase.job? = none := by
    rcases hPhase with hCooling | ⟨-, hDeparting | hOver⟩
    · rw [hCooling]; rfl
    · rw [hDeparting]; rfl
    · rw [hOver]; rfl
  refine (h.owned id signal hStarted).resolve_right ?_
  rintro ⟨found, hFound, hJob⟩
  obtain rfl : cycle = found := Option.some.inj (hCycle.symm.trans hFound)
  rw [hNoJob] at hJob
  cases hJob

/-- What was done stays done. -/
theorem mem_effects_of_run {effect : Effect} (h : effect ∈ session.effects)
    (hRun : session.run? events = some next) : effect ∈ next.effects :=
  runs?_induction (motive := fun _ later => effect ∈ later.effects) h
    (fun _ _ _ _ _ hBefore hStep => by
      obtain ⟨more, hEffects, -⟩ := (frame_of_step? hStep).effects
      exact hEffects ▸ List.mem_append_left more hBefore) hRun

/-- **A lost lease is settled** from its loss on. -/
theorem Struck.settled (hStart : start.Struck) (hRun : start.run? events = some session)
    {early late : List Event} {before after : Session}
    (hOccurs : Occurs step? start events early event late before after) {name : String}
    (hHeld : before.manager.state name = .held) (hLost : after.manager.state name = .lost) :
    ∃ id draw, event = .move id draw .turn ∧ before.Drives id name ∧ session.Settled id name := by
  have hBefore := hStart.run hOccurs.run
  have hSound := hBefore.jobs.sound
  obtain ⟨id, draw, cycle, rfl, hCycle, rfl, hAfter⟩ :=
    hSound.exists_cooling hOccurs.step hHeld hLost
  have hCooling := hAfter.run (hOccurs.rest hRun)
  obtain ⟨_, _, _, found, failures, hEvent, hFound, -, hDemoting⟩ :=
    hSound.exists_demoting hOccurs.step hHeld hLost
  obtain ⟨rfl, -, -⟩ := Event.move.inj hEvent
  obtain rfl : cycle = found := Option.some.inj (hCycle.symm.trans hFound)
  obtain ⟨signal, hStarted⟩ := hBefore.begun id cycle failures hCycle hDemoting
  refine ⟨id, draw, rfl, ⟨cycle, hCycle, rfl, by rw [hDemoting]; rfl⟩, ?_, ?_, _, hCooling⟩
  · exact ⟨signal, mem_effects_of_run hStarted (hOccurs.rest_before hRun)⟩
  · exact fun other => (hStart.run hRun).jobs.cancelled_of_cooling hCooling

/-- A loss of a run is the loss of one of its events. -/
theorem exists_occurs_of_mem_losses {loss : LeaseLoss} (h : loss ∈ losses start events) :
    ∃ early event late before after, Occurs step? start events early event late before after ∧
      before.manager.state loss.name = .held ∧ after.manager.state loss.name = .lost := by
  obtain ⟨⟨before, event, after⟩, hTrace, hLoss⟩ := List.mem_filterMap.mp h
  obtain ⟨early, late, hOccurs⟩ := exists_occurs_of_mem_trace hTrace
  obtain ⟨hHeld, hLost⟩ := mem_loss? hLoss
  exact ⟨early, event, late, before, after, hOccurs, hHeld, hLost⟩

/-- **The account of a run** that has led from `start` to `session`. -/
structure Account (start : Session) (events : List Event) (session : Session) : Prop where
  /-- Each event takes one name from held to lost, publishes this loss and counts it, or it takes
  no name there, publishes nothing and counts nothing. -/
  tallied : ∀ (early : List Event) (event : Event) (late : List Event) (before after : Session),
    Occurs step? start events early event late before after → Tally before event after
  /-- A name has as many losses counted as there are events that have taken it there. -/
  counted : ∀ (name : String), Effect.total (.losses name) session.effects
    = passages start events name .held .lost
  /-- From the loss of a lease on, the job of its task is cancelled and the task holds nothing. -/
  settled : ∀ (early : List Event) (event : Event) (late : List Event) (before after : Session)
    (name : String), Occurs step? start events early event late before after →
    before.manager.state name = .held → after.manager.state name = .lost →
    ∃ id draw, event = .move id draw .turn ∧ before.Drives id name ∧ session.Settled id name
  /-- So it is for every loss that can be received. -/
  receivable : ∀ loss ∈ session.manager.outbox.pending,
    ∃ early event late before after id draw,
      Occurs step? start events early event late before after ∧ event = .move id draw .turn ∧
      before.manager.state loss.name = .held ∧ after.manager.state loss.name = .lost ∧
      before.Drives id loss.name ∧ session.Settled id loss.name
  /-- While the receiver is there, what it has taken and what it can take are the losses of the
  run, -/
  delivered : .dropReceiver ∉ events →
    received start events ++ session.manager.outbox.pending = losses start events
  /-- and it takes them all if it goes on. -/
  drained : .dropReceiver ∉ events →
    ∃ later, session.run? (List.replicate session.manager.outbox.pending.length .receive)
        = some later ∧ later.manager.outbox.pending = [] ∧
      received start (events ++ List.replicate session.manager.outbox.pending.length .receive)
        = losses start events
  /-- Between two steps of the cycles of a name, the attempts that got its lock are its losses,
  its cycles that were ended while it was held, and the lock that is held; -/
  balanced : ∀ (name : String), session.Rests name →
    Effect.total (.attempts name "acquired") session.effects
      = Effect.total (.losses name) session.effects
        + passages start events name .held .unregistered + (session.manager.state name).holds
  /-- only a shutdown ends a cycle while its lock is held, -/
  ended : ∀ (early : List Event) (event : Event) (late : List Event) (before after : Session)
    (name : String), Occurs step? start events early event late before after →
    before.manager.state name = .held → after.manager.state name = .unregistered →
    before.manager.shutDown = true
  /-- and the gauge shows whether the lock is held. -/
  lit : ∀ (name : String), session.Rests name →
    Effect.reading (.held name) session.effects = (session.manager.state name).holds

/-- **Every run keeps its account.** -/
theorem account_of_run {options : Manager.Options} {capacity : Nat} {manager : Manager}
    (hNew : Manager.new options capacity = .ok manager) (hCapacity : 1 ≤ capacity)
    {events : List Event} {session : Session}
    (hRun : (around manager).run? events = some session) :
    Account (around manager) events session := by
  have hStart : (around manager).Struck := .around hNew
  have hSound : session.Sound := hStart.jobs.sound.run hRun
  have hBalanced : ∀ name, Balanced (around manager) events session name :=
    fun name => (Balanced.around hNew name).run hStart.jobs.sound hRun
  have hDelivered : Delivered (around manager) events session :=
    (Delivered.around hNew hCapacity).run hStart hRun
  constructor
  case tallied => exact fun _ _ _ _ _ hOccurs => (hStart.run hOccurs.run).tally hOccurs.step
  case counted => exact fun name => (hBalanced name).lost
  case settled => exact fun _ _ _ _ _ _ hOccurs => hStart.settled hRun hOccurs
  case receivable =>
    intro loss hLoss
    obtain ⟨early, event, late, before, after, hOccurs, hHeld, hLost⟩ :=
      exists_occurs_of_mem_losses (hDelivered.kept loss hLoss)
    obtain ⟨id, draw, hEvent, hDrives, hSettled⟩ := hStart.settled hRun hOccurs hHeld hLost
    exact ⟨early, event, late, before, after, id, draw, hOccurs, hEvent, hHeld, hLost, hDrives,
      hSettled⟩
  case delivered => exact fun hNone => (hDelivered.whole hNone).2
  case drained => exact hDelivered.exists_drained hRun
  case balanced => exact fun name hRests => ((hBalanced name).of_rests hSound hRests).1
  case ended =>
    intro early event late before after name hOccurs hHeld hFree
    have hFollows := (hStart.jobs.sound.run hOccurs.run).follows hOccurs.step name
    rw [hHeld, hFree] at hFollows
    cases hFollows with
    | stop hFlag => exact hFlag
  case lit => exact fun name hRests => ((hBalanced name).of_rests hSound hRests).2

/-- A lock is had and lost, and the loss is published but not taken. -/
theorem account_of_lostLease :
    Manager.new (.ofIdentity "a") 1 = .ok soleManager ∧ (1 : Nat) ≤ 1 ∧
      ∃ session, (around soleManager).run? (lostLease ++ [.move 0 0 .turn]) = some session ∧
        session.manager.outbox.pending = [⟨"job", "a", 3⟩] ∧
        Effect.total (.losses "job") session.effects = 1 ∧
        Effect.total (.attempts "job" "acquired") session.effects = 1 ∧
        Effect.reading (.held "job") session.effects = 0 ∧
        (∃ id, session.Settled id "job") ∧
        received (around soleManager) (lostLease ++ [.move 0 0 .turn, .receive])
          = [⟨"job", "a", 3⟩] := by
  have hNew : Manager.new (.ofIdentity "a") 1 = .ok soleManager := rfl
  have hRuns : ((around soleManager).run? (lostLease ++ [.move 0 0 .turn])).isSome = true := by
    decide
  obtain ⟨session, hRun⟩ := Option.isSome_iff_exists.mp hRuns
  have hEnd : ((around soleManager).run? (lostLease ++ [.move 0 0 .turn])).map
      (fun session => (session.manager.outbox.pending, session.manager.state "job",
        session.manager.cycles.map fun cycle => cycle.phase.isResting))
      = some ([⟨"job", "a", 3⟩], .lost, [true]) := by rfl
  have hLosses : losses (around soleManager) (lostLease ++ [.move 0 0 .turn])
      = [⟨"job", "a", 3⟩] := by rfl
  have hPassages : passages (around soleManager) (lostLease ++ [.move 0 0 .turn]) "job"
        .held .lost = 1 ∧
      passages (around soleManager) (lostLease ++ [.move 0 0 .turn]) "job"
        .held .unregistered = 0 := by decide
  rw [hRun, Option.map_some, Option.some.injEq, Prod.mk.injEq, Prod.mk.injEq] at hEnd
  obtain ⟨hPending, hState, hPhases⟩ := hEnd
  have hAccount := account_of_run hNew (Nat.le_refl 1) hRun
  have hRests : session.Rests "job" := by
    intro id cycle hCycle _
    have hMem := List.mem_map_of_mem (f := fun cycle => cycle.phase.isResting)
      (List.mem_of_getElem? hCycle)
    rw [hPhases] at hMem
    exact List.mem_singleton.mp hMem
  have hCounted : Effect.total (.losses "job") session.effects = 1 :=
    (hAccount.counted "job").trans hPassages.1
  have hWon := hAccount.balanced "job" hRests
  have hLight := hAccount.lit "job" hRests
  rw [hState] at hWon hLight
  rw [hCounted, hPassages.2] at hWon
  obtain ⟨later, -, -, hReceived⟩ := hAccount.drained (by simp [lostLease, firstLease, missedBeat])
  rw [hPending, hLosses] at hReceived
  obtain ⟨_, _, _, _, _, id, _, -, -, -, -, -, hSettled⟩ :=
    hAccount.receivable ⟨"job", "a", 3⟩ (by rw [hPending]; exact List.mem_cons_self)
  exact ⟨hNew, Nat.le_refl 1, session, hRun, hPending, hCounted, hWon, hLight, ⟨id, hSettled⟩,
    hReceived⟩

end Session
end Leasehold
