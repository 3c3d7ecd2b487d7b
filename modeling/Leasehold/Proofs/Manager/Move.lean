import Leasehold.Manager.Basic

/-!
# Moves of cycles

Everything that one move of a cycle does to its manager is decided by the phases between
which the cycle moves.  This module says it once, so that no later proof looks into the
moves themselves.

* `Cycle.Phase.isLive`: every phase but the last.
* `Cycle.Phase.signal?`: the signal of a job that is about to run or may still run.
* `Cycle.Move`: the moves, as pairs of phases.
* `Manager.registryAfter`, `Manager.signalsAfter`: what a move does to the registry and to
  the signals.
* `Manager.step_cases`: a step does nothing, or it is one of the moves;
  `Manager.exists_moves_of_turn` and `Manager.turn_of_need` say which of the two a turn is.
-/

namespace Leasehold

namespace Cycle

/-- Whether a cycle has not come to its end. -/
def Phase.isLive : Phase → Bool
  | .over => false
  | _ => true

/-- The signal of the job of a held lock. -/
def Phase.signal? : Phase → Option SignalId
  | .marked _ signal => some signal
  | .starting _ signal => some signal
  | .beating _ signal => some signal
  | .renewing _ _ signal => some signal
  | .losing _ signal => some signal
  | .stopping signal => some signal
  | _ => none

/-- **The moves of a cycle** of a manager at a moment, by what moves it: the phase before
and the phase after. -/
inductive Move (manager : Manager) (cycle : Cycle) (moment : Moment) :
    Stimulus → Phase → Phase → Prop where
  | quit (hFlag : manager.shutDown = true) : Move manager cycle moment .turn .retrying .leaving
  | attempt (hFlag : manager.shutDown = false) :
      Move manager cycle moment .turn .retrying
        (.attempting (.start (manager.claimant cycle.name) (manager.policy cycle.interval).lease))
  | win {attempt : Attempt} {version : Int}
      (hResult : attempt.result? = some (.ok (.acquired version))) :
      Move manager cycle moment .turn (.attempting attempt) (.acquired version)
  | miss {attempt : Attempt} {result : Except LockError Outcome}
      (hResult : attempt.result? = some result)
      (hMissed : ∀ version, result ≠ .ok (.acquired version)) :
      Move manager cycle moment .turn (.attempting attempt)
        (.waiting (moment.now + (cycle.backoff.delay moment.draw).nanos))
  | mark (version : Int) :
      Move manager cycle moment .turn (.acquired version) (.marked version manager.signals.create.1)
  | look (version : Int) (signal : SignalId) :
      Move manager cycle moment .turn (.marked version signal) (.starting version signal)
  | start (version : Int) (signal : SignalId) :
      Move manager cycle moment .turn (.starting version signal)
        (.beating (.start moment.now (manager.policy cycle.interval).heartbeat) signal)
  | recover {beat : Heartbeat} {renewal : Renewal} {signal : SignalId}
      (hResult : renewal.result? = some (.ok true)) :
      Move manager cycle moment .turn (.renewing beat renewal signal) (.beating beat.recover signal)
  | falter {beat : Heartbeat} {renewal : Renewal} {signal : SignalId}
      {result : Except LockError Bool} (hResult : renewal.result? = some result)
      (hFailed : result ≠ .ok true) (hFailures : beat.failures + 1 < manager.options.maxFailures) :
      Move manager cycle moment .turn (.renewing beat renewal signal) (.beating beat.fail signal)
  | lose {beat : Heartbeat} {renewal : Renewal} {signal : SignalId}
      {result : Except LockError Bool} (hResult : renewal.result? = some result)
      (hFailed : result ≠ .ok true) (hFailures : manager.options.maxFailures ≤ beat.failures + 1) :
      Move manager cycle moment .turn (.renewing beat renewal signal)
        (.losing (beat.failures + 1) signal)
  | cancel (failures : Nat) (signal : SignalId) :
      Move manager cycle moment .turn (.losing failures signal) (.demoting failures)
  | demote (failures : Nat) :
      Move manager cycle moment .turn (.demoting failures)
        (.cooling (moment.now + (manager.policy cycle.interval).lease.nanos))
  | depart : Move manager cycle moment .turn .departing .over
  | stop (signal : SignalId) : Move manager cycle moment .turn (.stopping signal) .leaving
  | leave : Move manager cycle moment .turn .leaving .over
  | answer (attempt : Attempt) (response : Response) :
      Move manager cycle moment (.response response) (.attempting attempt)
        (.attempting (attempt.resume response))
  | renew (beat : Heartbeat) (renewal : Renewal) (signal : SignalId) (response : Response) :
      Move manager cycle moment (.response response) (.renewing beat renewal signal)
        (.renewing beat (renewal.resume response) signal)
  | retry (due : Nat) : Move manager cycle moment .deadline (.waiting due) .retrying
  | beat (beat : Heartbeat) (signal : SignalId) :
      Move manager cycle moment .deadline (.beating beat signal)
        (.renewing (beat.tick moment.now (manager.policy cycle.interval).heartbeat)
          (.start (manager.claimant cycle.name)) signal)
  | cool (due : Nat) : Move manager cycle moment .deadline (.cooling due) .departing
  | wakeWaiting (due : Nat) : Move manager cycle moment .shutdown (.waiting due) .leaving
  | wakeBeating (beat : Heartbeat) (signal : SignalId) :
      Move manager cycle moment .shutdown (.beating beat signal) (.stopping signal)
  | wakeCooling (due : Nat) : Move manager cycle moment .shutdown (.cooling due) .departing

end Cycle

/-! ## What is accepted -/

namespace PolicyTable

theorem isValid_of_validate {policies : PolicyTable} (h : policies.validate = .ok ())
    (interval : IntervalClass) : (policies.get interval).IsValid := by
  have hPolicy : ∀ (policy : LeasePolicy) (kind : IntervalClass), policy.validate kind = .ok () →
      policy.IsValid := by
    intro policy kind hValid
    rw [← policy.fault?_eq_none_iff]
    unfold LeasePolicy.validate at hValid
    split at hValid
    · cases hValid
    · next hNone => exact hNone
  unfold validate at h
  split at h
  · cases h
  · next hShort =>
    cases interval with
    | short => exact hPolicy _ _ hShort
    | medium => exact hPolicy _ _ h

end PolicyTable

namespace Manager

/-- Accepted options allow at least one failure, and heartbeats fall within the lease. -/
theorem Options.of_validate {options : Options} (h : options.validate = .ok ()) :
    0 < options.maxFailures ∧ ∀ interval, (options.policies.get interval).IsValid := by
  unfold validate at h
  split at h
  · cases h
  · split at h
    · cases h
    · next hFailures =>
      refine ⟨Nat.pos_of_ne_zero hFailures, fun interval => ?_⟩
      split at h
      · cases h
      · next hPolicies =>
        exact PolicyTable.isValid_of_validate hPolicies interval

/-- A new manager has options that were accepted, and nothing is registered in it. -/
theorem eq_of_new {options : Options} {capacity : Nat} {manager : Manager}
    (h : new options capacity = .ok manager) :
    options.validate = .ok () ∧
      manager = ⟨options, ∅, false, .none, .ofCapacity capacity, []⟩ := by
  unfold new at h
  split at h
  · cases h
  · next hValid => exact ⟨hValid, (Except.ok.inj h).symm⟩

theorem cycles_of_new {options : Options} {capacity : Nat} {manager : Manager}
    (h : new options capacity = .ok manager) : manager.cycles = [] := by
  rw [(eq_of_new h).2]

end Manager

/-! ## Heartbeats in time -/

/-- A heartbeat that is not late keeps the schedule. -/
theorem Heartbeat.tick_of_le {beat : Heartbeat} {now : Nat} (period : Span) (h : now ≤ beat.due) :
    beat.tick now period = ⟨beat.due + period.nanos, beat.failures⟩ := by
  have hInTime : ¬ beat.due + tolerance < now := by omega
  unfold tick
  rw [if_neg hInTime]

/-! ## What cycles wait for -/

namespace Cycle

/-- An operation under way that needs nothing has come to its end. -/
theorem Need.ofRequest_eq_nothing {request? : Option Request}
    (h : Need.ofRequest request? = .nothing) : request? = none := by
  cases request? with
  | none => rfl
  | some request => cases request <;> cases h

/-- An operation under way does not wait for a time to come. -/
theorem Need.ofRequest_ne_pause (request? : Option Request) (due : Nat) :
    Need.ofRequest request? ≠ .pause due := by
  rcases request? with _ | _ | _ <;> nofun

/-- An operation under way is not the end of a cycle. -/
theorem Need.ofRequest_ne_finished (request? : Option Request) :
    ofRequest request? ≠ .finished := by
  cases request? with
  | none => nofun
  | some request => cases request <;> nofun

theorem Need.ofRequest_eq_time {request? : Option Request} (h : ofRequest request? = .time) :
    request? = some .time := by
  cases request? with
  | none => cases h
  | some request => cases request <;> first | rfl | cases h

theorem Need.ofRequest_eq_answer {request? : Option Request} {call : Call}
    (h : ofRequest request? = .answer call) : request? = some (.call call) := by
  cases request? with
  | none => cases h
  | some request =>
      cases request with
      | call other => rw [Need.answer.inj h]
      | time => cases h

/-- Attempts and renewals read the clock. -/
theorem Phase.need_eq_time {phase : Phase} (h : phase.need = .time) :
    (∃ attempt, phase = .attempting attempt ∧ attempt.request? = some .time) ∨
      ∃ beat renewal signal, phase = .renewing beat renewal signal ∧
        renewal.request? = some .time := by
  cases phase with
  | attempting attempt => exact .inl ⟨attempt, rfl, Need.ofRequest_eq_time h⟩
  | renewing beat renewal signal =>
      exact .inr ⟨beat, renewal, signal, rfl, Need.ofRequest_eq_time h⟩
  | _ => cases h

/-- Attempts and renewals call the store. -/
theorem Phase.need_eq_answer {phase : Phase} {call : Call} (h : phase.need = .answer call) :
    (∃ attempt, phase = .attempting attempt ∧ attempt.request? = some (.call call)) ∨
      ∃ beat renewal signal, phase = .renewing beat renewal signal ∧
        renewal.request? = some (.call call) := by
  cases phase with
  | attempting attempt => exact .inl ⟨attempt, rfl, Need.ofRequest_eq_answer h⟩
  | renewing beat renewal signal =>
      exact .inr ⟨beat, renewal, signal, rfl, Need.ofRequest_eq_answer h⟩
  | _ => cases h

/-- A cycle that is not over still has something to do. -/
theorem Phase.need_ne_finished_of_isLive {phase : Phase} (h : phase.isLive = true) :
    phase.need ≠ .finished := by
  cases phase with
  | attempting attempt => exact Need.ofRequest_ne_finished _
  | renewing beat renewal signal => exact Need.ofRequest_ne_finished _
  | «over» => cases h
  | _ => nofun

/-- The phases that wait for a time to come. -/
theorem Phase.pause_cases {phase : Phase} {due : Nat} (h : phase.need = .pause due) :
    phase = .waiting due ∨ (∃ beat signal, phase = .beating beat signal ∧ beat.due = due) ∨
      phase = .cooling due := by
  cases phase with
  | waiting other => exact .inl (congrArg Phase.waiting (Need.pause.inj h))
  | beating beat signal => exact .inr (.inl ⟨beat, signal, rfl, Need.pause.inj h⟩)
  | cooling other => exact .inr (.inr (congrArg Phase.cooling (Need.pause.inj h)))
  | attempting attempt => exact absurd h (Need.ofRequest_ne_pause _ _)
  | renewing beat renewal signal => exact absurd h (Need.ofRequest_ne_pause _ _)
  | _ => cases h

end Cycle

/-- A renewal asks for something exactly until it has ended. -/
theorem Renewal.request?_eq_none_iff (renewal : Renewal) :
    renewal.request? = none ↔ renewal.result?.isSome = true := by
  cases h : renewal.stage <;> simp [Renewal.request?, Renewal.result?, h]

/-- A renewal reads the clock before it writes. -/
theorem Renewal.stage_of_request?_time {renewal : Renewal} (h : renewal.request? = some .time) :
    renewal.stage = .stamping := by
  cases hStage : renewal.stage with
  | stamping => rfl
  | writing now => simp [request?, hStage] at h
  | finished result => simp [request?, hStage] at h

/-- A renewal calls the store once, to write. -/
theorem Renewal.stage_of_request?_call {renewal : Renewal} {call : Call}
    (h : renewal.request? = some (.call call)) : ∃ now, renewal.stage = .writing now := by
  cases hStage : renewal.stage with
  | writing now => exact ⟨now, rfl⟩
  | stamping => simp [request?, hStage] at h
  | finished result => simp [request?, hStage] at h

namespace Manager

/-- The registry after a cycle of a name has moved to a phase. -/
def registryAfter (manager : Manager) (name : String) :
    Cycle.Phase → OrderedMap String Registration
  | .marked _ signal =>
    manager.registry.modify name fun registration =>
      { registration with state := .held, signal := some signal }
  | .cooling _ =>
    manager.registry.modify name fun registration =>
      { registration with state := .lost, signal := none }
  | .over => manager.registry.erase name
  | _ => manager.registry

/-- The signals after a cycle has moved from one phase to another. -/
def signalsAfter (manager : Manager) : Cycle.Phase → Cycle.Phase → Signals
  | .acquired _, _ => manager.signals.create.2
  | .marked _ signal, _ =>
    if manager.shutDown then manager.signals.cancel signal else manager.signals
  | .losing _ signal, _ => manager.signals.cancel signal
  | .stopping signal, _ => manager.signals.cancel signal
  | _, _ => manager.signals

/-- **A move of a cycle**, seen from its manager: the cycle is in its new phase, the
registry and the signals are as the move leaves them, and the rest is as it was. -/
structure Moves (manager next : Manager) (id : Nat) (cycle : Cycle) (moment : Moment)
    (stimulus : Stimulus) (moved : Cycle) : Prop where
  move : Cycle.Move manager cycle moment stimulus cycle.phase moved.phase
  name : moved.name = cycle.name
  interval : moved.interval = cycle.interval
  cycles : next.cycles = manager.cycles.set id moved
  options : next.options = manager.options
  shutDown : next.shutDown = manager.shutDown
  registry : next.registry = manager.registryAfter cycle.name moved.phase
  signals : next.signals = manager.signalsAfter cycle.phase moved.phase

variable {manager : Manager} {id : Nat} {cycle : Cycle} {moment : Moment}

/-- The end of an attempt is a move. -/
theorem exists_moves_of_concludeAttempt {attempt : Attempt} {result : Except LockError Outcome}
    (hPhase : cycle.phase = .attempting attempt) (hResult : attempt.result? = some result) :
    ∃ moved, manager.Moves (manager.concludeAttempt id cycle moment result).1 id cycle moment .turn
      moved := by
  obtain ⟨name, interval, backoff, phase⟩ := cycle
  obtain rfl : phase = .attempting attempt := hPhase
  unfold concludeAttempt
  split
  · next version =>
    exact ⟨⟨name, interval, backoff, .acquired version⟩, .win hResult, rfl, rfl, rfl, rfl, rfl, rfl,
      rfl⟩
  · next hOther =>
    have hMissed : ∀ version, result ≠ .ok (.acquired version) :=
      fun version hEq => hOther version hEq
    exact ⟨⟨name, interval, backoff.next, .waiting _⟩, .miss hResult hMissed, rfl, rfl, rfl, rfl,
      rfl, rfl, rfl⟩

theorem renewed_eq_true_iff {result : Except LockError Bool} :
    renewed result = true ↔ result = .ok true := by
  unfold renewed
  split
  · exact ⟨fun _ => rfl, fun _ => rfl⟩
  · next hOther => exact ⟨fun hTrue => absurd hTrue Bool.false_ne_true, fun hEq => absurd hEq hOther⟩

/-- The end of a renewal is a move. -/
theorem exists_moves_of_concludeRenewal {beat : Heartbeat} {renewal : Renewal} {signal : SignalId}
    {result : Except LockError Bool} (hPhase : cycle.phase = .renewing beat renewal signal)
    (hResult : renewal.result? = some result) :
    ∃ moved, manager.Moves (manager.concludeRenewal id cycle beat signal result).1 id cycle moment
      .turn moved := by
  obtain ⟨name, interval, backoff, phase⟩ := cycle
  obtain rfl : phase = .renewing beat renewal signal := hPhase
  unfold concludeRenewal
  split
  · next hRenewed =>
    obtain rfl := renewed_eq_true_iff.mp hRenewed
    exact ⟨⟨name, interval, backoff, .beating _ signal⟩, .recover hResult, rfl, rfl, rfl, rfl, rfl,
      rfl, rfl⟩
  · next hRenewed =>
    have hFailed : result ≠ .ok true := fun hEq => hRenewed (renewed_eq_true_iff.mpr hEq)
    split
    · next hFailures =>
      exact ⟨⟨name, interval, backoff, .losing _ signal⟩, .lose hResult hFailed hFailures, rfl, rfl,
        rfl, rfl, rfl, rfl, rfl⟩
    · next hFailures =>
      exact ⟨⟨name, interval, backoff, .beating _ signal⟩,
        .falter hResult hFailed (Nat.lt_of_not_le hFailures), rfl, rfl, rfl, rfl, rfl, rfl, rfl⟩

/-- A cycle that needs nothing moves by its turn. -/
theorem exists_moves_of_turn (hNeed : cycle.phase.need = .nothing) :
    ∃ moved, manager.Moves (manager.turn id cycle moment).1 id cycle moment .turn moved := by
  obtain ⟨name, interval, backoff, phase⟩ := cycle
  cases phase with
  | retrying =>
      cases hFlag : manager.shutDown with
      | true =>
          refine ⟨⟨name, interval, backoff, .leaving⟩, ?_⟩
          simp only [turn, hFlag, if_true]
          exact ⟨.quit hFlag, rfl, rfl, rfl, rfl, rfl, rfl, rfl⟩
      | false =>
          refine ⟨⟨name, interval, backoff,
            .attempting (.start (manager.claimant name) (manager.policy interval).lease)⟩, ?_⟩
          simp only [turn, hFlag, Bool.false_eq_true, if_false]
          exact ⟨.attempt hFlag, rfl, rfl, rfl, rfl, rfl, rfl, rfl⟩
  | attempting attempt =>
      have hEnded := attempt.request?_eq_none_iff.mp (Cycle.Need.ofRequest_eq_nothing hNeed)
      obtain ⟨result, hResult⟩ := Option.isSome_iff_exists.mp hEnded
      simp only [turn, hResult]
      exact exists_moves_of_concludeAttempt rfl hResult
  | acquired version =>
      exact ⟨⟨name, interval, backoff, .marked version _⟩, .mark version, rfl, rfl, rfl, rfl,
        rfl, rfl, rfl⟩
  | marked version signal =>
      refine ⟨⟨name, interval, backoff, .starting version signal⟩, .look version signal, rfl, rfl,
        ?_, ?_, ?_, ?_, ?_⟩ <;>
        · simp only [turn, lookAtFlag, setPhase, cancel, signalsAfter, registryAfter]
          split <;> rfl
  | starting version signal =>
      exact ⟨⟨name, interval, backoff, .beating _ signal⟩, .start version signal, rfl, rfl,
        rfl, rfl, rfl, rfl, rfl⟩
  | renewing beat renewal signal =>
      have hEnded := renewal.request?_eq_none_iff.mp (Cycle.Need.ofRequest_eq_nothing hNeed)
      obtain ⟨result, hResult⟩ := Option.isSome_iff_exists.mp hEnded
      simp only [turn, hResult]
      exact exists_moves_of_concludeRenewal rfl hResult
  | losing failures signal =>
      exact ⟨⟨name, interval, backoff, .demoting failures⟩, .cancel failures signal, rfl, rfl,
        rfl, rfl, rfl, rfl, rfl⟩
  | demoting failures =>
      exact ⟨⟨name, interval, backoff, .cooling _⟩, .demote failures, rfl, rfl, rfl, rfl, rfl,
        rfl, rfl⟩
  | departing =>
      exact ⟨⟨name, interval, backoff, .over⟩, .depart, rfl, rfl, rfl, rfl, rfl, rfl, rfl⟩
  | stopping signal =>
      exact ⟨⟨name, interval, backoff, .leaving⟩, .stop signal, rfl, rfl, rfl, rfl, rfl, rfl,
        rfl⟩
  | leaving =>
      exact ⟨⟨name, interval, backoff, .over⟩, .leave, rfl, rfl, rfl, rfl, rfl, rfl, rfl⟩
  | waiting due => cases hNeed
  | beating beat signal => cases hNeed
  | cooling due => cases hNeed
  | «over» => cases hNeed

/-- The turn of a cycle that needs something does nothing. -/
theorem turn_of_need (hNeed : cycle.phase.need ≠ .nothing) :
    manager.turn id cycle moment = (manager, []) := by
  obtain ⟨name, interval, backoff, phase⟩ := cycle
  cases phase with
  | attempting attempt =>
      cases hResult : attempt.result? with
      | none => simp only [turn, hResult]
      | some result =>
          have hRequest := attempt.request?_eq_none_iff.mpr (Option.isSome_of_eq_some hResult)
          exact absurd (congrArg Cycle.Need.ofRequest hRequest) hNeed
  | renewing beat renewal signal =>
      cases hResult : renewal.result? with
      | none => simp only [turn, hResult]
      | some result =>
          have hRequest := renewal.request?_eq_none_iff.mpr (Option.isSome_of_eq_some hResult)
          exact absurd (congrArg Cycle.Need.ofRequest hRequest) hNeed
  | waiting due => rfl
  | beating beat signal => rfl
  | cooling due => rfl
  | «over» => rfl
  | _ => exact absurd rfl hNeed

/-- Whatever a turn does is a move. -/
theorem turn_cases :
    (manager.turn id cycle moment).1 = manager ∨
      ∃ moved, manager.Moves (manager.turn id cycle moment).1 id cycle moment .turn moved := by
  by_cases hNeed : cycle.phase.need = .nothing
  · exact .inr (exists_moves_of_turn hNeed)
  · exact .inl (by rw [turn_of_need hNeed])

/-- A deadline moves a cycle that waits for a time. -/
theorem exists_moves_of_deadline {due : Nat} (hNeed : cycle.phase.need = .pause due) :
    ∃ moved, manager.Moves (manager.expire id cycle moment) id cycle moment .deadline moved := by
  obtain ⟨name, interval, backoff, phase⟩ := cycle
  rcases Cycle.Phase.pause_cases hNeed with rfl | ⟨beat, signal, rfl, -⟩ | rfl
  · exact ⟨⟨name, interval, backoff, .retrying⟩, .retry due, rfl, rfl, rfl, rfl, rfl, rfl, rfl⟩
  · exact ⟨⟨name, interval, backoff, .renewing _ _ signal⟩, .beat beat signal, rfl, rfl, rfl, rfl,
      rfl, rfl, rfl⟩
  · exact ⟨⟨name, interval, backoff, .departing⟩, .cool due, rfl, rfl, rfl, rfl, rfl, rfl, rfl⟩

/-- So does a shutdown. -/
theorem exists_moves_of_shutdown {due : Nat} (hNeed : cycle.phase.need = .pause due) :
    ∃ moved, manager.Moves (manager.interrupt id cycle) id cycle moment .shutdown moved := by
  obtain ⟨name, interval, backoff, phase⟩ := cycle
  rcases Cycle.Phase.pause_cases hNeed with rfl | ⟨beat, signal, rfl, -⟩ | rfl
  · exact ⟨⟨name, interval, backoff, .leaving⟩, .wakeWaiting due, rfl, rfl, rfl, rfl, rfl, rfl, rfl⟩
  · exact ⟨⟨name, interval, backoff, .stopping signal⟩, .wakeBeating beat signal, rfl, rfl, rfl,
      rfl, rfl, rfl, rfl⟩
  · exact ⟨⟨name, interval, backoff, .departing⟩, .wakeCooling due, rfl, rfl, rfl, rfl, rfl, rfl,
      rfl⟩

/-- A response moves the attempt that waits for it. -/
theorem moves_of_attempting {attempt : Attempt} (hCycle : manager.cycles[id]? = some cycle)
    (hPhase : cycle.phase = .attempting attempt) (moment : Moment) (response : Response) :
    manager.Moves (manager.step id moment (.response response)).1 id cycle moment
      (.response response) { cycle with phase := .attempting (attempt.resume response) } := by
  obtain ⟨name, interval, backoff, phase⟩ := cycle
  subst hPhase
  simp only [step, hCycle]
  exact ⟨.answer attempt response, rfl, rfl, rfl, rfl, rfl, rfl, rfl⟩

/-- A response moves the renewal that waits for it. -/
theorem moves_of_renewing {beat : Heartbeat} {renewal : Renewal} {signal : SignalId}
    (hCycle : manager.cycles[id]? = some cycle)
    (hPhase : cycle.phase = .renewing beat renewal signal) (moment : Moment)
    (response : Response) :
    manager.Moves (manager.step id moment (.response response)).1 id cycle moment
      (.response response)
      { cycle with phase := .renewing beat (renewal.resume response) signal } := by
  obtain ⟨name, interval, backoff, phase⟩ := cycle
  subst hPhase
  simp only [step, hCycle]
  exact ⟨.renew beat renewal signal response, rfl, rfl, rfl, rfl, rfl, rfl, rfl⟩

/-- **Whatever a step does is a move.** -/
theorem step_cases (stimulus : Stimulus) (hCycle : manager.cycles[id]? = some cycle) :
    (manager.step id moment stimulus).1 = manager ∨
      ∃ moved,
        manager.Moves (manager.step id moment stimulus).1 id cycle moment stimulus moved := by
  cases stimulus with
  | turn =>
      simp only [step, hCycle]
      exact turn_cases
  | response response =>
      cases hPhase : cycle.phase with
      | attempting attempt => exact .inr ⟨_, moves_of_attempting hCycle hPhase moment response⟩
      | renewing beat renewal signal =>
          exact .inr ⟨_, moves_of_renewing hCycle hPhase moment response⟩
      | _ => exact .inl (by simp only [step, hCycle, respond, hPhase])
  | deadline =>
      simp only [step, hCycle]
      cases hPhase : cycle.phase with
      | waiting due => exact .inr (exists_moves_of_deadline (by rw [hPhase]; rfl))
      | beating beat signal => exact .inr (exists_moves_of_deadline (by rw [hPhase]; rfl))
      | cooling due => exact .inr (exists_moves_of_deadline (by rw [hPhase]; rfl))
      | _ => exact .inl (by simp only [expire, hPhase])
  | shutdown =>
      simp only [step, hCycle]
      cases hPhase : cycle.phase with
      | waiting due => exact .inr (exists_moves_of_shutdown (by rw [hPhase]; rfl))
      | beating beat signal => exact .inr (exists_moves_of_shutdown (by rw [hPhase]; rfl))
      | cooling due => exact .inr (exists_moves_of_shutdown (by rw [hPhase]; rfl))
      | _ => exact .inl (by simp only [interrupt, hPhase])

end Manager
end Leasehold
