import Leasehold.Proofs.Manager.Lifecycle

/-!
# What is counted

A manager counts the attempts that get a lock and the leases that are lost, and it shows with
a gauge whether it holds a lock.  It does so in the turns of three phases, apart from the
registry, so that the counters and the registry are two accounts of the same locks.

* `Effect.total`, `Effect.reading`: a counter and a gauge after some effects.
* `Effect.Records`: what some effects count of a name.
* `Cycle.Phase.won`, `Cycle.Phase.lost`, `Cycle.Phase.light?`: what the turn of a cycle counts.
* `Manager.records_turn`: it counts nothing else.
* `Manager.driver?`: the cycle that drives a name.
* `Session.Books`: what an event adds to the counters of a name.
* `Session.Progress`: what an event is for a name; `Sound.progress` shows that there is nothing
  else.
-/

namespace Leasehold

/-! ## Counters and gauges -/

namespace Effect

/-- How often some effects count a metric. -/
def total (metric : Metric) : List Effect → Nat
  | [] => 0
  | .count other :: rest => (if other = metric then 1 else 0) + total metric rest
  | _ :: rest => total metric rest

/-- The values to which some effects set a metric, in their order. -/
def settings (metric : Metric) : List Effect → List Nat
  | [] => []
  | .gauge other value :: rest =>
    if other = metric then value :: settings metric rest else settings metric rest
  | _ :: rest => settings metric rest

/-- The value to which a metric was set last; one that was never set is zero. -/
def reading (metric : Metric) (effects : List Effect) : Nat :=
  (settings metric effects).getLast?.getD 0

theorem total_append (metric : Metric) (effects more : List Effect) :
    total metric (effects ++ more) = total metric effects + total metric more := by
  induction effects with
  | nil => exact (Nat.zero_add _).symm
  | cons effect rest ih =>
      cases effect with
      | count other => simp only [List.cons_append, total, ih, Nat.add_assoc]
      | _ => exact ih

theorem settings_append (metric : Metric) (effects more : List Effect) :
    settings metric (effects ++ more) = settings metric effects ++ settings metric more := by
  induction effects with
  | nil => rfl
  | cons effect rest ih =>
      cases effect with
      | gauge other value =>
          simp only [List.cons_append, settings, ih]
          split <;> rfl
      | _ => exact ih

theorem reading_append (metric : Metric) (effects more : List Effect) :
    reading metric (effects ++ more)
      = (settings metric more).getLast?.getD (reading metric effects) := by
  rw [reading, settings_append, List.getLast?_append]
  cases (settings metric more).getLast? <;> rfl

/-- **What some effects count of a name**: attempts that got the lock, lost leases, and the
gauge that shows whether it is held. -/
structure Records (name : String) (won lost : Nat) (light? : Option Nat) (effects : List Effect) :
    Prop where
  won : total (.attempts name "acquired") effects = won
  lost : total (.losses name) effects = lost
  light : settings (.held name) effects = light?.toList

/-- Entries of the log count nothing, -/
theorem records_of_logs {effects : List Effect}
    (h : ∀ effect ∈ effects, ∃ entry, effect = .log entry) (name : String) :
    Records name 0 0 none effects := by
  induction effects with
  | nil => exact ⟨rfl, rfl, rfl⟩
  | cons effect rest ih =>
      obtain ⟨entry, rfl⟩ := h effect List.mem_cons_self
      have hRest := ih fun other hOther => h other (List.mem_cons_of_mem _ hOther)
      exact ⟨hRest.won, hRest.lost, hRest.light⟩

/-- and change nothing of what is counted. -/
theorem Records.append {name : String} {won lost won' lost' : Nat} {light? : Option Nat}
    {effects more : List Effect} (h : Records name won lost light? effects)
    (hMore : Records name won' lost' none more) :
    Records name (won + won') (lost + lost') light? (effects ++ more) := by
  refine ⟨?_, ?_, ?_⟩
  · rw [total_append, h.won, hMore.won]
  · rw [total_append, h.lost, hMore.lost]
  · rw [settings_append, h.light, hMore.light]
    exact List.append_nil _

end Effect

/-! ## What a turn counts -/

namespace Cycle.Phase

/-- One for an attempt that has got the lock. -/
def wins : Option (Except LockError Outcome) → Nat
  | some (.ok (.acquired _)) => 1
  | _ => 0

theorem wins_eq_zero {result : Except LockError Outcome}
    (h : ∀ version, result ≠ .ok (.acquired version)) : wins (some result) = 0 := by
  unfold wins
  split
  · next version hEq => exact absurd (Option.some.inj hEq) (h version)
  · rfl

/-- The attempts that the turn of a cycle counts as having got the lock. -/
def won : Phase → Nat
  | .attempting attempt => wins attempt.result?
  | _ => 0

/-- The lost leases that it counts. -/
def lost : Phase → Nat
  | .demoting _ => 1
  | _ => 0

/-- What it sets the gauge of its lock to. -/
def light? : Phase → Option Nat
  | .starting _ _ => some 1
  | .losing _ _ => some 0
  | .stopping _ => some 0
  | _ => none

/-- What the gauge of its lock shows while a cycle is in a phase. -/
def light : Phase → Nat
  | .beating _ _ => 1
  | .renewing _ _ _ => 1
  | .losing _ _ => 1
  | .stopping _ => 1
  | _ => 0

/-- A cycle that needs something counts nothing. -/
theorem counts_nothing {phase : Phase} (h : phase.need ≠ .nothing) :
    phase.won = 0 ∧ phase.lost = 0 ∧ phase.light? = none := by
  cases phase with
  | attempting attempt =>
      refine ⟨?_, rfl, rfl⟩
      have hResult : attempt.result? = none := by
        refine Option.not_isSome_iff_eq_none.mp fun hEnded => h ?_
        rw [need, attempt.request?_eq_none_iff.mpr hEnded]
        rfl
      rw [won, hResult]
      rfl
  | demoting failures => exact absurd rfl h
  | starting version signal => exact absurd rfl h
  | losing failures signal => exact absurd rfl h
  | stopping signal => exact absurd rfl h
  | _ => exact ⟨rfl, rfl, rfl⟩

end Cycle.Phase

namespace Manager

/-- Attempts without success are counted under other names. -/
theorem records_missed {result : Except LockError Outcome}
    (h : ∀ version, result ≠ .ok (.acquired version)) (lock name : String) :
    Effect.Records name 0 0 none (missed lock result) := by
  rcases result with error | version | _ | _
  · constructor <;> simp [missed, entry, Effect.total, Effect.settings]
  · exact absurd rfl (h version)
  · constructor <;> simp [missed, entry, Effect.total, Effect.settings, Outcome.label]
  · constructor <;> simp [missed, entry, Effect.total, Effect.settings, Outcome.label]

theorem heartbeatRemarks_log (manager : Manager) (name : String) (failures : Nat)
    (result : Except LockError Bool) :
    ∀ effect ∈ manager.heartbeatRemarks name failures result, ∃ entry, effect = .log entry := by
  unfold heartbeatRemarks heartbeatEntry
  split
  · split <;> simp
  · simp
  · simp

/-- The end of an attempt that got the lock counts this attempt, -/
theorem records_acquired (manager : Manager) (id : Nat) (cycle : Cycle) (moment : Moment)
    (version : Int) (name : String) :
    Effect.Records name (if cycle.name = name then 1 else 0) 0 none
      (manager.concludeAttempt id cycle moment (.ok (.acquired version))).2 := by
  constructor <;> simp [concludeAttempt, Effect.total, Effect.settings, Outcome.label]

/-- and the end of any other attempt does not. -/
theorem records_retryLater {result : Except LockError Outcome}
    (h : ∀ version, result ≠ .ok (.acquired version)) (manager : Manager) (id : Nat)
    (cycle : Cycle) (moment : Moment) (name : String) :
    Effect.Records name 0 0 none (manager.concludeAttempt id cycle moment result).2 := by
  have hEnd : Effect.Records name 0 0 none (manager.retryLater id cycle moment result).2 :=
    (records_missed h cycle.name name).append (Effect.records_of_logs (by simp [entry]) name)
  unfold concludeAttempt
  split
  · exact absurd rfl (h _)
  · exact hEnd

/-- The end of a heartbeat counts the heartbeat only. -/
theorem records_concludeRenewal (manager : Manager) (id : Nat) (cycle : Cycle) (beat : Heartbeat)
    (signal : SignalId) (result : Except LockError Bool) (name : String) :
    Effect.Records name 0 0 none (manager.concludeRenewal id cycle beat signal result).2 := by
  have hRemarks := Effect.records_of_logs
    (manager.heartbeatRemarks_log cycle.name beat.failures result) name
  have hCount :
      Effect.Records name 0 0 none [.count (.heartbeats cycle.name (renewed result))] := by
    constructor <;> simp [Effect.total, Effect.settings]
  have hBoth := hRemarks.append hCount
  unfold concludeRenewal
  split
  · exact hBoth
  · split
    · exact hBoth
    · exact hBoth

/-- The loss of a lease is counted once. -/
theorem records_demote (manager : Manager) (id : Nat) (cycle : Cycle) (moment : Moment)
    (failures : Nat) (name : String) :
    Effect.Records name 0 (if cycle.name = name then 1 else 0) none
      (manager.demote id cycle moment failures).2 := by
  have hEntries : ∀ entries : List Log.Entry, Effect.Records name 0 0 none (entries.map .log) :=
    fun entries => Effect.records_of_logs (by simp) name
  obtain ⟨hWon, hLost, hLight⟩ := hEntries
    (manager.outbox.publish ⟨cycle.name, manager.options.identity, failures⟩).2
  constructor
  · simpa [demote, Effect.total, entry] using hWon
  · simp [demote, Effect.total, entry, hLost]
  · simpa [demote, Effect.settings, entry] using hLight

/-- **The turn of a cycle counts what its phase says**, under the name of the cycle. -/
theorem records_turn (manager : Manager) (id : Nat) (cycle : Cycle) (moment : Moment)
    (name : String) :
    Effect.Records name (if cycle.name = name then cycle.phase.won else 0)
      (if cycle.name = name then cycle.phase.lost else 0)
      (if cycle.name = name then cycle.phase.light? else none)
      (manager.turn id cycle moment).2 := by
  cases hPhase : cycle.phase with
  | attempting attempt =>
      simp only [turn, hPhase, Cycle.Phase.won, Cycle.Phase.lost, Cycle.Phase.light?, ite_self]
      cases hResult : attempt.result? with
      | none =>
          simp only [Cycle.Phase.wins, ite_self]
          exact Effect.records_of_logs (by simp) name
      | some result =>
          by_cases hWon : ∃ version, result = .ok (.acquired version)
          · obtain ⟨version, rfl⟩ := hWon
            exact manager.records_acquired id cycle moment version name
          · have hMissed : ∀ version, result ≠ .ok (.acquired version) :=
              fun version hEq => hWon ⟨version, hEq⟩
            simp only [Cycle.Phase.wins_eq_zero hMissed, ite_self]
            exact records_retryLater hMissed manager id cycle moment name
  | renewing beat renewal signal =>
      simp only [turn, hPhase, Cycle.Phase.won, Cycle.Phase.lost, Cycle.Phase.light?, ite_self]
      split
      · exact manager.records_concludeRenewal id _ beat signal _ name
      · exact Effect.records_of_logs (by simp) name
  | demoting failures =>
      simp only [turn, hPhase, Cycle.Phase.won, Cycle.Phase.lost, Cycle.Phase.light?, ite_self]
      exact manager.records_demote id _ moment failures name
  | starting version signal =>
      simp only [turn, hPhase, Cycle.Phase.won, Cycle.Phase.lost, Cycle.Phase.light?, ite_self]
      constructor <;> by_cases hName : cycle.name = name <;>
        simp [startJob, entry, Effect.total, Effect.settings, hName]
  | losing failures signal =>
      simp only [turn, hPhase, Cycle.Phase.won, Cycle.Phase.lost, Cycle.Phase.light?, ite_self]
      constructor <;> by_cases hName : cycle.name = name <;>
        simp [Effect.total, Effect.settings, hName]
  | stopping signal =>
      simp only [turn, hPhase, Cycle.Phase.won, Cycle.Phase.lost, Cycle.Phase.light?, ite_self]
      constructor <;> by_cases hName : cycle.name = name <;>
        simp [entry, Effect.total, Effect.settings, hName]
  | retrying =>
      simp only [turn, hPhase, Cycle.Phase.won, Cycle.Phase.lost, Cycle.Phase.light?, ite_self]
      split
      · exact Effect.records_of_logs (by simp) name
      · exact Effect.records_of_logs (by simp) name
  | _ =>
      simp only [turn, hPhase, Cycle.Phase.won, Cycle.Phase.lost, Cycle.Phase.light?, ite_self]
      exact Effect.records_of_logs (by simp [entry]) name

/-- Other moves count nothing. -/
theorem records_step {stimulus : Stimulus} (h : stimulus ≠ .turn) (manager : Manager) (id : Nat)
    (moment : Moment) (name : String) :
    Effect.Records name 0 0 none (manager.step id moment stimulus).2 := by
  refine Effect.records_of_logs ?_ name
  unfold step
  cases manager.cycles[id]? with
  | none => simp
  | some cycle =>
      cases stimulus with
      | turn => exact absurd rfl h
      | response response =>
          simp only [respond]
          split
          · split <;> simp
          · simp
          · simp
      | deadline => simp
      | shutdown => simp
end Manager

/-! ## The cycle of a name -/

namespace Manager

/-- The cycle that drives a name. -/
def driver? (manager : Manager) (name : String) : Option Cycle :=
  manager.cycles.find? fun cycle => decide (cycle.name = name) && cycle.phase.isLive

theorem exists_of_driver? {manager : Manager} {name : String} {cycle : Cycle}
    (h : manager.driver? name = some cycle) :
    ∃ id : Nat, manager.cycles[id]? = some cycle ∧ cycle.name = name ∧
      cycle.phase.isLive = true := by
  obtain ⟨id, hCycle⟩ := List.mem_iff_getElem?.mp (List.mem_of_find?_eq_some h)
  have hDrives := List.find?_some h
  simp only [Bool.and_eq_true, decide_eq_true_eq] at hDrives
  exact ⟨id, hCycle, hDrives.1, hDrives.2⟩

/-- A cycle that is not over is the one that drives its name. -/
theorem Coherent.driver?_eq_some {manager : Manager} (h : manager.Coherent) {id : Nat}
    {cycle : Cycle} (hCycle : manager.cycles[id]? = some cycle)
    (hLive : cycle.phase.isLive = true) : manager.driver? cycle.name = some cycle := by
  cases hDriver : manager.driver? cycle.name with
  | some rival =>
      obtain ⟨other, hRival, hName, hRivalLive⟩ := exists_of_driver? hDriver
      obtain rfl := h.unique other id rival cycle hRival hCycle hName hRivalLive hLive
      exact hRival.symm.trans hCycle
  | none =>
      have hNone := List.find?_eq_none.mp hDriver cycle (List.mem_of_getElem? hCycle)
      simp [hLive] at hNone

/-- A name that is not registered has no cycle. -/
theorem Coherent.driver?_eq_none {manager : Manager} (h : manager.Coherent) {name : String}
    (hFree : manager.registry.get? name = none) : manager.driver? name = none := by
  cases hDriver : manager.driver? name with
  | none => rfl
  | some cycle =>
      obtain ⟨id, hCycle, rfl, hLive⟩ := exists_of_driver? hDriver
      obtain ⟨registration, hGet, -⟩ := h.shown id cycle hCycle hLive
      rw [hFree] at hGet
      cases hGet

/-- A move leaves the cycles of other names as they are. -/
theorem Moves.getElem?_iff_of_ne {manager next : Manager} {id : Nat} {cycle moved : Cycle}
    {moment : Moment} {stimulus : Stimulus}
    (h : manager.Moves next id cycle moment stimulus moved)
    (hCycle : manager.cycles[id]? = some cycle) {other : Nat} {rival : Cycle}
    (hName : rival.name ≠ cycle.name) :
    next.cycles[other]? = some rival ↔ manager.cycles[other]? = some rival := by
  obtain ⟨hBound, -⟩ := List.getElem?_eq_some_iff.mp hCycle
  rw [h.cycles]
  by_cases hId : id = other
  · subst hId
    rw [List.getElem?_set_self hBound, hCycle]
    constructor
    · intro hEq
      exact absurd (Option.some.inj hEq ▸ h.name) hName
    · intro hEq
      exact absurd (Option.some.inj hEq ▸ rfl) hName
  · rw [List.getElem?_set_ne hId]

/-- So does a registration of another name. -/
theorem getElem?_accept_iff_of_ne (manager : Manager) {name : String} (interval : IntervalClass)
    {id : Nat} {cycle : Cycle} (hName : cycle.name ≠ name) :
    (manager.accept name interval).cycles[id]? = some cycle ↔
      manager.cycles[id]? = some cycle := by
  constructor
  · intro hCycle
    rcases getElem?_concat_cases hCycle with hOld | ⟨-, rfl⟩
    · exact hOld
    · exact absurd rfl hName
  · intro hCycle
    obtain ⟨hBound, -⟩ := List.getElem?_eq_some_iff.mp hCycle
    exact (List.getElem?_append_left hBound).trans hCycle

/-- Cycles of a name that stay as they are drive it as before. -/
theorem Coherent.driver?_eq {manager next : Manager} (h : manager.Coherent) (hNext : next.Coherent)
    {name : String} (hCycles : ∀ (id : Nat) (cycle : Cycle), cycle.name = name →
      (next.cycles[id]? = some cycle ↔ manager.cycles[id]? = some cycle)) :
    next.driver? name = manager.driver? name := by
  cases hDriver : manager.driver? name with
  | some cycle =>
      obtain ⟨id, hCycle, rfl, hLive⟩ := exists_of_driver? hDriver
      exact hNext.driver?_eq_some ((hCycles id cycle rfl).mpr hCycle) hLive
  | none =>
      cases hLater : next.driver? name with
      | none => rfl
      | some cycle =>
          obtain ⟨id, hCycle, rfl, hLive⟩ := exists_of_driver? hLater
          rw [h.driver?_eq_some ((hCycles id cycle rfl).mp hCycle) hLive] at hDriver
          cases hDriver

end Manager

/-- A cycle that gets anything but its turn needed it. -/
theorem Stimulus.need_ne_of_suits {now : Nat} {flag : Bool} {stimulus : Stimulus}
    {need : Cycle.Need} (h : stimulus.suits now flag need = true) (hTurn : stimulus ≠ .turn) :
    need ≠ .nothing := by
  rintro rfl
  cases stimulus with
  | turn => exact hTurn rfl
  | response response => cases response <;> cases h
  | deadline => cases h
  | shutdown => cases h

namespace Session

/-! ## What an event is for a name -/

/-- **What an event adds to the counters of a name.** -/
structure Books (session next : Session) (name : String) (won lost : Nat) (light? : Option Nat) :
    Prop where
  won : Effect.total (.attempts name "acquired") next.effects
    = Effect.total (.attempts name "acquired") session.effects + won
  lost : Effect.total (.losses name) next.effects
    = Effect.total (.losses name) session.effects + lost
  light : Effect.reading (.held name) next.effects
    = light?.getD (Effect.reading (.held name) session.effects)

variable {session next : Session} {event : Event}

theorem books_of_records {name : String} {won lost : Nat} {light? : Option Nat}
    {more : List Effect} (h : Effect.Records name won lost light? more)
    (hEffects : next.effects = session.effects ++ more) :
    Books session next name won lost light? := by
  refine ⟨?_, ?_, ?_⟩
  · rw [hEffects, Effect.total_append, h.won]
  · rw [hEffects, Effect.total_append, h.lost]
  · rw [hEffects, Effect.reading_append, h.light]
    cases light? <;> rfl

theorem books_of_logs {entries : List Log.Entry}
    (hEffects : next.effects = session.effects ++ entries.map .log) (name : String) :
    Books session next name 0 0 none :=
  books_of_records (Effect.records_of_logs (by simp) name) hEffects

/-- An event that moves no cycle only writes to the log. -/
theorem exists_logs_of_step? (h : session.step? event = some next)
    (hEvent : ∀ id draw stimulus, event ≠ .move id draw stimulus) :
    ∃ entries : List Log.Entry, next.effects = session.effects ++ entries.map .log := by
  have hSame : next.effects = session.effects →
      ∃ entries : List Log.Entry, next.effects = session.effects ++ entries.map .log :=
    fun hEffects => ⟨[], by rw [hEffects, List.map_nil, List.append_nil]⟩
  cases event with
  | enter name interval =>
      simp only [step?] at h
      split at h
      · exact hSame (by rw [← Option.some.inj h])
      · exact hSame (by rw [← Option.some.inj h])
  | enroll k =>
      obtain ⟨⟨name, interval⟩, -, rfl⟩ := Option.map_eq_some_iff.mp h
      cases hTaken : session.manager.registry.contains name with
      | true =>
          obtain ⟨entry, hEnroll⟩ := Manager.exists_enroll_of_contains hTaken interval
          exact ⟨[entry], by simp only [enrolled, hEnroll, List.map_cons, List.map_nil]⟩
      | false =>
          obtain ⟨entry, hEnroll⟩ := Manager.exists_enroll_of_free hTaken interval
          exact ⟨[entry], by simp only [enrolled, hEnroll, List.map_cons, List.map_nil]⟩
  | raiseFlag =>
      simp only [step?] at h
      split at h
      · cases h
      · next hFlag =>
        refine ⟨[⟨.info, "clusterlock_core::manager", "Shutting down lock manager",
          [("owner", session.manager.options.identity)]⟩], ?_⟩
        rw [← Option.some.inj h]
        simp [Manager.shutdown, hFlag, Manager.entry]
  | cancelOne signal =>
      simp only [step?] at h
      split at h
      · exact hSame (by rw [← Option.some.inj h])
      · cases h
  | cancelRegistered =>
      simp only [step?] at h
      split at h
      · exact hSame (by rw [← Option.some.inj h])
      · cases h
  | move id draw stimulus => exact absurd rfl (hEvent id draw stimulus)
  | pass nanos => exact hSame (by rw [← Option.some.inj h])
  | receive => exact hSame (by rw [← Option.some.inj h])
  | dropReceiver => exact ⟨session.manager.outbox.drop.2, by rw [← Option.some.inj h]⟩

/-- **A move counts what the phase of its cycle says**, under the name of the cycle. -/
theorem books_of_move {id draw : Nat} {stimulus : Stimulus} {cycle : Cycle}
    (h : session.step? (.move id draw stimulus) = some next)
    (hCycle : session.manager.cycles[id]? = some cycle) (name : String) :
    Books session next name (if cycle.name = name then cycle.phase.won else 0)
      (if cycle.name = name then cycle.phase.lost else 0)
      (if cycle.name = name then cycle.phase.light? else none) := by
  obtain ⟨found, hFound, hSuits, rfl⟩ := exists_of_move h
  obtain rfl : cycle = found := Option.some.inj (hCycle.symm.trans hFound)
  refine books_of_records ?_ rfl
  by_cases hTurn : stimulus = .turn
  · subst hTurn
    simp only [Manager.step, hCycle]
    exact session.manager.records_turn id cycle ⟨session.now, draw⟩ name
  · have hNeed := Stimulus.need_ne_of_suits hSuits hTurn
    obtain ⟨hWon, hLost, hLight⟩ := Cycle.Phase.counts_nothing hNeed
    simp only [hWon, hLost, hLight, ite_self]
    exact Manager.records_step hTurn session.manager id ⟨session.now, draw⟩ name

/-- **What an event is for a name**: nothing, its registration, or a move of the cycle that
drives it. -/
inductive Progress (session next : Session) (event : Event) (name : String) : Prop where
  | idle (hState : next.manager.state name = session.manager.state name)
      (hDriver : next.manager.driver? name = session.manager.driver? name)
      (hBooks : Books session next name 0 0 none)
  | registered {begun : Cycle} (hState : session.manager.state name = .unregistered)
      (hDriver : session.manager.driver? name = none)
      (hNextState : next.manager.state name = .acquiring)
      (hNextDriver : next.manager.driver? name = some begun) (hBegun : begun.phase = .retrying)
      (hBooks : Books session next name 0 0 none)
  | moved {id draw : Nat} {stimulus : Stimulus} {cycle moved : Cycle}
      {registration : Registration} (hEvent : event = .move id draw stimulus)
      (hCycle : session.manager.cycles[id]? = some cycle) (hName : cycle.name = name)
      (hSuits : stimulus.suits session.now session.manager.shutDown cycle.phase.need = true)
      (hMoves : session.manager.Moves next.manager id cycle ⟨session.now, draw⟩ stimulus moved)
      (hState : session.manager.state name = registration.state)
      (hShows : cycle.phase.Shows session.manager.signals registration)
      (hDriver : session.manager.driver? name = some cycle)
      (hNextState : next.manager.state name
        = if moved.phase.isLive then (registration.after moved.phase).state else .unregistered)
      (hNextDriver : next.manager.driver? name
        = if moved.phase.isLive then some moved else none)
      (hBooks : Books session next name cycle.phase.won cycle.phase.lost cycle.phase.light?)

/-- The move of a cycle is something for its name and nothing for the other names. -/
theorem Sound.progress_of_move (h : session.Sound) {id draw : Nat} {stimulus : Stimulus}
    (hStep : session.step? (.move id draw stimulus) = some next) (name : String) :
    Progress session next (.move id draw stimulus) name := by
  have hNext := (h.step hStep).coherent
  obtain ⟨cycle, moved, hCycle, hSuits, hMoves, rfl⟩ := exists_moves_of_move hStep
  have hBooks := books_of_move hStep hCycle name
  obtain ⟨hBound, -⟩ := List.getElem?_eq_some_iff.mp hCycle
  by_cases hName : cycle.name = name
  · subst hName
    have hLive := hMoves.move.isLive
    obtain ⟨registration, hGet, hShows⟩ := h.coherent.shown id cycle hCycle hLive
    simp only [if_true] at hBooks
    refine .moved rfl hCycle rfl hSuits hMoves (Manager.state_of_get? hGet) hShows
      (h.coherent.driver?_eq_some hCycle hLive) (hMoves.state_eq hGet) ?_ hBooks
    cases hStill : moved.phase.isLive with
    | true =>
        have hLater : (session.stepped id draw stimulus).manager.cycles[id]? = some moved := by
          rw [hMoves.cycles]
          exact List.getElem?_set_self hBound
        rw [← hMoves.name]
        exact hNext.driver?_eq_some hLater hStill
    | false =>
        refine hNext.driver?_eq_none ?_
        rw [hMoves.registry]
        exact session.manager.get?_registryAfter_of_over _ hStill
  · simp only [hName, if_false] at hBooks
    refine .idle (Manager.state_of_registry_eq ?_) (h.coherent.driver?_eq hNext ?_) hBooks
    · rw [hMoves.registry]
      exact session.manager.get?_registryAfter_of_ne _ (Ne.symm hName)
    · intro other rival hRival
      exact hMoves.getElem?_iff_of_ne hCycle fun hEq => hName (hEq.symm.trans hRival)

/-- An accepted registration begins a cycle for its name and nothing for the other names. -/
theorem Sound.progress_of_accepted (h : session.Sound) (hNext : next.manager.Coherent)
    {other : String} {interval : IntervalClass}
    (hFree : session.manager.registry.get? other = none)
    (hManager : next.manager = session.manager.accept other interval) {name : String}
    (hBooks : Books session next name 0 0 none) : Progress session next event name := by
  by_cases hName : other = name
  · subst hName
    have hGet : next.manager.registry.get? other = some ⟨interval, .acquiring, none⟩ := by
      rw [hManager]
      exact OrderedMap.get?_insert_self _ _ _
    have hBegun : next.manager.cycles[session.manager.cycles.length]?
        = some (.start other interval session.manager.options.retry
            (session.manager.policy interval).lease) := by
      rw [hManager]
      exact List.getElem?_concat_length
    exact .registered (Manager.state_of_get?_eq_none hFree)
      (h.coherent.driver?_eq_none hFree) (Manager.state_of_get? hGet)
      (hNext.driver?_eq_some hBegun rfl) rfl hBooks
  · refine .idle (Manager.state_of_registry_eq ?_) (h.coherent.driver?_eq hNext ?_) hBooks
    · rw [hManager]
      exact OrderedMap.get?_insert_of_ne _ _ (Ne.symm hName)
    · intro id cycle hCycle
      rw [hManager]
      exact session.manager.getElem?_accept_iff_of_ne interval
        fun hEq => hName (hEq.symm.trans hCycle)

/-- **Every event is one of these for every name.** -/
theorem Sound.progress (h : session.Sound) (hStep : session.step? event = some next)
    (name : String) : Progress session next event name := by
  by_cases hMove : ∃ id draw stimulus, event = .move id draw stimulus
  · obtain ⟨id, draw, stimulus, rfl⟩ := hMove
    exact h.progress_of_move hStep name
  · have hEvent : ∀ id draw stimulus, event ≠ .move id draw stimulus :=
      fun id draw stimulus hEq => hMove ⟨id, draw, stimulus, hEq⟩
    obtain ⟨logs, hEffects⟩ := exists_logs_of_step? hStep hEvent
    have hBooks : Books session next name 0 0 none := books_of_logs hEffects name
    -- An event that leaves the registry and the cycles alone is nothing for a name.
    have hIdle : next.manager.registry = session.manager.registry →
        next.manager.cycles = session.manager.cycles → Progress session next event name := by
      intro hRegistry hCycles
      refine .idle (Manager.state_of_registry_eq (by rw [hRegistry])) ?_ hBooks
      rw [Manager.driver?, hCycles, Manager.driver?]
    cases change_of_step? hStep with
    | kept hSame => exact hIdle hSame.registry hSame.cycles
    | raised hRaise hFlag hManager => exact hIdle (by rw [hManager]; rfl) (by rw [hManager]; rfl)
    | walked hFlag hManager => exact hIdle (by rw [hManager]; rfl) (by rw [hManager]; rfl)
    | moved hMoved hCycle hSuits hMoves => exact absurd hMoved (hEvent _ _ _)
    | accepted hEnroll hCall hFree hManager =>
        exact h.progress_of_accepted (h.step hStep).coherent hFree hManager hBooks

end Session
end Leasehold
