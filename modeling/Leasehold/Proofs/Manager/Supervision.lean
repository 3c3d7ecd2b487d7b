import Leasehold.Number.Word
import Leasehold.Proofs.Manager.FailureRow
import Leasehold.Proofs.Manager.Punctual

/-!
# Supervision of a held lock

From the start of its job a task renews its lock every heartbeat period.  It gives the lease up
when too many renewals in a row have failed, and it stops when the manager is shut down.  Counting
failures and starting the count again comes to looking at the last renewals only: the lease is
lost after the first renewal that ends a row of failures as long as the options allow.

* `Watch`: what is seen of a supervised task in a run; `Session.watch` collects it.
* `Watch.Stands`: the invariant of runs, by the phase of the task.
* `Watch.Exact`: the account of a run; `Session.supervision_exact` shows it for every run on time,
  and that the renewals may turn out in every way.
-/

namespace Leasehold

/-! ## What is seen of a supervised task -/

/-- How the supervision of a task ends. -/
inductive SupervisionEnd where
  | leaseLost (failures : Nat)
  | shutDown
  deriving Repr, DecidableEq

/-- What is seen of a supervised task: when its renewals began, their results, when and how the
supervision ended, and since when the flag of a shutdown is raised. -/
structure Watch where
  begun : List Nat
  results : List (Except LockError Bool)
  ends : List (Nat × SupervisionEnd)
  flagged? : Option Nat

namespace Watch

/-- What a move of the task from one phase to another shows. -/
def note (watch : Watch) (now : Nat) : Cycle.Phase → Cycle.Phase → Watch
  | .beating _ _, .renewing _ _ _ => { watch with begun := watch.begun ++ [now] }
  | .renewing _ renewal _, .beating _ _ =>
    { watch with results := watch.results ++ renewal.result?.toList }
  | .renewing _ renewal _, .losing failures _ =>
    { watch with
      results := watch.results ++ renewal.result?.toList
      ends := watch.ends ++ [(now, .leaseLost failures)] }
  | .beating _ _, .stopping _ => { watch with ends := watch.ends ++ [(now, .shutDown)] }
  | _, _ => watch

/-- A look at the flag. -/
def look (watch : Watch) (now : Nat) (flag : Bool) : Watch :=
  { watch with flagged? := watch.flagged?.or (if flag then some now else none) }

/-- What an event of a session shows of a task. -/
def seen (watch : Watch) (id : Nat) (before after : Session) : Watch :=
  let noted :=
    match before.manager.cycles[id]?, after.manager.cycles[id]? with
    | some cycle, some moved => watch.note before.now cycle.phase moved.phase
    | _, _ => watch
  noted.look after.now after.manager.shutDown

theorem note_flagged? (watch : Watch) (now : Nat) (phase phase' : Cycle.Phase) :
    (watch.note now phase phase').flagged? = watch.flagged? := by
  unfold note
  split <;> rfl

/-- A task that stays where it is shows nothing. -/
theorem note_self (watch : Watch) (now : Nat) (phase : Cycle.Phase) :
    watch.note now phase phase = watch := by
  cases phase <;> rfl

theorem seen_eq {watch : Watch} {id : Nat} {before after : Session} {cycle moved : Cycle}
    (hBefore : before.manager.cycles[id]? = some cycle)
    (hAfter : after.manager.cycles[id]? = some moved) :
    watch.seen id before after
      = (watch.note before.now cycle.phase moved.phase).look after.now after.manager.shutDown := by
  rw [seen, hBefore, hAfter]

/-- Whether the flag was seen raised is whether it is raised. -/
theorem isSome_flagged?_look {watch : Watch} {flag later : Bool}
    (h : watch.flagged?.isSome = flag) (hStays : flag = true → later = true) (now : Nat) :
    (watch.look now later).flagged?.isSome = later := by
  unfold look
  cases later with
  | true => simp
  | false =>
      have hDown : flag = false := Bool.eq_false_iff.mpr fun hUp => by cases hStays hUp
      simp [h, hDown]

end Watch

namespace Session

/-- What a run on time shows of a task. -/
def watch (start : Session) (id : Nat) (events : List Event) : Watch :=
  (trace (stepOnTime? id) start events).foldl
    (fun watch (before, _, after) => watch.seen id before after)
    ⟨[], [], [], if start.manager.shutDown then some start.now else none⟩

theorem watch_snoc {start before after : Session} {id : Nat} {events : List Event} {event : Event}
    (hRun : start.runOnTime? id events = some before)
    (hStep : stepOnTime? id before event = some after) :
    start.watch id (events ++ [event]) = (start.watch id events).seen id before after := by
  rw [watch, trace_snoc hRun hStep, List.foldl_append]
  rfl

end Session

/-! ## The invariant of a supervised task -/

/-- The times of the first renewals after a start. -/
def beats (start period n : Nat) : List Nat :=
  (List.range n).map fun k => start + (k + 1) * period

theorem beats_succ (start period n : Nat) :
    beats start period (n + 1) = beats start period n ++ [start + (n + 1) * period] := by
  rw [beats, List.range_succ, List.map_append]
  rfl

@[simp]
theorem length_beats (start period n : Nat) : (beats start period n).length = n := by
  simp [beats]

namespace Cycle

/-- Whether the supervision of a task has ended. -/
def Phase.isDismissed : Phase → Bool
  | .losing _ _ | .demoting _ | .cooling _ | .departing | .stopping _ | .leaving | .over => true
  | _ => false

/-- A task is not supervised again. -/
theorem Move.isDismissed {manager : Manager} {cycle : Cycle} {moment : Moment}
    {stimulus : Stimulus} {phase phase' : Phase}
    (h : Move manager cycle moment stimulus phase phase') (hPhase : phase.isDismissed = true) :
    phase'.isDismissed = true := by
  cases h <;> first | rfl | cases hPhase

end Cycle

namespace Watch

/-- A task that is not supervised any more shows nothing. -/
theorem note_of_isDismissed (watch : Watch) (now : Nat) {phase : Cycle.Phase}
    (h : phase.isDismissed = true) (phase' : Cycle.Phase) :
    watch.note now phase phase' = watch := by
  cases phase <;> first | rfl | cases h

/-- **The invariant of a supervised task.**  Between two renewals the next is due one period after
the last was; the failures counted are those in a row, and they are not too many yet.  A raised
flag is seen before any time passes.  After the end it is known which of the two ends it was. -/
inductive Stands (watch : Watch) (start period limit now : Nat) : Cycle.Phase → Prop where
  | beating {beat : Heartbeat} {signal : SignalId}
      (hBegun : watch.begun = beats start period watch.results.length)
      (hFailures : beat.failures = streak watch.results) (hFewer : beat.failures < limit)
      (hNever : NeverLost limit watch.results)
      (hDue : beat.due = start + (watch.results.length + 1) * period)
      (hEarly : start + watch.results.length * period ≤ now) (hLate : now ≤ beat.due)
      (hEnds : watch.ends = []) (hFlag : ∀ time ∈ watch.flagged?, time = now) :
      Stands watch start period limit now (.beating beat signal)
  | renewing {beat : Heartbeat} {renewal : Renewal} {signal : SignalId}
      (hBegun : watch.begun = beats start period (watch.results.length + 1))
      (hFailures : beat.failures = streak watch.results) (hFewer : beat.failures < limit)
      (hNever : NeverLost limit watch.results) (hDue : beat.due = now + period)
      (hNow : now = start + (watch.results.length + 1) * period)
      (hEnds : watch.ends = []) (hFlag : ∀ time ∈ watch.flagged?, time = now) :
      Stands watch start period limit now (.renewing beat renewal signal)
  | lost {phase : Cycle.Phase} (hPhase : phase.isDismissed = true)
      (hBegun : watch.begun = beats start period watch.results.length)
      (hLeast : IsLeast {n | LostAfter limit (fun k => watch.results[k]?) n} watch.results.length)
      (hEnds : watch.ends = [(start + watch.results.length * period, .leaseLost limit)])
      (hNow : start + watch.results.length * period ≤ now)
      (hFlag : ∀ time ∈ watch.flagged?, start + watch.results.length * period ≤ time) :
      Stands watch start period limit now phase
  | stopped {phase : Cycle.Phase} {time : Nat} (hPhase : phase.isDismissed = true)
      (hBegun : watch.begun = beats start period watch.results.length)
      (hNever : NeverLost limit watch.results) (hEnds : watch.ends = [(time, .shutDown)])
      (hFlag : watch.flagged? = some time)
      (hEarly : start + watch.results.length * period ≤ time)
      (hLate : time ≤ start + (watch.results.length + 1) * period) :
      Stands watch start period limit now phase

namespace Stands

variable {watch : Watch} {start limit now : Nat} {phase : Cycle.Phase}

/-- A look at the flag finds it raised now or as it was. -/
theorem look {period : Nat} (h : watch.Stands start period limit now phase) (flag : Bool) :
    (watch.look now flag).Stands start period limit now phase := by
  have hFlagged : ∀ time ∈ (watch.look now flag).flagged?, time ∈ watch.flagged? ∨ time = now := by
    intro time hTime
    rcases Option.or_eq_some_iff.mp hTime with hOld | ⟨-, hNew⟩
    · exact .inl hOld
    · cases flag with
      | true => exact .inr (Option.some.inj hNew).symm
      | false => cases hNew
  cases h with
  | beating hBegun hFailures hFewer hNever hDue hEarly hLate hEnds hFlag =>
      exact .beating hBegun hFailures hFewer hNever hDue hEarly hLate hEnds
        fun time hTime => (hFlagged time hTime).elim (hFlag time) id
  | renewing hBegun hFailures hFewer hNever hDue hNow hEnds hFlag =>
      exact .renewing hBegun hFailures hFewer hNever hDue hNow hEnds
        fun time hTime => (hFlagged time hTime).elim (hFlag time) id
  | lost hPhase hBegun hLeast hEnds hNow hFlag =>
      refine .lost hPhase hBegun hLeast hEnds hNow fun time hTime => ?_
      rcases hFlagged time hTime with hOld | rfl
      · exact hFlag time hOld
      · exact hNow
  | stopped hPhase hBegun hNever hEnds hFlag hEarly hLate =>
      refine .stopped hPhase hBegun hNever hEnds ?_ hEarly hLate
      rw [Watch.look, hFlag]
      rfl

/-- Time passes up to the next renewal, and not at all once the flag is raised. -/
theorem pass {period nanos : Nat} (h : watch.Stands start period limit now phase)
    (hRests : phase.need = .finished ∨ ∃ due, phase.need = .pause due ∧
      watch.flagged? = none ∧ now + nanos ≤ due) :
    watch.Stands start period limit (now + nanos) phase := by
  cases h with
  | beating hBegun hFailures hFewer hNever hDue hEarly hLate hEnds hFlag =>
      rcases hRests with hOver | ⟨due, hNeed, hDown, hSoon⟩
      · cases hOver
      · obtain rfl := Cycle.Need.pause.inj hNeed
        refine .beating hBegun hFailures hFewer hNever hDue (by omega) hSoon hEnds ?_
        rw [hDown]
        exact fun time hTime => nomatch hTime
  | renewing =>
      rcases hRests with hOver | ⟨due, hNeed, -⟩
      · exact absurd hOver (Cycle.Need.ofRequest_ne_finished _)
      · exact absurd hNeed (Cycle.Need.ofRequest_ne_pause _ _)
  | lost hPhase hBegun hLeast hEnds hNow hFlag =>
      exact .lost hPhase hBegun hLeast hEnds (by omega) hFlag
  | stopped hPhase hBegun hNever hEnds hFlag hEarly hLate =>
      exact .stopped hPhase hBegun hNever hEnds hFlag hEarly hLate

/-- The result of a renewal is seen when the task goes on from it. -/
theorem results_note {renewal : Renewal} {result : Except LockError Bool}
    (hResult : renewal.result? = some result) (watch : Watch) (now : Nat)
    (beat next : Heartbeat) (signal other : SignalId) :
    (watch.note now (.renewing beat renewal signal) (.beating next other)).results
      = watch.results ++ [result] := by
  rw [note, hResult]
  rfl

/-- After a renewal that is not the last one the schedule goes on, with the failures counted that
are now in a row. -/
theorem goesOn {period : Nat} {beat next : Heartbeat} {renewal : Renewal} {signal : SignalId}
    {result : Except LockError Bool}
    (h : watch.Stands start period limit now (.renewing beat renewal signal))
    (hResult : renewal.result? = some result) (hLimit : 0 < limit) (hDue : next.due = beat.due)
    (hFailures : next.failures = streak (watch.results ++ [result]))
    (hFewer : next.failures < limit) :
    (watch.note now (.renewing beat renewal signal) (.beating next signal)).Stands start period
      limit now (.beating next signal) := by
  cases h with
  | renewing hBegun hCounted hBefore hNever hNext hNow hEnds hFlag =>
      have hNoted := results_note hResult watch now beat next signal signal
      have hLength : (watch.results ++ [result]).length = watch.results.length + 1 := by
        rw [List.length_append, List.length_singleton]
      have hPeriod : (watch.results.length + 1 + 1) * period
          = (watch.results.length + 1) * period + period := Nat.succ_mul _ _
      apply Stands.beating
      · rw [hNoted, hLength]
        exact hBegun
      · rw [hNoted]
        exact hFailures
      · exact hFewer
      · rw [hNoted]
        exact hNever.snoc hLimit (hFailures ▸ hFewer)
      · rw [hNoted, hLength]
        omega
      · rw [hNoted, hLength]
        omega
      · omega
      · exact hEnds
      · exact hFlag
  | lost hPhase => cases hPhase
  | stopped hPhase => cases hPhase

/-- The failure that is one too many ends the supervision. -/
theorem loses {period : Nat} {beat : Heartbeat} {renewal : Renewal} {signal : SignalId}
    {result : Except LockError Bool}
    (h : watch.Stands start period limit now (.renewing beat renewal signal))
    (hResult : renewal.result? = some result) (hFailed : result ≠ .ok true)
    (hMany : limit ≤ beat.failures + 1) :
    (watch.note now (.renewing beat renewal signal) (.losing (beat.failures + 1) signal)).Stands
      start period limit now (.losing (beat.failures + 1) signal) := by
  cases h with
  | renewing hBegun hCounted hBefore hNever hNext hNow hEnds hFlag =>
      have hNoted : (watch.note now (.renewing beat renewal signal)
          (.losing (beat.failures + 1) signal)).results = watch.results ++ [result] := by
        rw [note, hResult]
        rfl
      have hLength : (watch.results ++ [result]).length = watch.results.length + 1 := by
        rw [List.length_append, List.length_singleton]
      have hStreak := streak_failed watch.results hFailed
      apply Stands.lost
      · rfl
      · rw [hNoted, hLength]
        exact hBegun
      · rw [hNoted]
        exact hNever.isLeast (by omega)
      · show watch.ends ++ [(now, SupervisionEnd.leaseLost (beat.failures + 1))] = _
        rw [hNoted, hLength, hEnds, ← hNow, show beat.failures + 1 = limit by omega]
        rfl
      · rw [hNoted, hLength]
        omega
      · rw [hNoted, hLength]
        exact fun time hTime => Nat.le_of_eq (hNow.symm.trans (hFlag time hTime).symm)
  | lost hPhase => cases hPhase
  | stopped hPhase => cases hPhase

/-- **What a move keeps.**  A renewal begins when it is due, its result is counted, and the end
comes with the failure that is one too many, or with the flag. -/
theorem move {manager : Manager} {cycle : Cycle} {moment : Moment} {stimulus : Stimulus}
    {phase' : Cycle.Phase}
    (h : watch.Stands start (manager.policy cycle.interval).heartbeat.nanos
      manager.options.maxFailures moment.now phase)
    (hMove : Cycle.Move manager cycle moment stimulus phase phase')
    (hSuits : stimulus.suits moment.now manager.shutDown phase.need = true)
    (hLimit : 0 < manager.options.maxFailures)
    (hFlagged : watch.flagged?.isSome = manager.shutDown) :
    (watch.note moment.now phase phase').Stands start
      (manager.policy cycle.interval).heartbeat.nanos manager.options.maxFailures moment.now
      phase' := by
  cases h with
  | @beating beat signal hBegun hFailures hFewer hNever hDue hEarly hLate hEnds hFlag =>
      cases hMove with
      | beat =>
          have hCome : beat.due ≤ moment.now := of_decide_eq_true hSuits
          have hHere : moment.now = beat.due := Nat.le_antisymm hLate hCome
          rw [Heartbeat.tick_of_le _ hLate]
          refine .renewing ?_ hFailures hFewer hNever ?_ (hHere.trans hDue) hEnds hFlag
          · show watch.begun ++ [moment.now] = _
            rw [hBegun, hHere, hDue]
            exact (beats_succ _ _ _).symm
          · rw [hHere]
      | wakeBeating =>
          have hRaised : watch.flagged?.isSome = true := hFlagged.trans hSuits
          obtain ⟨time, hTime⟩ := Option.isSome_iff_exists.mp hRaised
          obtain rfl := hFlag time hTime
          refine .stopped rfl hBegun hNever ?_ hTime hEarly (hDue ▸ hLate)
          show watch.ends ++ [_] = _
          rw [hEnds]
          rfl
  | @renewing beat renewal signal hBegun hFailures hFewer hNever hDue hNow hEnds hFlag =>
      have hStands : watch.Stands start (manager.policy cycle.interval).heartbeat.nanos
          manager.options.maxFailures moment.now (.renewing beat renewal signal) :=
        .renewing hBegun hFailures hFewer hNever hDue hNow hEnds hFlag
      cases hMove with
      | recover hResult =>
          exact hStands.goesOn hResult hLimit rfl (streak_renewed watch.results).symm hLimit
      | falter hResult hFailed hMore =>
          refine hStands.goesOn hResult hLimit rfl ?_ hMore
          rw [streak_failed watch.results hFailed, ← hFailures]
          rfl
      | lose hResult hFailed hMany => exact hStands.loses hResult hFailed hMany
      | renew => exact .renewing hBegun hFailures hFewer hNever hDue hNow hEnds hFlag
  | lost hPhase hBegun hLeast hEnds hNow hFlag =>
      rw [note_of_isDismissed watch moment.now hPhase]
      exact .lost (hMove.isDismissed hPhase) hBegun hLeast hEnds hNow hFlag
  | stopped hPhase hBegun hNever hEnds hFlag hEarly hLate =>
      rw [note_of_isDismissed watch moment.now hPhase]
      exact .stopped (hMove.isDismissed hPhase) hBegun hNever hEnds hFlag hEarly hLate

end Stands
end Watch

namespace Session

variable {start session next : Session} {event : Event} {events : List Event} {id : Nat}

/-- **The invariant of runs** of a supervised task, given what was seen of it. -/
structure Supervised (start : Session) (id : Nat) (period : Span) (limit : Nat) (watch : Watch)
    (session : Session) : Prop where
  stands : ∃ cycle, session.manager.cycles[id]? = some cycle ∧
    (session.manager.policy cycle.interval).heartbeat = period ∧
    watch.Stands start.now period.nanos limit session.now cycle.phase
  limit : session.manager.options.maxFailures = limit
  flag : watch.flagged?.isSome = session.manager.shutDown

namespace Supervised

variable {period : Span} {limit : Nat} {watch : Watch}

/-- A task is supervised from the start of its job on. -/
theorem of_start {cycle : Cycle} {signal : SignalId}
    (hCycle : start.manager.cycles[id]? = some cycle)
    (hPhase : cycle.phase = .beating
      (.start start.now (start.manager.policy cycle.interval).heartbeat) signal)
    (hLimit : 0 < start.manager.options.maxFailures) :
    Supervised start id (start.manager.policy cycle.interval).heartbeat
      start.manager.options.maxFailures (start.watch id []) start := by
  refine ⟨⟨cycle, hCycle, rfl, ?_⟩, rfl, ?_⟩
  · rw [hPhase]
    apply Watch.Stands.beating
    · rfl
    · rfl
    · exact hLimit
    · exact neverLost_nil hLimit
    · simp [Heartbeat.start, Session.watch, trace]
    · simp [Session.watch, trace]
    · exact Nat.le_add_right _ _
    · rfl
    · intro time hTime
      simp only [Session.watch, trace, List.foldl_nil, Option.mem_def] at hTime
      split at hTime
      · exact (Option.some.inj hTime).symm
      · cases hTime
  · simp only [Session.watch, trace, List.foldl_nil]
    split
    · next hFlag => exact hFlag.symm
    · next hFlag => exact (Bool.eq_false_iff.mpr hFlag).symm

/-- Every event keeps the invariant. -/
theorem step (h : Supervised start id period limit watch session) (hLimit : 0 < limit)
    (hStep : stepOnTime? id session event = some next) :
    Supervised start id period limit (watch.seen id session next) next := by
  obtain ⟨⟨cycle, hCycle, rfl, hStands⟩, rfl, hFlag⟩ := h
  obtain ⟨moved, hMoved, hBefalls⟩ := befalls_of_stepOnTime? hCycle hStep
  have hOptions := options_of_stepOnTime? hStep
  have hPolicy : ∀ interval, next.manager.policy interval = session.manager.policy interval :=
    fun interval => by rw [Manager.policy, hOptions, Manager.policy]
  rw [Watch.seen_eq hCycle hMoved]
  refine ⟨⟨moved, hMoved, ?_, ?_⟩, by rw [hOptions], ?_⟩
  · cases hBefalls with
    | passed => rw [hPolicy]
    | kept => rw [hPolicy]
    | moved hNow hDown hSuits hMoves => rw [hPolicy, hMoves.interval]
  · cases hBefalls with
    | passed hRests hNow hDown =>
        rw [Watch.note_self, hNow]
        refine (hStands.pass ?_).look _
        refine (rest_cases hCycle hRests).imp_right ?_
        rintro ⟨due, hNeed, hNot, hSoon⟩
        rw [hNot] at hFlag
        exact ⟨due, hNeed, Option.not_isSome_iff_eq_none.mp (Bool.eq_false_iff.mp hFlag), hSoon⟩
    | kept hNow hDown =>
        rw [Watch.note_self, hNow]
        exact hStands.look _
    | moved hNow hDown hSuits hMoves =>
        rw [hNow]
        exact (hStands.move hMoves.move hSuits hLimit hFlag).look _
  · have hSame : (watch.note session.now cycle.phase moved.phase).flagged?.isSome
        = session.manager.shutDown := by
      rw [Watch.note_flagged?]
      exact hFlag
    refine Watch.isSome_flagged?_look hSame ?_ _
    cases hBefalls with
    | passed hRests hNow hDown => exact fun hUp => hDown.trans hUp
    | kept hNow hDown => exact hDown
    | moved hNow hDown hSuits hMoves => exact fun hUp => hDown.trans hUp

end Supervised

/-- **Every run on time keeps the invariant.** -/
theorem supervised_of_run {cycle : Cycle} {signal : SignalId}
    (hCycle : start.manager.cycles[id]? = some cycle)
    (hPhase : cycle.phase = .beating
      (.start start.now (start.manager.policy cycle.interval).heartbeat) signal)
    (hLimit : 0 < start.manager.options.maxFailures)
    (hRun : start.runOnTime? id events = some session) :
    Supervised start id (start.manager.policy cycle.interval).heartbeat
      start.manager.options.maxFailures (start.watch id events) session := by
  refine runs?_induction (motive := fun events session => Supervised start id
    (start.manager.policy cycle.interval).heartbeat start.manager.options.maxFailures
    (start.watch id events) session) (.of_start hCycle hPhase hLimit) ?_ hRun
  intro events before event after hBefore ih hStep
  rw [watch_snoc hBefore hStep]
  exact ih.step hLimit hStep

end Session

/-! ## The account of a run -/

/-- The failures that a task has counted. -/
def Cycle.Phase.counted? : Cycle.Phase → Option Nat
  | .beating beat _ => some beat.failures
  | .renewing beat _ _ => some beat.failures
  | _ => none

theorem Cycle.Phase.counted?_of_isDismissed {phase : Cycle.Phase} (h : phase.isDismissed = true) :
    phase.counted? = none := by
  cases phase <;> first | rfl | cases h

/-- **The account of a supervised task** up to a time.
* Renewals begin one period after each other, the first one a period after the start.
* The lease is lost after a renewal exactly if this is the first that ends a row of `limit`
  failures; it is lost at the time of this renewal, which is the last, and `limit` failures are
  counted then.
* A shutdown ends the supervision when the flag is raised, unless the lease is lost until then.
* While it has not ended, no renewal is late.
* The failures counted are those in a row up to the last renewal, and one more is not too many
  to count. -/
structure Watch.Exact (watch : Watch) (start period limit now : Nat) (counted? : Option Nat) :
    Prop where
  begun : watch.begun = beats start period watch.begun.length
  once : watch.ends.length ≤ 1
  lost_iff : ∀ n, (watch.results.length = n ∧
      ∃ time failures, (time, .leaseLost failures) ∈ watch.ends)
    ↔ IsLeast {n | LostAfter limit (fun k => watch.results[k]?) n} n
  lost : ∀ time failures, (time, .leaseLost failures) ∈ watch.ends →
    time = start + watch.results.length * period ∧ failures = limit ∧
      watch.begun.length = watch.results.length
  stopped : ∀ time, (time, .shutDown) ∈ watch.ends →
    watch.flagged? = some time ∧ time ≤ start + (watch.results.length + 1) * period
  flagged : ∀ time, watch.flagged? = some time → time < now →
    watch.ends = [(time, .shutDown)] ∨
      ∃ n, LostAfter limit (fun k => watch.results[k]?) n ∧ start + n * period ≤ time ∧
        watch.ends = [(start + n * period, .leaseLost limit)]
  prompt : watch.ends = [] → ∀ n, start + n * period < now → n ≤ watch.results.length
  counted : ∀ failures, counted? = some failures →
    failures = streak watch.results ∧ failures + 1 ≤ limit

namespace Watch

variable {watch : Watch} {start period limit now n : Nat} {phase : Cycle.Phase}

/-- Of two multiples of a period the later is of the larger number. -/
theorem lt_of_beats {m : Nat} (h : start + n * period < start + m * period) : n < m :=
  Nat.lt_of_mul_lt_mul_right (Nat.add_lt_add_iff_left.mp h)

/-- While no row of failures has ended no lease is lost. -/
theorem lost_iff_of_neverLost (hNever : NeverLost limit watch.results)
    (hEnds : ∀ entry ∈ watch.ends, entry.2 = .shutDown) (n : Nat) :
    (watch.results.length = n ∧ ∃ time failures, (time, .leaseLost failures) ∈ watch.ends)
      ↔ IsLeast {n | LostAfter limit (fun k => watch.results[k]?) n} n := by
  constructor
  · rintro ⟨-, time, failures, hMem⟩
    cases hEnds _ hMem
  · exact fun hLeast => absurd hLeast.1 (hNever n)

/-- The account of a task whose supervision goes on. -/
theorem exact_of_unended {counted? : Option Nat} (hEnds : watch.ends = [])
    (hNever : NeverLost limit watch.results)
    (hLate : now ≤ start + (watch.results.length + 1) * period)
    (hFlag : ∀ time ∈ watch.flagged?, time = now)
    (hBegun : watch.begun = beats start period watch.begun.length)
    (hCounted : ∀ failures, counted? = some failures →
      failures = streak watch.results ∧ failures + 1 ≤ limit) :
    watch.Exact start period limit now counted? := by
  constructor
  · exact hBegun
  · simp [hEnds]
  · exact lost_iff_of_neverLost hNever (by simp [hEnds])
  · simp [hEnds]
  · simp [hEnds]
  · intro time hTime hPassed
    have hNow := hFlag time hTime
    omega
  · intro _ n hPassed
    exact Nat.le_of_lt_succ (lt_of_beats (Nat.lt_of_lt_of_le hPassed hLate))
  · exact hCounted

/-- **The invariant gives the account.** -/
theorem Stands.exact (h : watch.Stands start period limit now phase) :
    watch.Exact start period limit now phase.counted? := by
  cases h with
  | beating hBegun hFailures hFewer hNever hDue hEarly hLate hEnds hFlag =>
      apply exact_of_unended hEnds hNever (hDue ▸ hLate) hFlag
      · rw [hBegun, length_beats]
      · intro failures hCounted
        obtain rfl := Option.some.inj hCounted
        exact ⟨hFailures, hFewer⟩
  | renewing hBegun hFailures hFewer hNever hDue hNow hEnds hFlag =>
      apply exact_of_unended hEnds hNever (Nat.le_of_eq hNow) hFlag
      · rw [hBegun, length_beats]
      · intro failures hCounted
        obtain rfl := Option.some.inj hCounted
        exact ⟨hFailures, hFewer⟩
  | lost hPhase hBegun hLeast hEnds hNow hFlag =>
      constructor
      · rw [hBegun, length_beats]
      · simp [hEnds]
      · intro n
        constructor
        · rintro ⟨rfl, -⟩
          exact hLeast
        · intro hOther
          refine ⟨hLeast.unique hOther, start + watch.results.length * period, limit, ?_⟩
          simp [hEnds]
      · intro time failures hMem
        rw [hEnds, List.mem_singleton] at hMem
        cases hMem
        exact ⟨rfl, rfl, by rw [hBegun, length_beats]⟩
      · simp [hEnds]
      · exact fun time hTime _ => .inr ⟨_, hLeast.1, hFlag time hTime, hEnds⟩
      · simp [hEnds]
      · rw [Cycle.Phase.counted?_of_isDismissed hPhase]
        exact fun failures hCounted => nomatch hCounted
  | stopped hPhase hBegun hNever hEnds hFlag hEarly hLate =>
      constructor
      · rw [hBegun, length_beats]
      · simp [hEnds]
      · exact lost_iff_of_neverLost hNever (by simp [hEnds])
      · simp [hEnds]
      · intro time hMem
        rw [hEnds, List.mem_singleton] at hMem
        cases hMem
        exact ⟨hFlag, hLate⟩
      · intro time hTime _
        obtain rfl := Option.some.inj (hFlag.symm.trans hTime)
        exact .inl hEnds
      · simp [hEnds]
      · rw [Cycle.Phase.counted?_of_isDismissed hPhase]
        exact fun failures hCounted => nomatch hCounted

/-- Among the results of a sequence that were seen a row of failures ends where it ends in the
sequence. -/
theorem lostAfter_sequence_iff {sequence : Nat → Except LockError Bool}
    (hSeen : ∀ k < watch.results.length, watch.results[k]? = some (sequence k))
    (hLength : n ≤ watch.results.length) :
    LostAfter limit (fun k => watch.results[k]?) n
      ↔ LostAfter limit (fun k => some (sequence k)) n := by
  refine and_congr_right fun hMany => forall_congr' fun k => ?_
  refine forall_congr' fun hFirst => forall_congr' fun hLast => ?_
  show (∃ result, watch.results[k - 1]? = some result ∧ _) ↔ _
  rw [hSeen (k - 1) (by omega)]

/-- **The sequence of results decides.**  Let the results be those of a sequence as far as they
were seen.  Without a shutdown up to the time of a renewal, and once that time has passed, the
lease was lost after this renewal exactly if it is the first in the sequence that ends a row of
failures. -/
theorem Exact.lost_iff_sequence {counted? : Option Nat}
    (h : watch.Exact start period limit now counted?) (hLimit : 0 < limit)
    {sequence : Nat → Except LockError Bool}
    (hSeen : ∀ k < watch.results.length, watch.results[k]? = some (sequence k))
    (hPassed : start + n * period < now)
    (hUndisturbed : ∀ time ∈ watch.flagged?, start + n * period < time) :
    (watch.results.length = n ∧ ∃ time failures, (time, .leaseLost failures) ∈ watch.ends)
      ↔ IsLeast {n | LostAfter limit (fun k => some (sequence k)) n} n := by
  rw [h.lost_iff n]
  have hEarlier : ∀ m, m ≤ watch.results.length →
      (LostAfter limit (fun k => watch.results[k]?) m
        ↔ LostAfter limit (fun k => some (sequence k)) m) :=
    fun m hLength => lostAfter_sequence_iff hSeen hLength
  constructor
  · rintro ⟨hLost, hFirst⟩
    have hLength := LostAfter.le_length hLost hLimit
    refine ⟨(hEarlier n hLength).mp hLost, fun m hOther => ?_⟩
    by_contra hLess
    exact hLess (hFirst ((hEarlier m (by omega)).mpr hOther))
  · rintro ⟨hLost, hFirst⟩
    have hBefore : ∀ m, LostAfter limit (fun k => watch.results[k]?) m → n ≤ m := fun m hOther =>
      hFirst ((hEarlier m (hOther.le_length hLimit)).mp hOther)
    refine ⟨(hEarlier n ?_).mpr hLost, hBefore⟩
    -- The renewal was made: the supervision has not ended before, in whichever way it ends.
    cases hEnds : watch.ends with
    | nil => exact h.prompt hEnds n hPassed
    | cons entry rest =>
        obtain ⟨time, reason⟩ := entry
        have hMem : (time, reason) ∈ watch.ends := hEnds ▸ List.mem_cons_self
        cases reason with
        | leaseLost failures =>
            exact hBefore _ ((h.lost_iff _).mp ⟨rfl, time, failures, hMem⟩).1
        | shutDown =>
            obtain ⟨hFlag, hLate⟩ := h.stopped time hMem
            exact Nat.le_of_lt_succ
              (lt_of_beats (Nat.lt_of_lt_of_le (hUndisturbed time hFlag) hLate))

end Watch

/-! ## Every sequence of results -/

namespace Renewal

/-- What the reply to the write of a renewal comes to. -/
def outcome : Reply → Except LockError Bool
  | .error error => .error (.store error)
  | .ok answer => .ok (decide (0 < answer.count))

theorem afterWrite_eq (reply : Reply) : afterWrite reply = .finished (outcome reply) := by
  cases reply <;> rfl

end Renewal

namespace Session

variable {start session : Session} {events : List Event} {id : Nat} {cycle : Cycle}

/-- Time passes while the task waits, and shows nothing. -/
theorem exists_passed {due time : Nat} (hRun : start.runOnTime? id events = some session)
    (hCycle : session.manager.cycles[id]? = some cycle) (hNeed : cycle.phase.need = .pause due)
    (hFlag : session.manager.shutDown = false) (hNow : session.now ≤ time) (hDue : time ≤ due) :
    ∃ event, start.runOnTime? id (events ++ [event]) = some { session with now := time } ∧
      start.watch id (events ++ [event]) = (start.watch id events).look time false := by
  have hTime : session.now + (time - session.now) = time := by omega
  have hPass := stepOnTime?_pass (time - session.now) hCycle hNeed hFlag (by omega)
  rw [hTime] at hPass
  have hLater : ({ session with now := time } : Session).manager.cycles[id]? = some cycle := hCycle
  refine ⟨_, runOnTime?_snoc hRun hPass, ?_⟩
  rw [watch_snoc hRun hPass, Watch.seen_eq hCycle hLater, Watch.note_self, hFlag]

/-- A move of the task, and what it shows. -/
theorem exists_snoc (stimulus : Stimulus) (hRun : start.runOnTime? id events = some session)
    (hCycle : session.manager.cycles[id]? = some cycle)
    (hSuits : stimulus.suits session.now session.manager.shutDown cycle.phase.need = true) :
    ∃ event next moved, start.runOnTime? id (events ++ [event]) = some next ∧
      next.now = session.now ∧ next.manager.shutDown = session.manager.shutDown ∧
      next.manager.cycles[id]? = some moved ∧
      Cycle.Move session.manager cycle ⟨session.now, 0⟩ stimulus cycle.phase moved.phase ∧
      start.watch id (events ++ [event])
        = ((start.watch id events).note session.now cycle.phase moved.phase).look session.now
          session.manager.shutDown := by
  obtain ⟨next, moved, hStep, hNow, hMoved, hMoves⟩ := exists_move hCycle hSuits 0
  refine ⟨_, next, moved, runOnTime?_snoc hRun hStep, hNow, hMoves.shutDown, hMoved, hMoves.move,
    ?_⟩
  rw [watch_snoc hRun hStep, Watch.seen_eq hCycle hMoved, hNow, hMoves.shutDown]

/-- **One more renewal.**  From between two renewals a run goes on with a renewal that begins when
it is due, and whose write is answered in a given way. -/
theorem exists_renewal {beat : Heartbeat} {signal : SignalId} (reply : Reply)
    (hRun : start.runOnTime? id events = some session)
    (hCycle : session.manager.cycles[id]? = some cycle)
    (hPhase : cycle.phase = .beating beat signal) (hFlag : session.manager.shutDown = false)
    (hDue : session.now ≤ beat.due) :
    ∃ more next moved, start.runOnTime? id more = some next ∧ next.now = beat.due ∧
      next.manager.shutDown = false ∧ next.manager.cycles[id]? = some moved ∧
      ((∃ later, moved.phase = .beating later signal) ∨ moved.phase.isDismissed = true) ∧
      (start.watch id more).results
        = (start.watch id events).results ++ [Renewal.outcome reply] := by
  obtain ⟨event₀, hRun₀, hShown₀⟩ :=
    exists_passed hRun hCycle (by rw [hPhase]; rfl) hFlag hDue (Nat.le_refl _)
  -- The renewal begins, reads the clock, writes, and comes to its end.
  obtain ⟨event₁, next₁, moved₁, hRun₁, hNow₁, hFlag₁, hCycle₁, hMove₁, hShown₁⟩ :=
    exists_snoc .deadline hRun₀ hCycle (by rw [hPhase]; exact decide_eq_true (Nat.le_refl _))
  rw [hPhase] at hMove₁ hShown₁
  obtain ⟨beat₁, claimant, hPhase₁⟩ : ∃ beat claimant,
      moved₁.phase = .renewing beat (.start claimant) signal := by
    generalize moved₁.phase = phase at hMove₁
    cases hMove₁ with
    | beat => exact ⟨_, _, rfl⟩
  obtain ⟨event₂, next₂, moved₂, hRun₂, hNow₂, hFlag₂, hCycle₂, hMove₂, hShown₂⟩ :=
    exists_snoc (.response (.time ⟨0, 0⟩)) hRun₁ hCycle₁ (by rw [hPhase₁]; rfl)
  rw [hPhase₁] at hMove₂ hShown₂
  have hPhase₂ : moved₂.phase = .renewing beat₁ ⟨claimant, .writing ⟨0, 0⟩⟩ signal := by
    generalize moved₂.phase = phase at hMove₂
    cases hMove₂ with
    | renew => rfl
  obtain ⟨event₃, next₃, moved₃, hRun₃, hNow₃, hFlag₃, hCycle₃, hMove₃, hShown₃⟩ :=
    exists_snoc (.response (.reply reply)) hRun₂ hCycle₂ (by rw [hPhase₂]; rfl)
  rw [hPhase₂] at hMove₃ hShown₃
  have hPhase₃ : moved₃.phase
      = .renewing beat₁ ⟨claimant, .finished (Renewal.outcome reply)⟩ signal := by
    rw [← Renewal.afterWrite_eq]
    generalize moved₃.phase = phase at hMove₃
    cases hMove₃ with
    | renew => rfl
  obtain ⟨event₄, next₄, moved₄, hRun₄, hNow₄, hFlag₄, hCycle₄, hMove₄, hShown₄⟩ :=
    exists_snoc .turn hRun₃ hCycle₃ (by rw [hPhase₃]; rfl)
  rw [hPhase₃] at hMove₄ hShown₄
  have hResults : (start.watch id (events ++ [event₀] ++ [event₁] ++ [event₂] ++ [event₃])).results
      = (start.watch id events).results := by
    rw [hShown₃, hPhase₃, hShown₂, hPhase₂, hShown₁, hPhase₁, hShown₀]
    rfl
  refine ⟨_, next₄, moved₄, hRun₄, ?_, ?_, hCycle₄, ?_⟩
  · rw [hNow₄, hNow₃, hNow₂, hNow₁]
  · rw [hFlag₄, hFlag₃, hFlag₂, hFlag₁]
    exact hFlag
  · rw [hShown₄]
    generalize moved₄.phase = phase at hMove₄
    cases hMove₄ with
    | recover hResult | falter hResult =>
        exact ⟨.inl ⟨_, rfl⟩, congrArg (· ++ [Renewal.outcome reply]) hResults⟩
    | lose hResult => exact ⟨.inr rfl, congrArg (· ++ [Renewal.outcome reply]) hResults⟩

section

variable {signal : SignalId} (hCycle : start.manager.cycles[id]? = some cycle)
  (hPhase : cycle.phase = .beating
    (.start start.now (start.manager.policy cycle.interval).heartbeat) signal)
  (hLimit : 0 < start.manager.options.maxFailures)

include hCycle hPhase hLimit

/-- While no row of failures has ended and the flag is not raised the task goes on: it waits for
its next renewal. -/
theorem exists_beat_of_answered {moved : Cycle} {replies : Nat → Reply} {n : Nat}
    (hRun : start.runOnTime? id events = some session) (hFlag : session.manager.shutDown = false)
    (hMoved : session.manager.cycles[id]? = some moved)
    (hPhases : (∃ beat, moved.phase = .beating beat signal) ∨ moved.phase.isDismissed = true)
    (hResults : (start.watch id events).results
      = (List.range n).map fun k => Renewal.outcome (replies k))
    (hNever : ¬ LostAfter start.manager.options.maxFailures
      (fun k => some (Renewal.outcome (replies k))) n) :
    ∃ beat, moved.phase = .beating beat signal ∧
      beat.due = start.now + (n + 1) * (start.manager.policy cycle.interval).heartbeat.nanos ∧
      session.now ≤ beat.due ∧ (start.watch id events).ends = [] := by
  have hLength : (start.watch id events).results.length = n := by simp [hResults]
  have hOpen : ¬ LostAfter start.manager.options.maxFailures
      (fun k => (start.watch id events).results[k]?) (start.watch id events).results.length := by
    rw [hLength, Watch.lostAfter_sequence_iff ?_ (Nat.le_of_eq hLength.symm)]
    · exact hNever
    · intro k hBound
      rw [hLength] at hBound
      simp [hResults, hBound]
  obtain ⟨⟨other, hOther, -, hStands⟩, -, hSeen⟩ := supervised_of_run hCycle hPhase hLimit hRun
  obtain rfl : moved = other := Option.some.inj (hMoved.symm.trans hOther)
  generalize moved.phase = phase at hStands hPhases
  cases hStands with
  | beating hBegun hFailures hFewer hNever hDue hEarly hLate hEnds =>
      obtain ⟨beat, hBeat⟩ := hPhases.resolve_right (by simp [Cycle.Phase.isDismissed])
      cases hBeat
      rw [hLength] at hDue
      exact ⟨_, rfl, hDue, hLate, hEnds⟩
  | renewing =>
      rcases hPhases with ⟨beat, hBeat⟩ | hOver
      · cases hBeat
      · cases hOver
  | lost hOver hBegun hLeast => exact absurd hLeast.1 hOpen
  | stopped hOver hBegun hStill hEnds hRaised =>
      rw [hRaised, hFlag] at hSeen
      cases hSeen

/-- **Renewals may turn out in every way.**  A run answers the first renewals as it is told, unless
the lease is lost before they are all made. -/
theorem exists_run_of_replies (hFlag : start.manager.shutDown = false) (replies : Nat → Reply)
    (n : Nat) (hNever : ∀ j < n, ¬ LostAfter start.manager.options.maxFailures
      (fun k => some (Renewal.outcome (replies k))) j) :
    ∃ events session moved, start.runOnTime? id events = some session ∧
      session.manager.shutDown = false ∧ session.manager.cycles[id]? = some moved ∧
      session.now = start.now + n * (start.manager.policy cycle.interval).heartbeat.nanos ∧
      ((∃ beat, moved.phase = .beating beat signal) ∨ moved.phase.isDismissed = true) ∧
      (start.watch id events).results
        = (List.range n).map fun k => Renewal.outcome (replies k) := by
  induction n with
  | zero => exact ⟨[], start, cycle, rfl, hFlag, hCycle, by simp, .inl ⟨_, hPhase⟩, rfl⟩
  | succ n ih =>
      obtain ⟨events, session, moved, hRun, hDown, hMoved, hNow, hPhases, hResults⟩ :=
        ih fun j hLess => hNever j (Nat.lt_succ_of_lt hLess)
      obtain ⟨beat, hBeating, hDue, hLate, -⟩ := exists_beat_of_answered hCycle hPhase hLimit hRun
        hDown hMoved hPhases hResults (hNever n (Nat.lt_succ_self n))
      obtain ⟨more, next, later, hMore, hThen, hStill, hLater, hNext, hAnswered⟩ :=
        exists_renewal (replies n) hRun hMoved hBeating hDown hLate
      refine ⟨more, next, later, hMore, hStill, hLater, hThen.trans hDue, hNext, ?_⟩
      rw [hAnswered, hResults, List.range_succ, List.map_append]
      rfl

omit hCycle hPhase hLimit in
/-- **A shutdown may come at any time** up to the next renewal, and it ends the supervision. -/
theorem exists_run_to_shutDown {moved : Cycle} {beat : Heartbeat} {time : Nat}
    (hRun : start.runOnTime? id events = some session)
    (hMoved : session.manager.cycles[id]? = some moved)
    (hBeating : moved.phase = .beating beat signal) (hFlag : session.manager.shutDown = false)
    (hUnended : (start.watch id events).ends = []) (hNow : session.now ≤ time)
    (hDue : time ≤ beat.due) :
    ∃ more next, start.runOnTime? id more = some next ∧
      (start.watch id more).results = (start.watch id events).results ∧
      (start.watch id more).ends = [(time, .shutDown)] := by
  obtain ⟨event₀, hRun₀, hShown₀⟩ :=
    exists_passed hRun hMoved (by rw [hBeating]; rfl) hFlag hNow hDue
  obtain ⟨raised, hStep, hManager, hTime⟩ : ∃ raised,
      stepOnTime? id { session with now := time } .raiseFlag = some raised ∧
        raised.manager = session.manager.raiseFlag ∧ raised.now = time := by
    refine ⟨_, if_neg (Bool.eq_false_iff.mp hFlag), rfl, rfl⟩
  have hRun₁ := runOnTime?_snoc hRun₀ hStep
  have hCycle₀ : ({ session with now := time } : Session).manager.cycles[id]? = some moved := hMoved
  have hCycle₁ : raised.manager.cycles[id]? = some moved := by
    rw [hManager]
    exact hMoved
  have hShown₁ := watch_snoc hRun₀ hStep
  rw [Watch.seen_eq hCycle₀ hCycle₁, Watch.note_self] at hShown₁
  obtain ⟨event₂, next, last, hRun₂, -, -, -, hMove₂, hShown₂⟩ :=
    exists_snoc .shutdown hRun₁ hCycle₁ (by rw [hBeating, hManager]; rfl)
  rw [hBeating] at hMove₂ hShown₂
  refine ⟨_, next, hRun₂, ?_⟩
  rw [hShown₂]
  generalize last.phase = phase at hMove₂
  cases hMove₂ with
  | wakeBeating =>
      constructor
      · show (start.watch id (events ++ [event₀] ++ [.raiseFlag])).results = _
        rw [hShown₁, hShown₀]
        rfl
      · show (start.watch id (events ++ [event₀] ++ [.raiseFlag])).ends ++ [_] = _
        rw [hShown₁, hShown₀, hTime]
        exact congrArg (· ++ [(time, SupervisionEnd.shutDown)]) hUnended

end

/-- The failures that a task has counted. -/
def counted? (session : Session) (id : Nat) : Option Nat :=
  session.manager.cycles[id]?.bind fun cycle => cycle.phase.counted?

/-- **Supervision is exact.**  A task begins to be supervised when its job starts.  In every run
with the task on time its renewals begin a period after each other; the lease is lost after the
renewal that is the first to end a row of as many failures as the options allow, and at no other
time; a flag that is raised before that ends the supervision at once; and the failures counted fit
a word of 32 bits.  A flag that is raised at the very time of a renewal may stop the task before
the renewal or after it, and then the lease is lost only if the renewal was made.

The results may be those of any sequence of replies, and a shutdown may come at any time. -/
theorem supervision_exact {start : Session} {id : Nat} {cycle : Cycle} {signal : SignalId}
    (hCycle : start.manager.cycles[id]? = some cycle)
    (hPhase : cycle.phase = .beating
      (.start start.now (start.manager.policy cycle.interval).heartbeat) signal)
    (hLimit : 0 < start.manager.options.maxFailures)
    (hWord : start.manager.options.maxFailures ≤ Word.maxNat 32) :
    let period := (start.manager.policy cycle.interval).heartbeat.nanos
    let limit := start.manager.options.maxFailures
    (∀ events session, start.runOnTime? id events = some session →
      let watch := start.watch id events
      watch.Exact start.now period limit session.now (session.counted? id) ∧
      (∀ failures, session.counted? id = some failures → failures + 1 ≤ Word.maxNat 32) ∧
      ∀ (sequence : Nat → Except LockError Bool) (n : Nat),
        (∀ k < watch.results.length, watch.results[k]? = some (sequence k)) →
        start.now + n * period < session.now →
        (∀ time ∈ watch.flagged?, start.now + n * period < time) →
        ((watch.results.length = n ∧ ∃ time failures, (time, .leaseLost failures) ∈ watch.ends)
          ↔ IsLeast {n | LostAfter limit (fun k => some (sequence k)) n} n)) ∧
    (start.manager.shutDown = false → ∀ (replies : Nat → Reply) (n : Nat),
      (∀ j < n, ¬ LostAfter limit (fun k => some (Renewal.outcome (replies k))) j) →
      (∃ events session, start.runOnTime? id events = some session ∧
        (start.watch id events).flagged? = none ∧
        (start.watch id events).results
          = (List.range n).map fun k => Renewal.outcome (replies k)) ∧
      (¬ LostAfter limit (fun k => some (Renewal.outcome (replies k))) n →
        ∀ time, start.now + n * period ≤ time → time ≤ start.now + (n + 1) * period →
          ∃ events session, start.runOnTime? id events = some session ∧
            (start.watch id events).results
              = (List.range n).map (fun k => Renewal.outcome (replies k)) ∧
            (start.watch id events).ends = [(time, .shutDown)])) := by
  intro period limit
  constructor
  · intro events session hRun watch
    have hSupervised := supervised_of_run hCycle hPhase hLimit hRun
    have hExact : watch.Exact start.now period limit session.now (session.counted? id) := by
      obtain ⟨other, hOther, -, hStands⟩ := hSupervised.stands
      rw [counted?, hOther, Option.bind_some]
      exact hStands.exact
    refine ⟨hExact, fun failures hCounted => ?_, fun sequence n hSeen hPassed hUndisturbed => ?_⟩
    · exact Nat.le_trans (hExact.counted failures hCounted).2 hWord
    · exact hExact.lost_iff_sequence hLimit hSeen hPassed hUndisturbed
  · intro hFlag replies n hNever
    obtain ⟨events, session, moved, hRun, hDown, hMoved, hNow, hPhases, hResults⟩ :=
      exists_run_of_replies hCycle hPhase hLimit hFlag replies n hNever
    have hSupervised := supervised_of_run hCycle hPhase hLimit hRun
    refine ⟨⟨events, session, hRun, ?_, hResults⟩, fun hLast time hEarly hLate => ?_⟩
    · have hUnseen := hSupervised.flag
      rw [hDown] at hUnseen
      exact Option.not_isSome_iff_eq_none.mp (Bool.eq_false_iff.mp hUnseen)
    · obtain ⟨beat, hBeating, hDue, -, hEnds⟩ := exists_beat_of_answered hCycle hPhase hLimit hRun
        hDown hMoved hPhases hResults hLast
      obtain ⟨more, next, hMore, hSame, hShut⟩ := exists_run_to_shutDown hRun hMoved hBeating hDown
        hEnds (hNow ▸ hEarly) (hDue ▸ hLate)
      exact ⟨more, next, hMore, hSame.trans hResults, hShut⟩

/-- The heartbeat of a minute that renews its lock. -/
def keptBeat : List Event :=
  [.pass 60000000000, .move 0 0 .deadline, .move 0 0 (.response (.time ⟨0, 0⟩)),
    .move 0 0 (.response (.reply (.ok (.number 1)))), .move 0 0 .turn]

/-- A manager that has just started the job of its first lock. -/
def supervisedJob : Session :=
  ((around soleManager).run? (.enter "job" .short :: .enroll 0 :: firstLease 0)).get (by decide)

/-- Two renewals fail, one succeeds, and three fail. -/
def restartedCount : List Event :=
  missedBeat ++ missedBeat ++ keptBeat ++ (List.replicate 3 missedBeat).flatten

/-- The lease is lost after the sixth renewal: the second of the first two failures is not the
last that is allowed, and the success starts the count again. -/
theorem supervision_exact_restartedCount :
    ∃ cycle signal, supervisedJob.manager.cycles[0]? = some cycle ∧
      cycle.phase = .beating (.start supervisedJob.now
        (supervisedJob.manager.policy cycle.interval).heartbeat) signal ∧
      0 < supervisedJob.manager.options.maxFailures ∧
      supervisedJob.manager.options.maxFailures ≤ Word.maxNat 32 ∧
      (∃ session, supervisedJob.runOnTime? 0 restartedCount = some session) ∧
      (supervisedJob.watch 0 restartedCount).begun = [60000000000, 120000000000, 180000000000,
        240000000000, 300000000000, 360000000000] ∧
      (supervisedJob.watch 0 restartedCount).ends = [(360000000000, .leaseLost 3)] ∧
      IsLeast {n | LostAfter 3 (fun k => (supervisedJob.watch 0 restartedCount).results[k]?) n}
        6 := by
  obtain ⟨cycle, signal, hCycle, hPhase⟩ : ∃ cycle signal,
      supervisedJob.manager.cycles[0]? = some cycle ∧ cycle.phase = .beating
        (.start supervisedJob.now (supervisedJob.manager.policy cycle.interval).heartbeat)
        signal := ⟨_, _, rfl, rfl⟩
  have hLimit : 0 < supervisedJob.manager.options.maxFailures := by decide
  have hWord : supervisedJob.manager.options.maxFailures ≤ Word.maxNat 32 := by decide
  obtain ⟨session, hRun⟩ : ∃ session,
      supervisedJob.runOnTime? 0 restartedCount = some session := ⟨_, rfl⟩
  have hBegun : (supervisedJob.watch 0 restartedCount).begun = [60000000000, 120000000000,
      180000000000, 240000000000, 300000000000, 360000000000] := by rfl
  have hEnds : (supervisedJob.watch 0 restartedCount).ends
      = [(360000000000, .leaseLost 3)] := by rfl
  have hSix : (supervisedJob.watch 0 restartedCount).results.length = 6 := by rfl
  obtain ⟨hExact, -⟩ := (supervision_exact hCycle hPhase hLimit hWord).1 restartedCount session hRun
  exact ⟨cycle, signal, hCycle, hPhase, hLimit, hWord, ⟨session, hRun⟩, hBegun, hEnds,
    (hExact.lost_iff 6).mp ⟨hSix, 360000000000, 3, by rw [hEnds]; exact List.mem_singleton_self _⟩⟩

end Session

end Leasehold
