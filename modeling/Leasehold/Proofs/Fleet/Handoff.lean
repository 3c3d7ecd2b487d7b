import Leasehold.Proofs.Fleet.Waiter
import Mathlib.Order.Bounds.Basic

/-!
# Hand-off by expiry

The owner of a lock falls silent, and a single task of another node waits for it under the fixed
policy, which makes an attempt every lease.  The row is free a lease after its last write, so the
first attempt after that gets the lock; an attempt at the very moment at which the lease ends comes
too early and costs one lease more.

* `Handoff`: the row as it was left, and who waits for it since when.
* `Handoff.IsDue`: which attempt is the first that comes late enough.
* `Attempt.meets_of_answered`: what an attempt does that has met this row only.
* `Handoff.Stands`: how the task and the row stand before and after the hand-off;
  `Handoff.HoldsAfter.snoc` is the step and `Handoff.Begins.run` the run.
* `Handoff.Account`: what is seen of a hand-off; `Handoff.Holds.account` shows it.
-/

namespace Leasehold

/-- Where an attempt stands that has met one row only: it has claimed the row if the clock shows
that the row is expired, and has given up if not. -/
def Attempt.Stage.Meets (row : LockRow) (lease : Span) (reading? : Option Instant) :
    Attempt.Stage → Prop
  | .counting | .searching => True
  | .judging met => met = row
  | .claiming met => met = row ∧ ∃ now ∈ reading?, row.isExpired now lease = true
  | .replacing met now => met = row ∧ now ∈ reading? ∧ row.isExpired now lease = true
  | .finished result => ∃ now ∈ reading?, row.isExpired now lease = false ∧
      result = .ok (.heldElsewhere row.owner (row.elapsed now))
  | .stamping | .inserting _ => False

/-- Where a task stands that has met one row only. -/
def Cycle.Phase.Meets (row : LockRow) (lease : Span) (reading? : Option Instant) :
    Cycle.Phase → Prop
  | .retrying | .waiting _ => True
  | .attempting attempt => attempt.stage.Meets row lease reading?
  | _ => False

/-- A row as its owner left it, and an identity that waits for it under a lease since a time, which
is in nanoseconds since the clock showed `base`. -/
structure Handoff where
  base : Instant
  row : LockRow
  identity : String
  lease : Span
  start : Nat

namespace Handoff

/-- When the attempt is due that follows a number of delays. -/
def time (handoff : Handoff) (k : Nat) : Nat := handoff.start + k * handoff.lease.nanos

/-- The row as the waiting node leaves it at a time. -/
def taken (handoff : Handoff) (now : Instant) : LockRow :=
  ⟨handoff.row.name, handoff.row.version + 1, handoff.identity, now⟩

/-- More than a lease has passed since the last write when an attempt is due.  Both sides are
nanoseconds since 1970. -/
def IsOver (handoff : Handoff) (k : Nat) : Prop :=
  handoff.row.updateTime.count + handoff.lease.nanos < handoff.base.count + handoff.time k

/-- **The attempt that comes first after the lease.**  The row is of another owner and its version
can be raised, the clock and the row show supported times away from leap seconds, and the attempt
after `k` delays is the first of those that are due more than a lease after the last write. -/
structure IsDue (handoff : Handoff) (k : Nat) : Prop where
  foreign : handoff.row.owner ≠ handoff.identity
  raisable : handoff.row.isRaisable = true
  clock : handoff.base.isValid = true ∧ handoff.base.inLeapSecond = false
  stamp : handoff.row.updateTime.isValid = true ∧ handoff.row.updateTime.inLeapSecond = false
  least : IsLeast {j | handoff.IsOver j} k

variable {handoff : Handoff} {j k : Nat} {now : Instant}

/-- An attempt finds the row expired exactly if more than a lease has passed since the write. -/
theorem IsDue.isExpired_iff (h : handoff.IsDue k)
    (hReading : handoff.base.after? (handoff.time j) = some now) :
    handoff.row.isExpired now handoff.lease = true ↔ handoff.IsOver j := by
  obtain ⟨hValid, hLeap⟩ := h.clock
  obtain ⟨hStamp, hStampOut⟩ := h.stamp
  obtain ⟨hOut, hCount⟩ := Instant.count_after? hLeap hReading
  have hShort := Instant.lt_longest_of_after? hValid hLeap hReading
  have hSince := Instant.since_nanos_of_not_leap now handoff.row.updateTime hOut hStampOut
  rw [LockRow.isExpired_iff hStamp (Instant.isValid_of_after? hValid hLeap hReading), hSince]
  simp only [Instant.count, IsOver] at hCount ⊢
  omega

/-- An earlier attempt finds a lease that is not over. -/
theorem IsDue.lt_of_fresh (h : handoff.IsDue k)
    (hReading : handoff.base.after? (handoff.time j) = some now) (hCount : j ≤ k)
    (hFresh : handoff.row.isExpired now handoff.lease = false) : j < k := by
  refine Nat.lt_of_le_of_ne hCount fun hLast => ?_
  subst hLast
  rw [(h.isExpired_iff hReading).mpr h.least.1] at hFresh
  cases hFresh

/-- An attempt that finds the lease over is the first one that does. -/
theorem IsDue.eq_of_expired (h : handoff.IsDue k)
    (hReading : handoff.base.after? (handoff.time j) = some now) (hCount : j ≤ k)
    (hExpired : handoff.row.isExpired now handoff.lease = true) : j = k :=
  Nat.le_antisymm hCount (h.least.2 ((h.isExpired_iff hReading).mp hExpired))

/-- The waiting task. -/
structure Waits (handoff : Handoff) (fleet : Fleet) (node id : Nat) (manager : Manager)
    (cycle : Cycle) : Prop where
  base : fleet.base = handoff.base
  managed : fleet.managers[node]? = some manager
  found : manager.cycles[id]? = some cycle
  flag : manager.shutDown = false
  identity : manager.options.identity = handoff.identity
  lease : (manager.policy cycle.interval).lease = handoff.lease
  name : cycle.name = handoff.row.name

/-- **How the hand-off stands.**  The row is as it was left and the task has met no other; or an
attempt has just taken it; or the task has got the lock. -/
inductive Stands (handoff : Handoff) (k : Nat) (pursuit : Pursuit)
    (changes : List (Nat × Option LockRow)) (fleet : Fleet) : Cycle.Phase → Prop where
  | awaiting {phase : Cycle.Phase}
      (hPhase : phase.Meets handoff.row handoff.lease fleet.reading?)
      (hRow : fleet.lockRow? handoff.row.name = some handoff.row) (hChanges : changes = [])
      (hCount : pursuit.delays.length ≤ k) :
      Stands handoff k pursuit changes fleet phase
  | taking {attempt : Attempt} {now : Instant}
      (hResult : attempt.result? = some (.ok (.acquired (handoff.row.version + 1))))
      (hNow : fleet.now = handoff.time k)
      (hReading : handoff.base.after? (handoff.time k) = some now)
      (hChanges : changes = [(handoff.time k, some (handoff.taken now))])
      (hCount : pursuit.delays.length = k) :
      Stands handoff k pursuit changes fleet (.attempting attempt)
  | taken {phase : Cycle.Phase} {now : Instant}
      (hPhase : phase.isSettled = true)
      (hReading : handoff.base.after? (handoff.time k) = some now)
      (hChanges : changes.head? = some (handoff.time k, some (handoff.taken now)))
      (hCount : pursuit.delays.length = k)
      (hEnds : pursuit.ends = [(handoff.time k, .acquired (handoff.row.version + 1))]) :
      Stands handoff k pursuit changes fleet phase

/-- An attempt that did not get the lock found it held. -/
def FoundHeld (handoff : Handoff) (pursuit : Pursuit) : Prop :=
  ∀ result ∈ pursuit.results, acquiredVersion? result = none →
    ∃ elapsed, result = .ok (.heldElsewhere handoff.row.owner elapsed)

/-- **The invariant of runs.** -/
structure Holds (handoff : Handoff) (k node id : Nat) (pursuit : Pursuit)
    (changes : List (Nat × Option LockRow)) (fleet : Fleet) : Prop where
  task : ∃ manager cycle, handoff.Waits fleet node id manager cycle ∧
    Pursued handoff.start (.start .fixed handoff.lease) pursuit ⟨fleet.now, false, cycle⟩ ∧
    handoff.Stands k pursuit changes fleet cycle.phase
  held : handoff.FoundHeld pursuit

end Handoff

namespace Attempt

variable {fleet next : Fleet} {attempt : Attempt} {stage : Stage} {row : LockRow}

/-- **What an answer does to an attempt that has met one row only**: it still has, and the row stays
as it is; or it takes the row, which is expired. -/
theorem meets_of_answered (hMeets : attempt.stage.Meets row attempt.lease fleet.reading?)
    (hRow : fleet.lockRow? row.name = some row) (hOwner : row.owner ≠ attempt.claimant.identity)
    (hRaisable : row.isRaisable = true) (h : Fleet.Answered fleet next row.name attempt stage) :
    (stage.Meets row attempt.lease fleet.reading? ∧ next.lockRow? row.name = some row) ∨
      ∃ now ∈ fleet.reading?, row.isExpired now attempt.lease = true ∧
        stage = .finished (.ok (.acquired (row.version + 1))) ∧
        next.lockRow? row.name
          = some ⟨row.name, row.version + 1, attempt.claimant.identity, now⟩ := by
  obtain ⟨claimant, lease, earlier⟩ := attempt
  cases h with
  | @timed reading hRequest hReading hSame =>
      refine .inl ⟨?_, hSame.trans hRow⟩
      cases earlier with
      | judging met =>
          obtain rfl : met = row := hMeets
          show Stage.Meets met lease fleet.reading? (afterJudgement met lease reading)
          unfold afterJudgement
          split
          · next hExpired =>
            rw [claim, if_pos hRaisable]
            exact ⟨rfl, reading, hReading, hExpired⟩
          · next hFresh => exact ⟨reading, hReading, Bool.eq_false_iff.mpr hFresh, rfl⟩
      | claiming met =>
          obtain ⟨rfl, now, hNow, hExpired⟩ := hMeets
          obtain rfl := Option.some.inj (hReading.symm.trans hNow)
          exact ⟨rfl, hReading, hExpired⟩
      | stamping => exact hMeets.elim
      | _ => cases hRequest
  | served hRequest hServed =>
      rw [hRow] at hServed ⊢
      cases earlier with
      | counting => exact .inl ⟨trivial, hServed⟩
      | searching =>
          refine .inl ⟨?_, hServed⟩
          have hForeign : row.isOwnedBy claimant.identity = false := beq_eq_false_iff_ne.mpr hOwner
          simp only [stageAfter, hForeign, Bool.false_eq_true, if_false]
          rfl
      | replacing met now =>
          obtain ⟨rfl, hNow, hExpired⟩ := hMeets
          refine .inr ⟨now, hNow, hExpired, ?_, ?_⟩
          · simp only [stageAfter, if_true]
          · simpa [rowAfter, LockRow.takenBy] using hServed
      | inserting now => exact hMeets.elim
      | _ => cases hRequest

end Attempt

namespace Handoff

variable {handoff : Handoff} {fleet next : Fleet} {event : Fleet.Event} {node id k : Nat}
  {manager after : Manager} {cycle moved : Cycle} {pursuit : Pursuit}
  {changes : List (Nat × Option LockRow)}

/-- What changes of the row of the lock. -/
def change? (handoff : Handoff) (fleet next : Fleet) : Option (Nat × Option LockRow) :=
  Leasehold.change? Fleet.now (fun fleet => fleet.lockRow? handoff.row.name) fleet next

theorem change?_of_eq (h : next.lockRow? handoff.row.name = fleet.lockRow? handoff.row.name) :
    handoff.change? fleet next = none :=
  Leasehold.change?_of_eq h

/-- The task waits on. -/
theorem Waits.goesOn (h : handoff.Waits fleet node id manager cycle)
    (hBase : next.base = fleet.base) (hAfter : next.managers[node]? = some after)
    (hOptions : after.options = manager.options) (hFlag : after.shutDown = false)
    (hMoved : after.cycles[id]? = some moved) (hName : moved.name = cycle.name)
    (hInterval : moved.interval = cycle.interval) :
    handoff.Waits next node id after moved := by
  refine ⟨hBase.trans h.base, hAfter, hMoved, hFlag, ?_, ?_, hName.trans h.name⟩
  · rw [hOptions]
    exact h.identity
  · rw [Manager.policy, hOptions, hInterval]
    exact h.lease

/-- An attempt is due after as many leases as there were delays. -/
theorem now_eq_of_attempting {attempt : Attempt}
    (h : Pursued handoff.start (.start .fixed handoff.lease) pursuit ⟨fleet.now, false, cycle⟩)
    (hPhase : cycle.phase = .attempting attempt) :
    fleet.now = handoff.time pursuit.delays.length := by
  have hStands := h.stands
  simp only [hPhase] at hStands
  obtain ⟨hOpen, -, hNow⟩ := hStands.of_attempting
  rw [hNow, hOpen.generated.sum_eq]
  rfl

/-- **An attempt that is answered** goes on, or it takes the row at the moment that is due. -/
theorem Stands.answered (h : handoff.Stands k pursuit changes fleet cycle.phase)
    (hDue : handoff.IsDue k) (hLegal : fleet.Legal)
    (hWaits : handoff.Waits fleet node id manager cycle)
    (hPursued : Pursued handoff.start (.start .fixed handoff.lease) pursuit
      ⟨fleet.now, false, cycle⟩)
    {attempt : Attempt} (hPhase : cycle.phase = .attempting attempt)
    (hAsks : attempt.result? = none) {act : Fleet.Act} (hFail : ∀ error, act ≠ .fail error)
    (hAct : fleet.act? node id manager cycle act = some next) :
    ∃ after moved, handoff.Waits next node id after moved ∧
      handoff.Stands k (pursuit.note fleet.now cycle.phase moved.phase)
        (changes ++ (handoff.change? fleet next).toList) next moved.phase ∧
      (pursuit.note fleet.now cycle.phase moved.phase).results = pursuit.results := by
  have hStep := Fleet.step_of_act? hWaits.managed hWaits.found hAct
  have hNow : next.now = fleet.now := hStep.now (by simp)
  obtain ⟨hBase, -⟩ := hStep.frame
  have hReading : next.reading? = fleet.reading? := by
    rw [Fleet.reading?, hBase, hNow, Fleet.reading?]
  obtain ⟨hClaimant, hLease⟩ := hLegal.attempts node id manager.options cycle attempt
    (Fleet.Legal.cycle? hWaits.managed hWaits.found) hPhase
  have hLease : attempt.lease = handoff.lease := hLease.trans hWaits.lease
  have hIdentity : attempt.claimant.identity = handoff.identity := by
    rw [hClaimant]
    exact hWaits.identity
  obtain ⟨stage, hAnswered, after, hAfter, hOptions, hDown, hMoved⟩ :=
    hLegal.answered_of_act? hWaits.managed hWaits.found hPhase hAsks hFail hAct
  refine ⟨after, _, hWaits.goesOn hBase hAfter hOptions (hDown.trans hWaits.flag) hMoved rfl rfl,
    ?_, by rw [hPhase]; rfl⟩
  have hTime := now_eq_of_attempting hPursued hPhase
  rw [hPhase] at h
  rw [hPhase]
  cases h with
  | awaiting hMeets hRow hChanges hCount =>
      rw [hWaits.name] at hAnswered
      have hMeets : attempt.stage.Meets handoff.row handoff.lease fleet.reading? := hMeets
      rw [← hLease] at hMeets
      rcases Attempt.meets_of_answered hMeets hRow (hIdentity ▸ hDue.foreign) hDue.raisable
        hAnswered with
        ⟨hStill, hSame⟩ | ⟨now, hHere, hExpired, rfl, hTaken⟩
      · rw [hLease] at hStill
        refine .awaiting (hReading ▸ hStill) hSame ?_ hCount
        rw [hChanges, change?_of_eq (hSame.trans hRow.symm)]
        rfl
      · -- The row is expired, so this is the attempt that is due and no later one.
        have hClock : handoff.base.after? (handoff.time pursuit.delays.length) = some now := by
          rw [← hWaits.base, ← hTime]
          exact hHere
        obtain rfl := hDue.eq_of_expired hClock hCount (hLease ▸ hExpired)
        rw [hIdentity] at hTaken
        refine .taking rfl (hNow.trans hTime) hClock ?_ rfl
        -- The version tells the new row from the old one.
        have hNew : next.lockRow? handoff.row.name ≠ fleet.lockRow? handoff.row.name := by
          rw [hTaken, hRow]
          intro hEq
          have hVersion := congrArg LockRow.version (Option.some.inj hEq)
          simp only at hVersion
          omega
        rw [hChanges, change?, Leasehold.change?, if_neg hNew, hTaken, hNow, hTime]
        rfl
  | taking hResult =>
      rw [hAsks] at hResult
      cases hResult
  | taken hSettled => cases hSettled

/-- An attempt has ended exactly when it waits for nothing. -/
theorem need_of_result {attempt : Attempt} {result : Except LockError Outcome}
    (h : attempt.result? = some result) : (Cycle.Phase.attempting attempt).need = .nothing := by
  have hEnded := attempt.request?_eq_none_iff.mpr (Option.isSome_of_eq_some h)
  rw [Cycle.Phase.need, hEnded]
  rfl

/-- Between its attempts a task that waits for the lock waits for no answer. -/
theorem need_ne_answer {phase : Cycle.Phase} {reading? : Option Instant}
    (hMeets : phase.Meets handoff.row handoff.lease reading?)
    (hEnded : ∀ attempt, phase = .attempting attempt → attempt.result?.isSome = true)
    (call : Call) : phase.need ≠ .answer call := by
  cases phase with
  | attempting attempt =>
      obtain ⟨result, hResult⟩ := Option.isSome_iff_exists.mp (hEnded attempt rfl)
      rw [need_of_result hResult]
      intro hEq
      cases hEq
  | retrying | waiting due =>
      intro hEq
      cases hEq
  | _ => exact hMeets.elim

/-- A task that has met the row only makes an attempt when one is due, and waits on after one that
came too early. -/
theorem moved_of_awaiting {phase phase' : Cycle.Phase} {draw : Nat} {stimulus : Stimulus}
    (hMeets : phase.Meets handoff.row handoff.lease fleet.reading?)
    (hCount : pursuit.delays.length ≤ k) (hHeld : handoff.FoundHeld pursuit)
    (hMove : Cycle.Move manager cycle ⟨fleet.now, draw⟩ stimulus phase phase')
    (hSuits : stimulus.suits fleet.now manager.shutDown phase.need = true)
    (hFlag : manager.shutDown = false)
    (hEnded : ∀ attempt, phase = .attempting attempt → attempt.result?.isSome = true)
    (hFresh : ∀ attempt now, phase = .attempting attempt → now ∈ fleet.reading? →
      handoff.row.isExpired now handoff.lease = false → pursuit.delays.length < k)
    (reading? : Option Instant) :
    phase'.Meets handoff.row handoff.lease reading? ∧
      (pursuit.note fleet.now phase phase').delays.length ≤ k ∧
      handoff.FoundHeld (pursuit.note fleet.now phase phase') := by
  cases phase with
  | retrying =>
      cases hMove with
      | quit hUp =>
          rw [hFlag] at hUp
          cases hUp
      | attempt => exact ⟨trivial, hCount, hHeld⟩
  | waiting due =>
      cases hMove with
      | retry => exact ⟨trivial, hCount, hHeld⟩
      | wakeWaiting =>
          rw [hFlag] at hSuits
          cases hSuits
  | attempting attempt =>
      obtain ⟨result, hResult⟩ := Option.isSome_iff_exists.mp (hEnded attempt rfl)
      obtain ⟨claimant, lease, stage⟩ := attempt
      have hStage : stage.Meets handoff.row handoff.lease fleet.reading? := hMeets
      cases stage with
      | finished other =>
          -- The attempt found the row fresh, so that it was not the one that is due.
          obtain ⟨now, hNow, hFresh', rfl⟩ := hStage
          cases hMove with
          | win hWon => cases hWon
          | miss hMissed =>
              refine ⟨trivial, ?_, ?_⟩
              · show (pursuit.delays ++ [_]).length ≤ k
                rw [List.length_append, List.length_singleton]
                exact hFresh _ now rfl hNow hFresh'
              · intro result hMem hNone
                rcases List.mem_append.mp hMem with hOld | hNew
                · exact hHeld result hOld hNone
                · rw [List.mem_singleton.mp hNew]
                  exact ⟨_, rfl⟩
          | answer attempt response =>
              rw [need_of_result hResult] at hSuits
              cases response <;> cases hSuits
      | _ => cases hResult
  | _ => exact hMeets.elim

/-- An attempt that has just taken the row ends with the lock. -/
theorem moved_of_taking {attempt : Attempt} {phase' : Cycle.Phase} {now draw : Nat} {flag : Bool}
    {stimulus : Stimulus}
    (hResult : attempt.result? = some (.ok (.acquired (handoff.row.version + 1))))
    (hMove : Cycle.Move manager cycle ⟨now, draw⟩ stimulus (.attempting attempt) phase')
    (hSuits : stimulus.suits now flag (Cycle.Phase.attempting attempt).need = true)
    (hHeld : handoff.FoundHeld pursuit) :
    phase' = .acquired (handoff.row.version + 1) ∧
      handoff.FoundHeld (pursuit.note now (.attempting attempt) phase') := by
  cases hMove with
  | win hOther =>
      rw [hResult] at hOther
      cases hOther
      refine ⟨rfl, fun result hMem hNone => ?_⟩
      rcases List.mem_append.mp hMem with hOld | hNew
      · exact hHeld result hOld hNone
      · -- The last result is no miss.
        rw [hResult, Option.toList_some, List.mem_singleton] at hNew
        subst hNew
        cases hNone
  | miss hOther hMissed =>
      rw [hResult] at hOther
      obtain rfl := Option.some.inj hOther
      exact absurd rfl (hMissed _)
  | answer attempt response =>
      rw [need_of_result hResult] at hSuits
      cases response <;> cases hSuits

/-- **A task that is not answered** goes on as its phase says. -/
theorem Stands.turned (h : handoff.Stands k pursuit changes fleet cycle.phase)
    (hDue : handoff.IsDue k) (hWaits : handoff.Waits fleet node id manager cycle)
    (hPursued : Pursued handoff.start (.start .fixed handoff.lease) pursuit
      ⟨fleet.now, false, cycle⟩)
    (hHeld : handoff.FoundHeld pursuit) {act : Fleet.Act}
    (hEnded : ∀ attempt, cycle.phase = .attempting attempt → attempt.result?.isSome = true)
    (hAct : fleet.act? node id manager cycle act = some next) :
    ∃ after moved, handoff.Waits next node id after moved ∧
      handoff.Stands k (pursuit.note fleet.now cycle.phase moved.phase)
        (changes ++ (handoff.change? fleet next).toList) next moved.phase ∧
      handoff.FoundHeld (pursuit.note fleet.now cycle.phase moved.phase) := by
  have hStep := Fleet.step_of_act? hWaits.managed hWaits.found hAct
  obtain ⟨hBase, -⟩ := hStep.frame
  obtain ⟨draw, stimulus, moved, hNow, hAfter, hMoved, hSuits, hMoves⟩ :=
    Fleet.exists_moves_of_act? hWaits.managed hWaits.found hAct
  refine ⟨_, moved, hWaits.goesOn hBase hAfter hMoves.options (hMoves.shutDown.trans hWaits.flag)
    hMoved hMoves.name hMoves.interval, ?_⟩
  have hMove := hMoves.move
  have hClock : ∀ attempt, cycle.phase = .attempting attempt →
      fleet.now = handoff.time pursuit.delays.length :=
    fun attempt hPhase => now_eq_of_attempting hPursued hPhase
  have hSame : (∀ call, cycle.phase.need ≠ .answer call) →
      next.lockRow? handoff.row.name = fleet.lockRow? handoff.row.name :=
    fun hNeed => Fleet.lockRow?_of_act? hNeed hAct _
  have hUnended : ∀ attempt, cycle.phase = .attempting attempt → pursuit.ends = [] := by
    intro attempt hPhase
    have hStands := hPursued.stands
    simp only [hPhase] at hStands
    exact hStands.of_attempting.1.unended
  generalize cycle.phase = phase at h hEnded hSuits hMove hClock hSame hUnended ⊢
  cases h with
  | awaiting hMeets hRow hChanges hCount =>
      have hFresh : ∀ attempt now, phase = .attempting attempt → now ∈ fleet.reading? →
          handoff.row.isExpired now handoff.lease = false → pursuit.delays.length < k := by
        intro attempt now hPhase hReading hFresh
        refine hDue.lt_of_fresh ?_ hCount hFresh
        rw [← hWaits.base, ← hClock attempt hPhase]
        exact hReading
      obtain ⟨hStill, hFew, hFound⟩ := moved_of_awaiting hMeets hCount hHeld hMove hSuits
        hWaits.flag hEnded hFresh next.reading?
      have hRow' := hSame (need_ne_answer hMeets hEnded)
      refine ⟨.awaiting hStill (hRow'.trans hRow) ?_ hFew, hFound⟩
      rw [hChanges, change?_of_eq hRow']
      rfl
  | @taking attempt now hResult hTime hReading hChanges hCount =>
      have hNothing := need_of_result hResult
      have hRow' := hSame fun call hEq => by
        rw [hNothing] at hEq
        cases hEq
      obtain ⟨hWon, hFound⟩ := moved_of_taking hResult hMove hSuits hHeld
      rw [hWon] at hFound ⊢
      refine ⟨.taken rfl hReading ?_ hCount ?_, hFound⟩
      · rw [hChanges]
        rfl
      · show pursuit.ends ++ [(fleet.now, PursuitEnd.acquired _)] = _
        rw [hUnended attempt rfl, hTime]
        rfl
  | taken hSettled hReading hChanges hCount hEnds =>
      rw [Pursuit.note_of_isSettled pursuit fleet.now hSettled]
      refine ⟨.taken (hMove.isSettled hSettled) hReading ?_ hCount hEnds, hHeld⟩
      rw [List.head?_append, hChanges]
      rfl

/-- **While the task rests** the hand-off stands as it did. -/
theorem Stands.rested {phase : Cycle.Phase} (h : handoff.Stands k pursuit changes fleet phase)
    (hRests : phase.need = .finished ∨ ∃ due, phase.need = .pause due)
    (hRow : next.lockRow? handoff.row.name = fleet.lockRow? handoff.row.name) :
    handoff.Stands k pursuit changes next phase := by
  have hNot : ∀ attempt, phase ≠ .attempting attempt := by
    rintro attempt rfl
    rcases hRests with hOver | ⟨due, hNeed⟩
    · exact Cycle.Need.ofRequest_ne_finished _ hOver
    · exact Cycle.Need.ofRequest_ne_pause _ _ hNeed
  cases h with
  | awaiting hMeets hBefore hChanges hCount =>
      refine .awaiting ?_ (hRow.trans hBefore) hChanges hCount
      cases phase with
      | attempting attempt => exact absurd rfl (hNot attempt)
      | _ => exact hMeets
  | taking => exact absurd rfl (hNot _)
  | taken hSettled hReading hChanges hCount hEnds =>
      exact .taken hSettled hReading hChanges hCount hEnds

/-- What leaves the task, the row and the clock alone leaves the hand-off alone. -/
theorem Stands.kept {phase : Cycle.Phase} (h : handoff.Stands k pursuit changes fleet phase)
    (hBase : next.base = fleet.base) (hNow : next.now = fleet.now)
    (hRow : next.lockRow? handoff.row.name = fleet.lockRow? handoff.row.name) :
    handoff.Stands k pursuit changes next phase := by
  cases h with
  | awaiting hMeets hBefore hChanges hCount =>
      have hReading : next.reading? = fleet.reading? := by
        rw [Fleet.reading?, hBase, hNow, Fleet.reading?]
      exact .awaiting (hReading ▸ hMeets) (hRow.trans hBefore) hChanges hCount
  | taking hResult hTime hReading hChanges hCount =>
      exact .taking hResult (hNow.trans hTime) hReading hChanges hCount
  | taken hSettled hReading hChanges hCount hEnds =>
      exact .taken hSettled hReading hChanges hCount hEnds

/-- **A calm event.**  The task is not told to leave, none of its calls fails, and nobody else
changes the row. -/
structure Calm (handoff : Handoff) (node id : Nat) (fleet : Fleet) (event : Fleet.Event)
    (next : Fleet) : Prop where
  flag : event ≠ .raiseFlag node
  calls : ∀ error, event ≠ .move node id (.fail error)
  row : (∀ act, event ≠ .move node id act) →
    next.lockRow? handoff.row.name = fleet.lockRow? handoff.row.name

/-- A run of calm events. -/
def CalmRun (handoff : Handoff) (node id : Nat) (start : Fleet) (events : List Fleet.Event) :
    Prop :=
  ∀ before event after, (before, event, after) ∈ trace Fleet.step? start events →
    handoff.Calm node id before event after

/-- How the row of the lock changes in a run, with the times. -/
def rowChanges (handoff : Handoff) (start : Fleet) (events : List Fleet.Event) :
    List (Nat × Option LockRow) :=
  Leasehold.changes Fleet.step? Fleet.now (fun fleet => fleet.lockRow? handoff.row.name) start
    events

variable {start : Fleet} {events : List Fleet.Event}

/-- The events before the last one of a calm run, and the last one, are calm. -/
theorem CalmRun.of_snoc (h : handoff.CalmRun node id start (events ++ [event]))
    (hRun : start.run? events = some fleet) (hStep : fleet.step? event = some next) :
    handoff.CalmRun node id start events ∧ handoff.Calm node id fleet event next := by
  rw [CalmRun, trace_snoc hRun hStep] at h
  exact ⟨fun before earlier after hMem => h before earlier after (List.mem_append_left _ hMem),
    h fleet event next (List.mem_append_right _ (List.mem_singleton_self _))⟩

/-- One more calm event. -/
theorem CalmRun.snoc (h : handoff.CalmRun node id start events)
    (hRun : start.run? events = some fleet) (hStep : fleet.step? event = some next)
    (hCalm : handoff.Calm node id fleet event next) :
    handoff.CalmRun node id start (events ++ [event]) := by
  intro before other after hMem
  rw [trace_snoc hRun hStep] at hMem
  rcases List.mem_append.mp hMem with hOld | hNew
  · exact h before other after hOld
  · cases List.mem_singleton.mp hNew
    exact hCalm

/-- How a calm run stands. -/
def HoldsAfter (handoff : Handoff) (k node id : Nat) (start : Fleet) (events : List Fleet.Event)
    (fleet : Fleet) : Prop :=
  handoff.Holds k node id (start.pursuit node id events) (handoff.rowChanges start events) fleet

/-- After an event it is enough to know who waits, how the hand-off stands, and what was found. -/
theorem holds_of_seen {standing : Standing}
    (hPursued : Pursued handoff.start (.start .fixed handoff.lease) pursuit
      ⟨fleet.now, false, cycle⟩)
    (hAfter : next.standing? node id = some standing)
    (hGoes : Standing.Goes ⟨fleet.now, false, cycle⟩ standing)
    (hWaits : handoff.Waits next node id after moved)
    (hStands : handoff.Stands k (pursuit.note fleet.now cycle.phase moved.phase) changes next
      moved.phase)
    (hHeld : handoff.FoundHeld (pursuit.note fleet.now cycle.phase moved.phase)) :
    handoff.Holds k node id (pursuit.seen ⟨fleet.now, false, cycle⟩ standing) changes next := by
  have hNext := hPursued.goes hGoes
  have hSeen := Fleet.standing?_of_cycle hWaits.managed hWaits.found
  rw [hWaits.flag] at hSeen
  obtain rfl := Option.some.inj (hAfter.symm.trans hSeen)
  rw [Pursuit.seen, Pursuit.look_false] at hNext ⊢
  exact ⟨⟨after, moved, hWaits, hNext, hStands⟩, hHeld⟩

/-- **Every calm event keeps the invariant.** -/
theorem HoldsAfter.snoc (h : handoff.HoldsAfter k node id start events fleet)
    (hDue : handoff.IsDue k) (hLegal : fleet.Legal) (hRun : start.run? events = some fleet)
    (hStep : fleet.step? event = some next) (hCalm : handoff.Calm node id fleet event next) :
    handoff.HoldsAfter k node id start (events ++ [event]) next := by
  obtain ⟨⟨manager, cycle, hWaits, hPursued, hStands⟩, hHeld⟩ := h
  have hBefore := Fleet.standing?_of_cycle hWaits.managed hWaits.found
  rw [hWaits.flag] at hBefore
  obtain ⟨standing, hAfter, hGoes⟩ := Fleet.goes_of_step? hStep hBefore
  have hChanges : handoff.rowChanges start (events ++ [event])
      = handoff.rowChanges start events ++ (handoff.change? fleet next).toList :=
    changes_snoc Fleet.now _ hRun hStep
  have hPursuit : start.pursuit node id (events ++ [event])
      = (start.pursuit node id events).seen ⟨fleet.now, false, cycle⟩ standing :=
    Pursuit.along_snoc hRun hStep hBefore hAfter
  rw [HoldsAfter, hPursuit, hChanges]
  cases Fleet.bears_of_step? hStep hWaits.managed hWaits.found with
  | @own act hEvent hAct =>
      subst hEvent
      by_cases hAsks : ∃ attempt, cycle.phase = .attempting attempt ∧ attempt.result? = none
      · obtain ⟨attempt, hPhase, hResult⟩ := hAsks
        obtain ⟨after, moved, hLater, hStill, hSame⟩ :=
          hStands.answered hDue hLegal hWaits hPursued hPhase hResult
            (fun error hFail => hCalm.calls error (congrArg _ hFail)) hAct
        have hFound : handoff.FoundHeld
            ((start.pursuit node id events).note fleet.now cycle.phase moved.phase) := by
          rw [FoundHeld, hSame]
          exact hHeld
        exact holds_of_seen hPursued hAfter hGoes hLater hStill hFound
      · have hEnded : ∀ attempt, cycle.phase = .attempting attempt →
            attempt.result?.isSome = true :=
          fun attempt hPhase => Option.isSome_iff_ne_none.mpr fun hNone =>
            hAsks ⟨attempt, hPhase, hNone⟩
        obtain ⟨after, moved, hLater, hStill, hFound⟩ :=
          hStands.turned hDue hWaits hPursued hHeld hEnded hAct
        exact holds_of_seen hPursued hAfter hGoes hLater hStill hFound
  | @passed nanos hEvent hRests hPassed =>
      subst hEvent hPassed
      have hRest := Fleet.rests_cases hRests hWaits.managed hWaits.found
      have hRow := hCalm.row (by simp)
      have hLater : handoff.Waits { fleet with now := fleet.now + nanos } node id manager cycle :=
        hWaits.goesOn rfl hWaits.managed rfl hWaits.flag hWaits.found rfl rfl
      refine holds_of_seen hPursued hAfter hGoes hLater ?_ ?_
      · rw [Pursuit.note_self, change?_of_eq hRow, Option.toList_none, List.append_nil]
        refine hStands.rested (hRest.imp_right ?_) hRow
        rintro ⟨due, hNeed, -⟩
        exact ⟨due, hNeed⟩
      · rw [Pursuit.note_self]
        exact hHeld
  | @other after hEvent hManager hSame hOptions hUp hDown hNow =>
      obtain ⟨hBase, -⟩ := (Fleet.step_of_step? hStep).frame
      have hRow := hCalm.row hEvent
      have hLater := hWaits.goesOn hBase hManager hOptions
        ((hDown hCalm.flag).trans hWaits.flag) hSame rfl rfl
      refine holds_of_seen hPursued hAfter hGoes hLater ?_ ?_
      · rw [Pursuit.note_self, change?_of_eq hRow, Option.toList_none, List.append_nil]
        exact hStands.kept hBase hNow hRow
      · rw [Pursuit.note_self]
        exact hHeld

/-- **The hand-off begins.**  The row is as its owner left it, and a task of a node has just begun
to want the lock, with a delay of one lease after each of its attempts. -/
structure Begins (handoff : Handoff) (node id : Nat) (start : Fleet) : Prop where
  legal : start.Legal
  now : start.now = handoff.start
  row : start.lockRow? handoff.row.name = some handoff.row
  task : ∃ manager cycle, handoff.Waits start node id manager cycle ∧ cycle.phase = .retrying ∧
    cycle.backoff = .start .fixed handoff.lease

/-- At the beginning nothing has been seen. -/
theorem Begins.holdsAfter (h : handoff.Begins node id start) :
    handoff.HoldsAfter k node id start [] start := by
  obtain ⟨manager, cycle, hWaits, hPhase, hBackoff⟩ := h.task
  have hStanding := Fleet.standing?_of_cycle hWaits.managed hWaits.found
  rw [hWaits.flag] at hStanding
  have hPursuit : start.pursuit node id [] = .nothing := by
    simp only [Fleet.pursuit, Pursuit.along, trace, List.foldl_nil, hStanding, Pursuit.look_false]
  rw [HoldsAfter, hPursuit]
  refine ⟨⟨manager, cycle, hWaits, ?_, ?_⟩, by simp [FoundHeld, Pursuit.nothing]⟩
  · have hBegin := @Pursued.begin ⟨start.now, false, cycle⟩ hPhase
    rw [Pursuit.look_false, h.now, hBackoff] at hBegin
    rw [h.now]
    exact hBegin
  · rw [hPhase]
    exact .awaiting trivial h.row rfl (Nat.zero_le _)

/-- **Every calm run keeps the invariant.** -/
theorem Begins.run (h : handoff.Begins node id start) (hDue : handoff.IsDue k)
    (hRun : start.run? events = some fleet) (hCalm : handoff.CalmRun node id start events) :
    handoff.HoldsAfter k node id start events fleet := by
  refine runs?_induction (motive := fun events fleet => handoff.CalmRun node id start events →
    handoff.HoldsAfter k node id start events fleet) (fun _ => h.holdsAfter) ?_ hRun hCalm
  intro done before event after hBefore ih hStep hAll
  obtain ⟨hEarlier, hLast⟩ := hAll.of_snoc hBefore hStep
  exact (ih hEarlier).snoc hDue (h.legal.run hBefore) hBefore hStep hLast

/-! ## The account of a hand-off -/

/-- **The account of a hand-off** that is due after `k` delays, up to a time.
* An attempt begins every lease, from the start on, until one gets the lock.
* The others find the row held by the owner that left it.
* Until the attempt after `k` delays the row is as it was left and the task has not got the lock.
* This attempt takes the row, under the next version, and nothing else ends the wait. -/
structure Account (handoff : Handoff) (k : Nat) (pursuit : Pursuit)
    (changes : List (Nat × Option LockRow)) (now : Nat) : Prop where
  begun : ∃ n ≤ k + 1, pursuit.begun = (List.range n).map handoff.time
  held : handoff.FoundHeld pursuit
  before : now < handoff.time k → changes = [] ∧ pursuit.ends = []
  first : ∀ change ∈ changes.head?, ∃ reading, handoff.base.after? (handoff.time k) = some reading ∧
    change = (handoff.time k, some (handoff.taken reading))
  won : pursuit.ends ≠ [] →
    pursuit.ends = [(handoff.time k, .acquired (handoff.row.version + 1))] ∧
      pursuit.begun.length = k + 1 ∧ changes ≠ []
  after : handoff.time k < now → pursuit.ends ≠ []

/-- The attempts that are a lease apart. -/
theorem attemptTimes_eq (hGenerated : (Backoff.start .fixed handoff.lease).Generates
    pursuit.delays) {n : Nat} (hFew : n ≤ pursuit.delays.length + 1) :
    attemptTimes handoff.start pursuit.delays n = (List.range n).map handoff.time := by
  refine List.map_congr_left fun j hMem => ?_
  have hBound := List.mem_range.mp hMem
  rw [hGenerated.eq_replicate, List.take_replicate, List.sum_replicate_nat,
    Nat.min_eq_left (by omega)]
  rfl

/-- Whoever has met one row only is in pursuit of the lock. -/
theorem isSettled_of_meets {phase : Cycle.Phase} {row : LockRow} {lease : Span}
    {reading? : Option Instant} (h : phase.Meets row lease reading?) :
    phase.isSettled = false := by
  cases phase with
  | retrying | waiting due | attempting attempt => rfl
  | _ => exact h.elim

/-- **The invariant gives the account.** -/
theorem Holds.account (h : handoff.Holds k node id pursuit changes fleet) :
    handoff.Account k pursuit changes fleet.now := by
  obtain ⟨⟨manager, cycle, hWaits, hPursued, hStands⟩, hHeld⟩ := h
  have hPursuit : pursuit.Stands handoff.start (.start .fixed handoff.lease) fleet.now
    cycle.backoff cycle.phase := hPursued.stands
  have hTime : handoff.start + pursuit.delays.sum = handoff.time pursuit.delays.length := by
    rw [hPursuit.generates.sum_eq]
    rfl
  obtain ⟨n, hFew, hBegun⟩ := hPursuit.exists_begun_eq
  rw [attemptTimes_eq hPursuit.generates hFew] at hBegun
  generalize cycle.phase = phase at hPursuit hStands
  cases hStands with
  | awaiting hMeets hRow hChanges hCount =>
      obtain ⟨hEnds, hNow⟩ := hPursuit.of_not_isSettled (isSettled_of_meets hMeets)
      have hLate : handoff.time pursuit.delays.length ≤ handoff.time k :=
        Nat.add_le_add_left (Nat.mul_le_mul_right _ hCount) _
      constructor
      · exact ⟨n, by omega, hBegun⟩
      · exact hHeld
      · exact fun _ => ⟨hChanges, hEnds⟩
      · simp [hChanges]
      · simp [hEnds]
      · intro hPassed
        omega
  | taking hResult hNow hReading hChanges hCount =>
      obtain ⟨hEnds, -⟩ := hPursuit.of_not_isSettled rfl
      constructor
      · exact ⟨n, by omega, hBegun⟩
      · exact hHeld
      · intro hEarly
        omega
      · simp [hChanges, hReading]
      · simp [hEnds]
      · intro hPassed
        omega
  | taken hSettled hReading hChanges hCount hEnds =>
      obtain ⟨hNow, hAttempts⟩ := hPursuit.of_acquired hEnds
      have hSome : changes ≠ [] := by
        rintro rfl
        cases hChanges
      constructor
      · exact ⟨n, by omega, hBegun⟩
      · exact hHeld
      · intro hEarly
        omega
      · simp [hChanges, hReading]
      · simp [hEnds, hSome, hAttempts, hCount]
      · simp [hEnds]

end Handoff
end Leasehold
