import Leasehold.Proofs.Lock.History
import Mathlib.Data.Finset.Basic

/-!
# Lost races

An attempt looks at its lock and then writes at the version that it has found.  The write
fails exactly if the version is another one by then, and versions change only by wins.  So no
race is lost to nobody, and of all attempts that have found the same version one is the first
to write.

* `Attempt.Stage.goal?`: the version at which an attempt means to have its lock.
* `Contest.Looks`, `Contest.Writes`: the two calls that decide an attempt.
* `Contest.Course`: all that can become of an attempt once it has looked.
* `Contest.Overtaken`: another attempt wins the lock between the two calls.
* `Contest.Found`: an attempt has found its lock free, expired, or its own.
* `Contest.lost_only_to_winners`: attempts that fail leave no trace, a lost race is lost to a
  winner, and one of any attempts that have found the same version wins.
-/

namespace Leasehold

namespace Attempt

/-- Whether an attempt looks at the row of its lock next. -/
def Stage.isLooking : Stage → Bool
  | .counting => true
  | .searching => true
  | _ => false

/-- Whether an attempt writes the row of its lock next. -/
def Stage.isWriting : Stage → Bool
  | .inserting _ => true
  | .replacing _ _ => true
  | _ => false

/-- The version at which an attempt that has looked means to have its lock; a free lock has
none. -/
def Stage.goal? : Stage → Option (Option Int)
  | .stamping => some none
  | .inserting _ => some none
  | .judging row => some (some row.version)
  | .claiming row => some (some row.version)
  | .replacing row _ => some (some row.version)
  | _ => none

variable {attempt : Attempt} {goal : Option Int}

theorem stage_of_result? {result : Except LockError Outcome}
    (h : attempt.result? = some result) : attempt.stage = .finished result := by
  unfold result? at h
  split at h
  · next ended hStage => rw [hStage, Option.some.inj h]
  · cases h

theorem hasWon_eq_false (h : ∀ version, attempt.result? ≠ some (.ok (.acquired version))) :
    attempt.stage.hasWon = false := by
  cases hStage : attempt.stage with
  | finished result =>
      rcases result with error | outcome
      · rfl
      · cases outcome with
        | acquired version => exact absurd (by rw [result?, hStage]) (h version)
        | heldElsewhere owner elapsed => rfl
        | lostRace => rfl
  | _ => rfl

theorem request?_of_hasWon (h : attempt.stage.hasWon = true) : attempt.request? = none := by
  cases hStage : attempt.stage with
  | finished result => simp [request?, hStage]
  | _ => simp [hStage, Stage.hasWon] at h

/-- A call of an attempt looks at its row or writes it. -/
theorem isLooking_or_isWriting {call : Call} (hRequest : attempt.request? = some (.call call)) :
    attempt.stage.isLooking = true ∨ attempt.stage.isWriting = true := by
  cases hStage : attempt.stage <;>
    simp_all [request?, Stage.isLooking, Stage.isWriting]

theorem isWriting_of_goal? {call : Call} (hRequest : attempt.request? = some (.call call))
    (hGoal : attempt.stage.goal? = some goal) : attempt.stage.isWriting = true := by
  cases hStage : attempt.stage <;>
    simp_all [request?, Stage.goal?, Stage.isWriting]

/-- An attempt that claims a row means to have its version, unless that cannot be raised. -/
theorem goal?_claim (row : LockRow) :
    (claim row).goal? = some (some row.version) ∧ (∀ other, claim row ≠ .judging other) ∨
      claim row = .finished (.error .overflow) := by
  rcases claim_cases row with ⟨-, hClaim⟩ | ⟨-, hClaim⟩
  · rw [hClaim]
    exact .inl ⟨rfl, fun _ => Stage.noConfusion⟩
  · exact .inr hClaim

/-- **The clock keeps goals.**  An attempt that has read the clock still means to have the same
version, unless that cannot be raised, or it has judged a row and found it alive. -/
theorem goal?_of_time {now : Instant} (hRequest : attempt.request? = some .time)
    (hGoal : attempt.stage.goal? = some goal) :
    ((attempt.nextStage (.time now)).goal? = some goal ∧
        ∀ row, attempt.nextStage (.time now) ≠ .judging row) ∨
      attempt.nextStage (.time now) = .finished (.error .overflow) ∨
      ∃ row, attempt.stage = .judging row ∧ row.isExpired now attempt.lease = false ∧
        attempt.nextStage (.time now)
          = .finished (.ok (.heldElsewhere row.owner (row.elapsed now))) := by
  cases hStage : attempt.stage with
  | judging row =>
      simp only [nextStage, hStage, afterJudgement]
      rw [hStage] at hGoal
      cases hExpired : row.isExpired now attempt.lease with
      | true =>
          rw [if_pos rfl]
          obtain rfl : some row.version = goal := Option.some.inj hGoal
          exact (goal?_claim row).imp_right .inl
      | false => exact .inr (.inr ⟨row, rfl, hExpired, if_neg Bool.false_ne_true⟩)
  | stamping =>
      rw [hStage] at hGoal
      simp only [nextStage, hStage]
      exact .inl ⟨hGoal, fun _ => Stage.noConfusion⟩
  | claiming row =>
      rw [hStage] at hGoal
      simp only [nextStage, hStage]
      exact .inl ⟨hGoal, fun _ => Stage.noConfusion⟩
  | counting => simp [request?, hStage] at hRequest
  | inserting now => simp [request?, hStage] at hRequest
  | searching => simp [request?, hStage] at hRequest
  | replacing row now => simp [request?, hStage] at hRequest
  | finished result => simp [request?, hStage] at hRequest

/-- An attempt that has looked means to have the version that it has found, unless that cannot be
raised; only the count of a row that is there is followed by another look, and only that look can
find no row. -/
theorem goal?_of_isLooking (hLooking : attempt.stage.isLooking = true)
    (row? : Option LockRow) :
    (attempt.stageAfter row?).goal? = some (row?.map LockRow.version) ∨
      attempt.stageAfter row? = .finished (.error .overflow) ∨
      (attempt.stage = .counting ∧ attempt.stageAfter row? = .searching ∧ row? ≠ none) ∨
      (attempt.stage = .searching ∧ row? = none) := by
  cases hStage : attempt.stage with
  | counting =>
      cases row? with
      | none => exact .inl (by simp [stageAfter, hStage, Stage.goal?])
      | some row =>
          exact .inr (.inr (.inl ⟨rfl, by simp [stageAfter, hStage], Option.some_ne_none row⟩))
  | searching =>
      cases row? with
      | none => exact .inr (.inr (.inr ⟨rfl, rfl⟩))
      | some row =>
          simp only [stageAfter, hStage]
          split
          · exact (goal?_claim row).elim (fun hGoal => .inl hGoal.1) fun hEnd => .inr (.inl hEnd)
          · exact .inl rfl
  | _ => simp [hStage, Stage.isLooking] at hLooking

theorem rowAfter_of_isLooking (hLooking : attempt.stage.isLooking = true)
    (row? : Option LockRow) : attempt.rowAfter row? = row? := by
  cases hStage : attempt.stage <;> simp_all [Stage.isLooking, rowAfter]

/-- **The write decides.**  An attempt gets its lock exactly if the version is still the one
that it means to have. -/
theorem stageAfter_of_isWriting (hWriting : attempt.stage.isWriting = true)
    (hGoal : attempt.stage.goal? = some goal) (row? : Option LockRow) :
    attempt.stageAfter row? = .finished (.ok
      (if row?.map LockRow.version = goal then .acquired (Contest.tokenAt goal)
        else .lostRace)) := by
  cases hStage : attempt.stage with
  | inserting now =>
      rw [hStage] at hGoal
      obtain rfl : none = goal := Option.some.inj hGoal
      cases row? <;> simp [stageAfter, hStage, Contest.tokenAt]
  | replacing read now =>
      rw [hStage] at hGoal
      obtain rfl : some read.version = goal := Option.some.inj hGoal
      cases row? <;> simp [stageAfter, hStage, Contest.tokenAt]
  | _ => simp [hStage, Stage.isWriting] at hWriting

end Attempt

/-- A renewal ends with its call. -/
theorem Renewal.request?_resume_of_call {renewal : Renewal} {call : Call}
    (hRequest : renewal.request? = some (.call call)) (reply : Reply) :
    (renewal.resume (.reply reply)).request? = none := by
  cases hStage : renewal.stage with
  | writing now => cases reply <;> simp [resume, hStage, afterWrite, request?]
  | stamping => simp [request?, hStage] at hRequest
  | finished result => simp [request?, hStage] at hRequest

namespace Contest

variable {start contest next : Contest} {events : List Event} {id : Nat} {name : String}
  {goal : Option Int}

/-- The attempt `id` has looked at its lock, has not written yet, and means to have the lock at
the version `goal`. -/
def Contending (contest : Contest) (id : Nat) (claimant : Claimant) (goal : Option Int) : Prop :=
  ∃ attempt, contest.errands[id]? = some (.attempt attempt) ∧ attempt.claimant = claimant ∧
    attempt.stage.goal? = some goal

/-- The attempt `id` on a lock has ended without an error. -/
def Ended (contest : Contest) (id : Nat) (name : String) (outcome : Outcome) : Prop :=
  ∃ attempt, contest.errands[id]? = some (.attempt attempt) ∧ attempt.claimant.name = name ∧
    attempt.result? = some (.ok outcome)

/-- **An attempt looks at its lock**: it counts or searches the row of its name, changes
nothing, and means to have the lock at the version that it has found. -/
structure Looks (start : Contest) (events early late : List Event) (before after : Contest)
    (id : Nat) (claimant : Claimant) (goal : Option Int) : Prop where
  occurs : Occurs step? start events early (.serve id) late before after
  looking : ∃ attempt, before.errands[id]? = some (.attempt attempt) ∧
    attempt.claimant = claimant ∧ attempt.stage.isLooking = true
  version : before.version? claimant.name = goal
  kept : after.lockRow? claimant.name = before.lockRow? claimant.name
  contending : after.Contending id claimant goal

/-- **An attempt writes its lock**, which it means to have at the version `goal`. -/
structure Writes (start : Contest) (events early late : List Event) (before after : Contest)
    (id : Nat) (claimant : Claimant) (goal : Option Int) : Prop where
  occurs : Occurs step? start events early (.serve id) late before after
  writing : ∃ attempt, before.errands[id]? = some (.attempt attempt) ∧
    attempt.claimant = claimant ∧ attempt.stage.isWriting = true ∧
    attempt.stage.goal? = some goal

theorem Looks.append {early late : List Event} {before after : Contest} {claimant : Claimant}
    (h : Looks start events early late before after id claimant goal) (more : List Event) :
    Looks start (events ++ more) early (late ++ more) before after id claimant goal :=
  { h with occurs := h.occurs.append more }

theorem Writes.append {early late : List Event} {before after : Contest} {claimant : Claimant}
    (h : Writes start events early late before after id claimant goal) (more : List Event) :
    Writes start (events ++ more) early (late ++ more) before after id claimant goal :=
  { h with occurs := h.occurs.append more }

theorem Writes.trans {early late pre post : List Event} {before after earlier later : Contest}
    {event : Event} {claimant : Claimant}
    (h : Writes after late pre post earlier later id claimant goal)
    (hOccurs : Occurs step? start events early event late before after) :
    Writes start events (early ++ event :: pre) post earlier later id claimant goal :=
  { h with occurs := hOccurs.trans h.occurs }

theorem Looks.version_after {early late : List Event} {before after : Contest}
    {claimant : Claimant} (h : Looks start events early late before after id claimant goal) :
    after.version? claimant.name = goal := by
  rw [version?, h.kept]
  exact h.version

/-! ## From the look to the end -/

/-- **All that can become of an attempt that has looked**: it has not written yet, a call has
failed, it has found the row of another owner alive, or its write has decided. -/
inductive Course (contest : Contest) (events : List Event) (id : Nat) (attempt : Attempt)
    (goal : Option Int) : Attempt.Stage → Prop where
  | underway {stage : Attempt.Stage} (hGoal : stage.goal? = some goal)
      (hJudging : ∀ row, stage = .judging row → attempt.stage = .judging row) :
      Course contest events id attempt goal stage
  | failed (error : LockError) : Course contest events id attempt goal (.finished (.error error))
  | refused {row : LockRow} (hJudging : attempt.stage = .judging row) (owner : String)
      (elapsed : Gap) :
      Course contest events id attempt goal (.finished (.ok (.heldElsewhere owner elapsed)))
  | decided {early late : List Event} {before after : Contest}
      (hWrites : Writes contest events early late before after id attempt.claimant goal) :
      Course contest events id attempt goal (.finished (.ok
        (if before.version? attempt.claimant.name = goal then .acquired (tokenAt goal)
          else .lostRace)))

/-- What becomes of an attempt that has looked, over any run. -/
theorem Legal.course (hLegal : contest.Legal) (hRun : contest.run? events = some next)
    {attempt : Attempt} (hErrand : contest.errands[id]? = some (.attempt attempt))
    (hGoal : attempt.stage.goal? = some goal) :
    ∃ stage, next.errands[id]? = some (.attempt { attempt with stage := stage }) ∧
      Course contest events id attempt goal stage := by
  refine runs?_induction
    (motive := fun events later => ∃ stage,
      later.errands[id]? = some (.attempt { attempt with stage := stage }) ∧
      Course contest events id attempt goal stage)
    ⟨attempt.stage, hErrand, .underway hGoal fun _ hJudging => hJudging⟩ ?_ hRun
  rintro events before event after hBefore ⟨stage, hAttempt, hCourse⟩ hStep
  have hEnded : ∀ result, stage = .finished result →
      after.errands[id]? = some (.attempt { attempt with stage := stage }) := by
    rintro result rfl
    exact (step_of_step? hStep).getElem?_of_ended hAttempt rfl
  cases hCourse with
  | failed error => exact ⟨_, hEnded _ rfl, .failed error⟩
  | refused hJudging owner elapsed => exact ⟨_, hEnded _ rfl, .refused hJudging owner elapsed⟩
  | decided hWrites => exact ⟨_, hEnded _ rfl, .decided (hWrites.append [event])⟩
  | underway hGoal hJudging =>
      obtain ⟨stage', hNext, hStage⟩ :=
        (hLegal.run hBefore).exists_stageStep (step_of_step? hStep) hAttempt
      refine ⟨stage', hNext, ?_⟩
      cases hStage with
      | kept hEvent => exact .underway hGoal hJudging
      | failed hEvent hRequest => exact .failed _
      | told hEvent hRequest =>
          rcases Attempt.goal?_of_time hRequest hGoal with
            ⟨hKept, hNot⟩ | hEnd | ⟨row, hRow, -, hEnd⟩
          · exact .underway hKept fun row hStage => absurd hStage (hNot row)
          · rw [hEnd]
            exact .failed _
          · rw [hEnd]
            exact .refused (hJudging row hRow) row.owner _
      | served hEvent hRequest =>
          have hWriting := Attempt.isWriting_of_goal? hRequest hGoal
          subst hEvent
          rw [Attempt.stageAfter_of_isWriting hWriting hGoal]
          exact .decided ⟨Occurs.last hBefore hStep, _, hAttempt, rfl, hWriting, hGoal⟩

/-! ## Every attempt that means to have its lock has looked -/

/-- A row that is there stays there. -/
theorem Legal.lockRow?_ne_none (hLegal : contest.Legal) {event : Event}
    (hStep : Step contest event next) (h : contest.lockRow? name ≠ none) :
    next.lockRow? name ≠ none := by
  cases hLegal.rowChange_of_step hStep name with
  | kept hRow hWins => exact hRow ▸ h
  | renewed hEvent hErrand hStage hName hRow hOwner hNext hWins =>
      exact hNext ▸ Option.some_ne_none _
  | created hEvent hErrand hStage hName hRow hNext hWins => exact hNext ▸ Option.some_ne_none _
  | taken hEvent hErrand hStage hName hRow hVersion hNext hWins =>
      exact hNext ▸ Option.some_ne_none _

/-- **Where an attempt comes from**: it has just begun, it has counted a row that is there, a
call has failed, or it has looked at its lock. -/
inductive Past (start : Contest) (events : List Event) (contest : Contest) (id : Nat)
    (attempt : Attempt) : Prop where
  | fresh (hStage : attempt.stage = .counting)
  | counted (hStage : attempt.stage = .searching)
      (hRow : contest.lockRow? attempt.claimant.name ≠ none)
  | failed {error : LockError} (hStage : attempt.stage = .finished (.error error))
  | looked {early late : List Event} {before after : Contest} {goal : Option Int}
      (hLooks : Looks start events early late before after id attempt.claimant goal)

/-- A call that looks at a lock leads on to the search, or it is a look. -/
theorem Legal.past_of_isLooking (hLegal : contest.Legal) (hRun : start.run? events = some contest)
    (hStep : contest.step? (.serve id) = some next) {attempt moved : Attempt}
    (hPast : Past start events contest id attempt)
    (hErrand : contest.errands[id]? = some (.attempt attempt))
    (hMoved : next.errands[id]? = some (.attempt moved))
    (hLooking : attempt.stage.isLooking = true) :
    Past start (events ++ [.serve id]) next id moved := by
  obtain ⟨hRow, rfl⟩ := hLegal.moved_attempt (step_of_step? hStep) rfl hErrand hMoved
  rw [Attempt.rowAfter_of_isLooking hLooking] at hRow
  rcases Attempt.goal?_of_isLooking hLooking (contest.lockRow? attempt.claimant.name) with
    hGoal | hEnd | ⟨-, hStage, hThere⟩ | ⟨hStage, hNone⟩
  · exact .looked ⟨Occurs.last hRun hStep, ⟨attempt, hErrand, rfl, hLooking⟩, rfl, hRow,
      ⟨_, hMoved, rfl, hGoal⟩⟩
  · exact .failed hEnd
  · exact .counted hStage (hRow ▸ hThere)
  · -- The row was counted before it was searched for, and rows stay.
    cases hPast with
    | fresh hCounting => simp [hStage] at hCounting
    | counted hSearching hThere => exact absurd hNone hThere
    | failed hFailed => simp [hStage] at hFailed
    | looked hLooks => exact .looked (hLooks.append [.serve id])

/-- Every attempt of a run has a past. -/
theorem Legal.past {database table : String} {memory : Memory}
    (hLegal : (around database table memory).Legal)
    (hRun : (around database table memory).run? events = some contest) {attempt : Attempt}
    (hErrand : contest.errands[id]? = some (.attempt attempt)) :
    Past (around database table memory) events contest id attempt := by
  refine runs?_induction
    (motive := fun events contest => ∀ attempt : Attempt,
      contest.errands[id]? = some (.attempt attempt) →
      Past (Contest.around database table memory) events contest id attempt)
    ?_ ?_ hRun attempt hErrand
  · intro attempt hNone
    simp [Contest.around] at hNone
  · intro events before event after hBefore hPasts hStep moved hMoved
    have hLegalBefore := hLegal.run hBefore
    rcases hLegalBefore.attempt_cases (step_of_step? hStep) hMoved with
      hCounting | ⟨attempt, hAttempt, hSame, hStage⟩
    · exact .fresh hCounting
    -- What has looked has looked for good.
    have hLooked : ∀ {early late earlier later goal},
        Looks (Contest.around database table memory) events early late earlier later id
          attempt.claimant goal →
        Past (Contest.around database table memory) (events ++ [event]) after id moved := by
      intro early late earlier later goal hLooks
      rw [hSame]
      exact .looked (hLooks.append [event])
    have hPast := hPasts attempt hAttempt
    generalize hEnd : moved.stage = stage at hStage
    cases hStage with
    | kept hEvent =>
        cases hPast with
        | fresh hFresh => exact .fresh (hEnd.trans hFresh)
        | counted hSearching hThere =>
            refine .counted (hEnd.trans hSearching) ?_
            rw [hSame]
            exact hLegalBefore.lockRow?_ne_none (step_of_step? hStep) hThere
        | failed hFailed => exact .failed (hEnd.trans hFailed)
        | looked hLooks => exact hLooked hLooks
    | failed hEvent hRequest => exact .failed hEnd
    | told hEvent hRequest =>
        cases hPast with
        | fresh hFresh => simp [Attempt.request?, hFresh] at hRequest
        | counted hSearching hThere => simp [Attempt.request?, hSearching] at hRequest
        | failed hFailed => simp [Attempt.request?, hFailed] at hRequest
        | looked hLooks => exact hLooked hLooks
    | served hEvent hRequest =>
        subst hEvent
        rcases Attempt.isLooking_or_isWriting hRequest with hLooking | hWriting
        · exact hLegalBefore.past_of_isLooking hBefore hStep hPast hAttempt hMoved hLooking
        · cases hPast with
          | fresh hFresh => simp [Attempt.Stage.isWriting, hFresh] at hWriting
          | counted hSearching hThere => simp [Attempt.Stage.isWriting, hSearching] at hWriting
          | failed hFailed => simp [Attempt.Stage.isWriting, hFailed] at hWriting
          | looked hLooks => exact hLooked hLooks

/-! ## Lost races -/

/-- **An attempt is overtaken.**  Between its look at the lock and its own write the write of
another attempt wins the lock, at the version that the attempt has found. -/
inductive Overtaken (start : Contest) (events : List Event) (id : Nat) (claimant : Claimant)
    (goal : Option Int) : Prop where
  | between {win : Win} {early late preWin postWin preWrite postWrite : List Event}
      {before after beforeWin afterWin beforeWrite afterWrite : Contest}
      (hLooks : Looks start events early late before after id claimant goal)
      (hWins : Wins start events preWin postWin beforeWin afterWin claimant.name win)
      (hWrites : Writes start events preWrite postWrite beforeWrite afterWrite id claimant goal)
      (hVersion : beforeWin.version? claimant.name = goal) (hOther : win.errand ≠ id)
      (hAfterLook : ∃ middle, preWin = early ++ .serve id :: middle)
      (hBeforeWrite : ∃ middle, preWrite = preWin ++ .serve win.errand :: middle)

/-- How an attempt that has looked can end without an error. -/
theorem Course.ok_cases {attempt : Attempt} {outcome : Outcome}
    (h : Course contest events id attempt goal (.finished (.ok outcome))) :
    (∃ row owner elapsed, attempt.stage = .judging row ∧
        outcome = .heldElsewhere owner elapsed) ∨
      outcome = .acquired (tokenAt goal) ∨
      outcome = .lostRace ∧ ∃ early late before after,
        Writes contest events early late before after id attempt.claimant goal ∧
        before.version? attempt.claimant.name ≠ goal := by
  generalize hStage : Attempt.Stage.finished (.ok outcome) = stage at h
  cases h with
  | underway hGoal hJudging => cases hStage ▸ hGoal
  | failed error => cases hStage
  | @refused row hJudging owner elapsed =>
      cases hStage
      exact .inl ⟨row, owner, elapsed, hJudging, rfl⟩
  | @decided early late before after hWrites =>
      obtain rfl := Except.ok.inj (Attempt.Stage.finished.inj hStage)
      by_cases hVersion : before.version? attempt.claimant.name = goal
      · exact .inr (.inl (if_pos hVersion))
      · exact .inr (.inr ⟨if_neg hVersion, early, late, before, after, hWrites, hVersion⟩)

section

variable {database table : String} {memory : Memory}

/-- **A race is lost to a winner.** -/
theorem Looks.overtaken {early late : List Event} {before after : Contest} {claimant : Claimant}
    (hLooks : Looks (around database table memory) events early late before after id claimant goal)
    (hLegal : (around database table memory).Legal)
    (hRun : (around database table memory).run? events = some contest)
    (hEnded : contest.Ended id claimant.name .lostRace) :
    Overtaken (around database table memory) events id claimant goal := by
  obtain ⟨attempt, hErrand, -, hResult⟩ := hEnded
  obtain ⟨looker, hLooker, rfl, hGoal⟩ := hLooks.contending
  have hLegalAfter := hLegal.run hLooks.occurs.run_after
  obtain ⟨stage, hEnd, hCourse⟩ := hLegalAfter.course (hLooks.occurs.rest hRun) hLooker hGoal
  obtain rfl : attempt = { looker with stage := stage } :=
    Errand.attempt.inj (Option.some.inj (hErrand.symm.trans hEnd))
  obtain rfl : stage = .finished (.ok .lostRace) := Attempt.stage_of_result? hResult
  rcases hCourse.ok_cases with ⟨row, owner, elapsed, -, hHeld⟩ | hWon | ⟨-, hLost⟩
  · cases hHeld
  · cases hWon
  obtain ⟨preWrite, postWrite, beforeWrite, afterWrite, hWrites, hVersion⟩ := hLost
  -- The version changes between the look and the write, so that the lock is won there.
  have hFenced := (Fenced.around looker.claimant.name).run hLegal hLooks.occurs.run_after
  rw [← hLooks.version_after] at hVersion
  obtain ⟨preWin, postWin, beforeWin, afterWin, win, hWin, hBefore⟩ :=
    hLegalAfter.exists_wins hFenced hWrites.occurs.run hVersion
  have hWinLate := hWin.append (.serve id :: postWrite)
  rw [← hWrites.occurs.split] at hWinLate
  have hWins := hWinLate.trans hLooks.occurs
  refine .between hLooks hWins (hWrites.trans hLooks.occurs) (hBefore.trans hLooks.version_after)
    ?_ ⟨preWin, rfl⟩ ⟨postWin, ?_⟩
  · -- The attempt itself has not won.
    rintro rfl
    obtain ⟨-, winner, hWinner, -, hWon⟩ :=
      ((Recorded.around.run hRun).mem_winsOf_iff _ win).mp (hWins.mem_winsOf hLegal hRun)
    rw [hErrand] at hWinner
    obtain rfl := Errand.attempt.inj (Option.some.inj hWinner)
    cases hWon
  · rw [hWin.occurs.split, List.append_assoc, List.cons_append]

/-- Every attempt that has lost a race has been overtaken. -/
theorem Legal.exists_overtaken (hLegal : (around database table memory).Legal)
    (hRun : (around database table memory).run? events = some contest) {attempt : Attempt}
    (hErrand : contest.errands[id]? = some (.attempt attempt))
    (hResult : attempt.result? = some (.ok .lostRace)) :
    ∃ goal, Overtaken (around database table memory) events id attempt.claimant goal := by
  have hStage := Attempt.stage_of_result? hResult
  cases hLegal.past hRun hErrand with
  | fresh hFresh => simp [hStage] at hFresh
  | counted hSearching hThere => simp [hStage] at hSearching
  | failed hFailed => simp [hStage] at hFailed
  | looked hLooks => exact ⟨_, hLooks.overtaken hLegal hRun ⟨attempt, hErrand, rfl, hResult⟩⟩

end

/-! ## Contenders -/

/-- **An attempt has found its lock**: it has counted no row, it has found the row of another
owner expired, or it has searched for the row and found its own.  The last argument is the
version of the row, if there is one. -/
inductive Found (start : Contest) (events : List Event) (id : Nat) (name : String) :
    Option Int → Prop where
  | free {early late : List Event} {before after : Contest} {attempt : Attempt}
      (hOccurs : Occurs step? start events early (.serve id) late before after)
      (hErrand : before.errands[id]? = some (.attempt attempt))
      (hStage : attempt.stage = .counting) (hName : attempt.claimant.name = name)
      (hRow : before.lockRow? name = none) : Found start events id name none
  | expired {early late : List Event} {before after : Contest} {attempt : Attempt}
      {row : LockRow} {now : Instant}
      (hOccurs : Occurs step? start events early (.tell id now) late before after)
      (hErrand : before.errands[id]? = some (.attempt attempt))
      (hStage : attempt.stage = .judging row) (hName : attempt.claimant.name = name)
      (hExpired : row.isExpired now attempt.lease = true) :
      Found start events id name (some row.version)
  | own {early late : List Event} {before after : Contest} {attempt : Attempt} {row : LockRow}
      (hOccurs : Occurs step? start events early (.serve id) late before after)
      (hErrand : before.errands[id]? = some (.attempt attempt))
      (hStage : attempt.stage = .searching) (hName : attempt.claimant.name = name)
      (hRow : before.lockRow? name = some row)
      (hOwner : row.owner = attempt.claimant.identity) :
      Found start events id name (some row.version)

/-- An attempt after an event of a run that leaves it no choice. -/
theorem Legal.attempt_after (hLegal : start.Legal) {early late : List Event} {event : Event}
    {before after : Contest} (hOccurs : Occurs step? start events early event late before after)
    {attempt : Attempt} (hErrand : before.errands[id]? = some (.attempt attempt))
    {stage : Attempt.Stage}
    (hOnly : ∀ other, StageStep (before.lockRow? attempt.claimant.name) event id attempt other →
      other = stage) :
    after.errands[id]? = some (.attempt { attempt with stage := stage }) := by
  obtain ⟨other, hNext, hStep⟩ :=
    (hLegal.run hOccurs.run).exists_stageStep (step_of_step? hOccurs.step) hErrand
  rw [hNext, hOnly other hStep]

/-- A claimed row leads on to a write, unless the attempt has failed in the end. -/
theorem goal?_of_claim (hRun : start.run? events = some contest) {attempt : Attempt} {row : LockRow}
    (hErrand : start.errands[id]? = some (.attempt { attempt with stage := Attempt.claim row }))
    {outcome : Outcome} (hEnded : contest.Ended id name outcome) :
    (Attempt.claim row).goal? = some (some row.version) ∧
      ∀ other, Attempt.claim row ≠ .judging other := by
  refine (Attempt.goal?_claim row).resolve_right fun hEnd => ?_
  rw [hEnd] at hErrand
  have hFailed := getElem?_of_run hRun hErrand rfl
  obtain ⟨ended, hFinal, -, hResult⟩ := hEnded
  obtain rfl := Errand.attempt.inj (Option.some.inj (hFailed.symm.trans hFinal))
  cases hResult

/-- An attempt that has found its lock, and does not fail, goes on to write it, with nothing left to
judge. -/
theorem Found.exists_goal? (hFound : Found start events id name goal) (hLegal : start.Legal)
    (hRun : start.run? events = some contest) {outcome : Outcome}
    (hEnded : contest.Ended id name outcome) :
    ∃ early event late before after attempt,
      Occurs step? start events early event late before after ∧
      after.errands[id]? = some (.attempt attempt) ∧ attempt.claimant.name = name ∧
      attempt.stage.goal? = some goal ∧ ∀ row, attempt.stage ≠ .judging row := by
  cases hFound with
  | free hOccurs hErrand hStage hName hRow =>
      have hNext := hLegal.attempt_after hOccurs hErrand fun other hStep =>
        show other = .stamping by
          rw [hStep.of_serve, hName, hRow]
          simp [Attempt.stageAfter, hStage]
      exact ⟨_, _, _, _, _, _, hOccurs, hNext, hName, rfl, fun _ => Attempt.Stage.noConfusion⟩
  | @expired _ _ _ _ _ row now hOccurs hErrand hStage hName hExpired =>
      have hNext := hLegal.attempt_after hOccurs hErrand fun other hStep =>
        show other = Attempt.claim row by
          rw [hStep.of_tell]
          simp [Attempt.nextStage, hStage, Attempt.afterJudgement, hExpired]
      exact ⟨_, _, _, _, _, _, hOccurs, hNext, hName,
        goal?_of_claim (hOccurs.rest hRun) hNext hEnded⟩
  | @own _ _ _ _ _ row hOccurs hErrand hStage hName hRow hOwner =>
      have hNext := hLegal.attempt_after hOccurs hErrand fun other hStep =>
        show other = Attempt.claim row by
          rw [hStep.of_serve, hName, hRow]
          simp [Attempt.stageAfter, hStage, LockRow.isOwnedBy, hOwner]
      exact ⟨_, _, _, _, _, _, hOccurs, hNext, hName,
        goal?_of_claim (hOccurs.rest hRun) hNext hEnded⟩

/-- An attempt that has found its lock gets it at the next token or loses a race, unless it
fails. -/
theorem Found.outcome_cases (hFound : Found start events id name goal) (hLegal : start.Legal)
    (hRun : start.run? events = some contest) {outcome : Outcome}
    (hEnded : contest.Ended id name outcome) :
    outcome = .acquired (tokenAt goal) ∨ outcome = .lostRace := by
  obtain ⟨early, event, late, before, after, attempt, hOccurs, hErrand, -, hGoal, hNot⟩ :=
    hFound.exists_goal? hLegal hRun hEnded
  obtain ⟨stage, hEnd, hCourse⟩ :=
    (hLegal.run hOccurs.run_after).course (hOccurs.rest hRun) hErrand hGoal
  obtain ⟨ended, hFinal, -, hResult⟩ := hEnded
  obtain rfl : ended = { attempt with stage := stage } :=
    Errand.attempt.inj (Option.some.inj (hFinal.symm.trans hEnd))
  obtain rfl : stage = .finished (.ok outcome) := Attempt.stage_of_result? hResult
  rcases hCourse.ok_cases with ⟨row, -, -, hJudging, -⟩ | hWon | ⟨hLost, -⟩
  · exact absurd hJudging (hNot row)
  · exact .inl hWon
  · exact .inr hLost

section

variable {database table : String} {memory : Memory}

/-- Every attempt that means to have its lock at a version has looked at it. -/
theorem Legal.exists_looks (hLegal : (around database table memory).Legal)
    (hRun : (around database table memory).run? events = some contest) {attempt : Attempt}
    (hErrand : contest.errands[id]? = some (.attempt attempt))
    (hGoal : attempt.stage.goal? = some goal) :
    ∃ early late before after, Looks (around database table memory) events early late before
      after id attempt.claimant goal := by
  cases hLegal.past hRun hErrand with
  | fresh hFresh => simp [hFresh, Attempt.Stage.goal?] at hGoal
  | counted hSearching hThere => simp [hSearching, Attempt.Stage.goal?] at hGoal
  | failed hFailed => simp [hFailed, Attempt.Stage.goal?] at hGoal
  | @looked early late before after seen hLooks =>
      -- The version has stayed the one that the attempt has found.
      obtain ⟨looker, hLooker, hClaimant, hSeen⟩ := hLooks.contending
      obtain ⟨stage, hEnd, hCourse⟩ :=
        (hLegal.run hLooks.occurs.run_after).course (hLooks.occurs.rest hRun) hLooker hSeen
      obtain rfl : attempt = { looker with stage := stage } :=
        Errand.attempt.inj (Option.some.inj (hErrand.symm.trans hEnd))
      cases hCourse with
      | underway hKept hJudging =>
          obtain rfl : goal = seen := Option.some.inj (hGoal.symm.trans hKept)
          exact ⟨early, late, before, after, hLooks⟩
      | failed error => cases hGoal
      | refused hJudging owner elapsed => cases hGoal
      | decided hWrites => cases hGoal

theorem Found.exists_looks (hFound : Found (around database table memory) events id name goal)
    (hLegal : (around database table memory).Legal)
    (hRun : (around database table memory).run? events = some contest) {outcome : Outcome}
    (hEnded : contest.Ended id name outcome) :
    ∃ early late before after claimant, claimant.name = name ∧
      Looks (around database table memory) events early late before after id claimant goal := by
  obtain ⟨early, event, late, before, after, attempt, hOccurs, hErrand, hName, hGoal, -⟩ :=
    hFound.exists_goal? hLegal hRun hEnded
  obtain ⟨pre, post, first, last, hLooks⟩ :=
    hLegal.exists_looks hOccurs.run_after hErrand hGoal
  have hLonger := hLooks.append late
  rw [List.append_assoc, List.singleton_append, ← hOccurs.split] at hLonger
  exact ⟨pre, _, first, last, attempt.claimant, hName, hLonger⟩

/-- **Contenders meet.**  An attempt that has looked at a lock and that does not end with an
error or with the row of another owner is under way whenever the lock is won at the version
that it has found. -/
theorem Looks.contending_of_wins {early late preWin postWin : List Event}
    {before after beforeWin afterWin : Contest} {claimant : Claimant} {win : Win}
    (hLooks : Looks (around database table memory) events early late before after id claimant goal)
    (hWins : Wins (around database table memory) events preWin postWin beforeWin afterWin
      claimant.name win)
    (hLegal : (around database table memory).Legal)
    (hRun : (around database table memory).run? events = some contest)
    (hVersion : beforeWin.version? claimant.name = goal)
    (hEnded : contest.Ended id claimant.name (.acquired (tokenAt goal)) ∨
      contest.Ended id claimant.name .lostRace) :
    beforeWin.Contending id claimant goal := by
  have hFenced : ∀ {events contest}, (around database table memory).run? events = some contest →
      Fenced (memory.lockRow? (lockSpace database table) claimant.name) contest claimant.name :=
    fun hReached => (Fenced.around claimant.name).run hLegal hReached
  have hFencedWin := hFenced hWins.occurs.run
  -- At the look and at the win the lock has been won as often.
  have hLength : (before.winsOf claimant.name).length = (beforeWin.winsOf claimant.name).length :=
    ((hFenced hLooks.occurs.run).version?_eq_iff hFencedWin).mp
      (hLooks.version.trans hVersion.symm)
  have hLengthAfter :
      (after.winsOf claimant.name).length = (beforeWin.winsOf claimant.name).length :=
    ((hFenced hLooks.occurs.run_after).version?_eq_iff hFencedWin).mp
      (hLooks.version_after.trans hVersion.symm)
  have hMore : (afterWin.winsOf claimant.name).length
      = (beforeWin.winsOf claimant.name).length + 1 := by
    rw [hWins.winsOf, List.length_append, List.length_singleton]
  rcases hLooks.occurs.order hWins.occurs with
    ⟨-, -, hSame⟩ | ⟨middle, hMiddle⟩ | ⟨middle, hMiddle⟩
  · rw [hSame] at hLengthAfter
    omega
  · -- The win comes after the look.
    have hBetween := hLooks.occurs.between hWins.occurs hMiddle
    have hLegalAfter := hLegal.run hLooks.occurs.run_after
    obtain ⟨looker, hLooker, rfl, hGoal⟩ := hLooks.contending
    obtain ⟨stage, hStage, hCourse⟩ := hLegalAfter.course hBetween.run hLooker hGoal
    have hFinal : (Errand.attempt { looker with stage := stage }).request? = none →
        contest.errands[id]? = some (.attempt { looker with stage := stage }) := fun hDone =>
      getElem?_of_run (hWins.occurs.rest_before hRun) hStage hDone
    cases hCourse with
    | underway hKept hJudging => exact ⟨_, hStage, rfl, hKept⟩
    | failed error =>
        have hFailed := hFinal rfl
        rcases hEnded with ⟨ended, hEnd, -, hResult⟩ | ⟨ended, hEnd, -, hResult⟩ <;>
          · obtain rfl := Errand.attempt.inj (Option.some.inj (hFailed.symm.trans hEnd))
            cases hResult
    | refused hJudging owner elapsed =>
        have hRefused := hFinal rfl
        rcases hEnded with ⟨ended, hEnd, -, hResult⟩ | ⟨ended, hEnd, -, hResult⟩ <;>
          · obtain rfl := Errand.attempt.inj (Option.some.inj (hRefused.symm.trans hEnd))
            cases hResult
    | @decided preWrite postWrite beforeWrite afterWrite hWrites =>
        exfalso
        by_cases hKept : beforeWrite.version? looker.claimant.name = goal
        · -- It has won itself, so that the version is another one by now.
          rw [if_pos hKept] at hStage
          have hWon : ⟨id, looker.claimant, tokenAt goal⟩ ∈ beforeWin.winsOf looker.claimant.name :=
            ((Recorded.around.run hWins.occurs.run).mem_winsOf_iff _ _).mpr
              ⟨rfl, _, hStage, rfl, rfl⟩
          have hLt := hFencedWin.version_lt hWon
          rw [hVersion] at hLt
          exact absurd hLt (Int.lt_irrefl _)
        · -- Nobody has won since the look, so that the version is still the same.
          have hWriteRun := hWrites.occurs.run
          have hWinRun := hWrites.occurs.rest_before hBetween.run
          have hUp := hLegalAfter.length_winsOf_le hWriteRun looker.claimant.name
          have hDown := (hLegalAfter.run hWriteRun).length_winsOf_le hWinRun looker.claimant.name
          have hFencedWrite :=
            (hFenced hLooks.occurs.run_after).run hLegalAfter hWriteRun
          refine hKept (((hFencedWrite.version?_eq_iff hFencedWin).mpr ?_).trans hVersion)
          omega
  · -- The win comes before the look.
    have hBetween := hWins.occurs.between hLooks.occurs hMiddle
    have hLe := (hLegal.run hWins.occurs.run_after).length_winsOf_le hBetween.run claimant.name
    omega

end

/-! ## Attempts that fail -/

/-- **No trace.**  Whatever happens to an attempt that has not got its lock leaves all rows of
the store as they are. -/
theorem Legal.rows_of_not_hasWon (hLegal : start.Legal) {early late : List Event} {event : Event}
    {before after : Contest} (hOccurs : Occurs step? start events early event late before after)
    (hRun : start.run? events = some contest) {attempt : Attempt}
    (hErrand : contest.errands[id]? = some (.attempt attempt))
    (hNot : attempt.stage.hasWon = false) (hEvent : event.errand? = some id) (space : Space) :
    after.memory.rows space = before.memory.rows space := by
  have hStep := step_of_step? hOccurs.step
  by_cases hServed : event = .serve id
  · subst hServed
    have hFinal : ∀ {errand : Errand}, after.errands[id]? = some errand → errand.request? = none →
        errand = .attempt attempt := by
      intro errand hMoved hEnded
      have hLast := getElem?_of_run (hOccurs.rest hRun) hMoved hEnded
      exact Option.some.inj (hLast.symm.trans hErrand)
    generalize hAfter : after = later at hStep
    cases hStep with
    | @serve _ errand call hFound hRequest =>
        obtain ⟨hBound, -⟩ := List.getElem?_eq_some_iff.mp hFound
        subst hAfter
        have hMoved : (before.served id errand call).errands[id]?
            = some (errand.resume (.reply (before.memory.perform call).1)) :=
          List.getElem?_set_self hBound
        refine Memory.rows_perform_of_not_wrote before.memory call ?_ space
        cases errand with
        | renewal renewal =>
            cases hFinal hMoved (Renewal.request?_resume_of_call hRequest _)
        | lookup lookup =>
            obtain ⟨owner, result⟩ := lookup
            cases result <;> cases hRequest
            rfl
        | attempt mover =>
            have hLegalBefore := hLegal.run hOccurs.run
            obtain ⟨reply, memory, hPerform, -, hStage, hWrote⟩ :=
              Attempt.perform_eq (hLegalBefore.claimant_space hFound) hLegalBefore.locks rfl
                hRequest
            rw [hPerform] at hMoved ⊢
            rw [hWrote, ← hStage]
            cases hWon : (mover.nextStage (.reply reply)).hasWon with
            | false => rfl
            | true =>
                -- An attempt that gets its lock has ended with it.
                have hEnded : (mover.resume (.reply reply)).request? = none :=
                  Attempt.request?_of_hasWon hWon
                obtain rfl := Errand.attempt.inj (hFinal hMoved hEnded)
                exact hWon.symm.trans hNot
  · have hSame := hStep.memory_eq fun other hOther => hServed (by
      rw [hOther] at hEvent ⊢
      exact congrArg Event.serve (Option.some.inj hEvent))
    rw [hSame]

/-! ## One winner -/

/-- No two attempts end with one lock at the same version. -/
theorem Fenced.eq_of_ended {start? : Option LockRow} (hFenced : Fenced start? contest name)
    (hRecorded : contest.Recorded) {other : Nat} {version : Int}
    (hEnded : contest.Ended id name (.acquired version))
    (hOther : contest.Ended other name (.acquired version)) : id = other := by
  obtain ⟨attempt, hErrand, hName, hResult⟩ := hEnded
  obtain ⟨rival, hRival, hRivalName, hRivalResult⟩ := hOther
  have hWin : (⟨id, attempt.claimant, version⟩ : Win) ∈ contest.winsOf name :=
    (hRecorded.mem_winsOf_iff name _).mpr ⟨hName, attempt, hErrand, rfl, hResult⟩
  have hRivalWin : (⟨other, rival.claimant, version⟩ : Win) ∈ contest.winsOf name :=
    (hRecorded.mem_winsOf_iff name _).mpr ⟨hRivalName, rival, hRival, rfl, hRivalResult⟩
  exact congrArg Win.errand (hFenced.win_eq hWin hRivalWin rfl)

/-- **A race has a winner.**  If one of some attempts that have found a lock at one version
loses its race, and nobody else wins the lock while all of them are under way, then one of
them wins it. -/
theorem Legal.exists_winner {database table : String} {memory : Memory}
    (hLegal : (around database table memory).Legal)
    (hRun : (around database table memory).run? events = some contest) {contenders : Finset Nat}
    (hFound : ∀ id ∈ contenders, Found (around database table memory) events id name goal)
    (hEnded : ∀ id ∈ contenders, contest.Ended id name (.acquired (tokenAt goal)) ∨
      contest.Ended id name .lostRace)
    (hAlone : ∀ early late before after win,
      Wins (around database table memory) events early late before after name win →
      win.errand ∉ contenders →
      ∃ id ∈ contenders, ¬ ∃ claimant, before.Contending id claimant goal)
    {loser : Nat} (hLoser : loser ∈ contenders) (hLost : contest.Ended loser name .lostRace) :
    ∃ winner ∈ contenders, contest.Ended winner name (.acquired (tokenAt goal)) := by
  obtain ⟨_, _, _, _, claimant, rfl, hLooks⟩ :=
    (hFound loser hLoser).exists_looks hLegal hRun hLost
  cases hLooks.overtaken hLegal hRun hLost with
  | @between win _ _ _ _ _ _ _ _ beforeWin _ _ _ _ hWins _ hVersion _ _ _ =>
      have hUnderway : ∀ id ∈ contenders, ∃ rival, beforeWin.Contending id rival goal := by
        intro id hId
        obtain ⟨outcome, hEnd⟩ : ∃ outcome, contest.Ended id claimant.name outcome :=
          (hEnded id hId).elim (fun hWon => ⟨_, hWon⟩) fun hRaced => ⟨_, hRaced⟩
        obtain ⟨_, _, _, _, rival, hName, hRival⟩ :=
          (hFound id hId).exists_looks hLegal hRun hEnd
        rw [← hName] at hWins hVersion
        refine ⟨rival, hRival.contending_of_wins hWins hLegal hRun hVersion ?_⟩
        rw [hName]
        exact hEnded id hId
      have hMember : win.errand ∈ contenders := by
        by_contra hOutside
        obtain ⟨id, hId, hNot⟩ := hAlone _ _ _ _ win hWins hOutside
        exact hNot (hUnderway id hId)
      refine ⟨win.errand, hMember, ?_⟩
      rcases hEnded win.errand hMember with hWon | ⟨attempt, hErrand, -, hResult⟩
      · exact hWon
      · -- The attempt has won, and so has not lost a race.
        obtain ⟨-, winner, hWinner, -, hWon⟩ :=
          ((Recorded.around.run hRun).mem_winsOf_iff _ win).mp (hWins.mem_winsOf hLegal hRun)
        rw [hErrand] at hWinner
        obtain rfl := Errand.attempt.inj (Option.some.inj hWinner)
        rw [hResult] at hWon
        cases hWon

/-- **Failed attempts leave no trace and are never spurious.**  Take any run on a table of
locks.

* Nothing that happens to an attempt changes a row of the store, unless the attempt has got
  its lock.
* An attempt that has lost a race was overtaken: between its look at the lock and its own
  write another attempt won the lock.
* Take attempts that have all found one lock free, or with one version (expired, or their
  own), and that have all ended without an error; and let nobody else win the lock while all
  of them are under way.  One of them gets the lock at the next token, and all others lose the
  race. -/
theorem lost_only_to_winners {database table : String} {memory : Memory}
    (hLocks : memory.HoldsLocks (lockSpace database table)) {events : List Event}
    {contest : Contest} (hRun : (around database table memory).run? events = some contest) :
    let start := around database table memory
    (∀ (id : Nat) (attempt : Attempt), contest.errands[id]? = some (.attempt attempt) →
      (∀ version, attempt.result? ≠ some (.ok (.acquired version))) →
      ∀ early event late before after,
        Occurs step? start events early event late before after → event.errand? = some id →
        ∀ space, after.memory.rows space = before.memory.rows space) ∧
      (∀ (id : Nat) (attempt : Attempt), contest.errands[id]? = some (.attempt attempt) →
        attempt.result? = some (.ok .lostRace) →
        ∃ goal, Overtaken start events id attempt.claimant goal) ∧
      ∀ (contenders : Finset Nat) (name : String) (goal : Option Int), contenders.Nonempty →
        (∀ id ∈ contenders, Found start events id name goal) →
        (∀ id ∈ contenders, ∃ outcome, contest.Ended id name outcome) →
        (∀ early late before after win, Wins start events early late before after name win →
          win.errand ∉ contenders →
          ∃ id ∈ contenders, ¬ ∃ claimant, before.Contending id claimant goal) →
        ∃ winner ∈ contenders, contest.Ended winner name (.acquired (tokenAt goal)) ∧
          ∀ other ∈ contenders, other ≠ winner → contest.Ended other name .lostRace := by
  intro start
  have hLegal : start.Legal := legal_around hLocks
  refine ⟨?_, ?_, ?_⟩
  · intro id attempt hErrand hNot early event late before after hOccurs hEvent space
    exact hLegal.rows_of_not_hasWon hOccurs hRun hErrand (Attempt.hasWon_eq_false hNot) hEvent space
  · intro id attempt hErrand hResult
    exact hLegal.exists_overtaken hRun hErrand hResult
  · intro contenders name goal hNonempty hFound hEnded hAlone
    have hOutcome : ∀ id ∈ contenders, contest.Ended id name (.acquired (tokenAt goal)) ∨
        contest.Ended id name .lostRace := by
      intro id hId
      obtain ⟨outcome, hEnd⟩ := hEnded id hId
      rcases (hFound id hId).outcome_cases hLegal hRun hEnd with rfl | rfl
      · exact .inl hEnd
      · exact .inr hEnd
    have hWinner : ∃ winner ∈ contenders,
        contest.Ended winner name (.acquired (tokenAt goal)) := by
      obtain ⟨first, hFirst⟩ := hNonempty
      rcases hOutcome first hFirst with hWon | hLost
      · exact ⟨first, hFirst, hWon⟩
      · exact hLegal.exists_winner hRun hFound hOutcome hAlone hFirst hLost
    obtain ⟨winner, hMember, hWon⟩ := hWinner
    refine ⟨winner, hMember, hWon, fun other hOther hNe => ?_⟩
    have hFenced := (Fenced.around name).run hLegal hRun
    rcases hOutcome other hOther with hAlso | hLost
    · exact absurd (hFenced.eq_of_ended (Recorded.around.run hRun) hAlso hWon) hNe
    · exact hLost

/-- Two nodes read an expired row, judge it and race for it while its owner renews it too
late. -/
def contestedTakeover : List Event := expiredRace.take 15

theorem winner_of_contestedTakeover :
    heldStore.HoldsLocks standardLockSpace ∧
      ∃ contest, heldTable.run? contestedTakeover = some contest ∧
        (∃ goal, Overtaken heldTable contestedTakeover 0 ⟨standardLockSpace, "b", "job"⟩ goal) ∧
        ∃ winner ∈ ({0, 1} : Finset Nat), contest.Ended winner "job" (.acquired 8) ∧
          ∀ other ∈ ({0, 1} : Finset Nat), other ≠ winner →
            contest.Ended other "job" .lostRace := by
  have hLocks : heldStore.HoldsLocks standardLockSpace :=
    Memory.holdsLocks_ofLocks (List.pairwise_singleton _ _)
  have hRuns : (heldTable.run? contestedTakeover).isSome = true := by decide
  obtain ⟨contest, hRun⟩ := Option.isSome_iff_exists.mp hRuns
  have hFirst : ((heldTable.run? contestedTakeover).bind fun contest => contest.errands[0]?)
      = some (.attempt ⟨⟨standardLockSpace, "b", "job"⟩, .ofSeconds 10,
        .finished (.ok .lostRace)⟩) := by rfl
  have hSecond : ((heldTable.run? contestedTakeover).bind fun contest => contest.errands[1]?)
      = some (.attempt ⟨⟨standardLockSpace, "c", "job"⟩, .ofSeconds 10,
        .finished (.ok (.acquired 8))⟩) := by rfl
  have hWins : (heldTable.run? contestedTakeover).map (fun contest => contest.winsOf "job")
      = some [⟨1, ⟨standardLockSpace, "c", "job"⟩, 8⟩] := by decide
  rw [hRun] at hFirst hSecond hWins
  have hFound : ∀ id ∈ ({0, 1} : Finset Nat),
      Found heldTable contestedTakeover id "job" (some 7) := by
    have hExpired : LockRow.isExpired ⟨"job", 7, "a", ⟨0, 0⟩⟩ ⟨11, 0⟩ (.ofSeconds 10) = true := by
      decide
    have hJudges : ∀ (k id : Nat) (identity : String),
        contestedTakeover = contestedTakeover.take k
          ++ .tell id ⟨11, 0⟩ :: contestedTakeover.drop (k + 1) →
        ((heldTable.run? (contestedTakeover.take k)).bind fun contest => contest.errands[id]?)
          = some (.attempt ⟨⟨standardLockSpace, identity, "job"⟩, .ofSeconds 10,
            .judging ⟨"job", 7, "a", ⟨0, 0⟩⟩⟩) →
        Found heldTable contestedTakeover id "job" (some 7) := by
      intro k id identity hSplit hErrand
      obtain ⟨before, after, hOccurs⟩ := Occurs.exists_of_run hSplit hRun
      rw [run?, hOccurs.run] at hErrand
      exact .expired hOccurs hErrand rfl rfl hExpired
    intro id hId
    rcases Finset.mem_insert.mp hId with rfl | hLast
    · exact hJudges 7 0 "b" (by rfl) (by rfl)
    · obtain rfl := Finset.mem_singleton.mp hLast
      exact hJudges 8 1 "c" (by rfl) (by rfl)
  have hEnded : ∀ id ∈ ({0, 1} : Finset Nat), ∃ outcome, contest.Ended id "job" outcome := by
    intro id hId
    rcases Finset.mem_insert.mp hId with rfl | hLast
    · exact ⟨_, _, hFirst, rfl, rfl⟩
    · obtain rfl := Finset.mem_singleton.mp hLast
      exact ⟨_, _, hSecond, rfl, rfl⟩
  obtain ⟨-, hOvertaken, hWinner⟩ := lost_only_to_winners hLocks hRun
  refine ⟨hLocks, contest, hRun, hOvertaken 0 _ hFirst rfl, ?_⟩
  refine hWinner {0, 1} "job" (some 7) ⟨0, by decide⟩ hFound hEnded ?_
  -- The only win of the run is one of a contender.
  intro early late before after win hWin hOutside
  have hMember := hWin.mem_winsOf (legal_around hLocks) hRun
  have hOnly : contest.winsOf "job" = [⟨1, ⟨standardLockSpace, "c", "job"⟩, 8⟩] :=
    Option.some.inj hWins
  rw [hOnly, List.mem_singleton] at hMember
  subst hMember
  exact absurd (by decide) hOutside

end Contest
end Leasehold
