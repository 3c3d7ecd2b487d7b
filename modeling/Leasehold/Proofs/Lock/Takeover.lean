import Leasehold.Proofs.Lock.Contest
import Leasehold.Proofs.Time.Elapsed

/-!
# Takeovers

A node takes the row of another owner over at the version that it has read.  The verdict
that the lease is over was passed on the row as it was read; what the owner wrote since
then without raising the version, that is a renewal, does not keep the row.

* `Contest.RenewedBy`: an identity has renewed a lock during some events.
* `Contest.Follows`: what a row has become since it was read.
* `Contest.Sighting`: what a run says of an attempt that has read a row.
* `Contest.OnClock`: a run with the value of one clock at each of its events.
* `Contest.takeover_of_expired`: every change of owner goes back to a row that was read and
  found expired, and differs from it at most by renewals since then.
* `Contest.live_row_taken`: such a renewal can be overwritten, so that the row that is lost
  need not have expired.
-/

namespace Leasehold

namespace Attempt

/-- The row that an attempt at a stage has read and may still take. -/
def Stage.seen? : Stage → Option LockRow
  | .judging row => some row
  | .claiming row => some row
  | .replacing row _ => some row
  | _ => none

variable {attempt : Attempt} {read : LockRow}

/-- A row that is claimed is the one that may still be taken, if its version can be raised. -/
theorem seen?_claim {row : LockRow} (h : (claim row).seen? = some read) :
    row = read ∧ row.isRaisable = true := by
  rcases claim_cases row with ⟨hRaisable, hClaim⟩ | ⟨-, hClaim⟩
  · rw [hClaim] at h
    exact ⟨Option.some.inj h, hRaisable⟩
  · rw [hClaim] at h
    cases h

/-- An attempt that has read the clock still means to take a row if it has just found the
row expired, or if it was about to claim it. -/
theorem seen?_of_time {now : Instant} (hRequest : attempt.request? = some .time)
    (h : (attempt.nextStage (.time now)).seen? = some read) :
    attempt.stage = .judging read ∧ read.isExpired now attempt.lease = true ∧
        read.isRaisable = true ∨
      attempt.stage = .claiming read := by
  cases hStage : attempt.stage with
  | judging row =>
      simp only [nextStage, hStage, afterJudgement] at h
      cases hExpired : row.isExpired now attempt.lease with
      | true =>
          rw [hExpired, if_pos rfl] at h
          obtain ⟨rfl, hRaisable⟩ := seen?_claim h
          exact .inl ⟨rfl, hExpired, hRaisable⟩
      | false =>
          rw [hExpired, if_neg Bool.false_ne_true] at h
          cases h
  | claiming row =>
      simp only [nextStage, hStage] at h
      obtain rfl : row = read := Option.some.inj h
      exact .inr rfl
  | stamping => simp [nextStage, hStage, Stage.seen?] at h
  | counting => simp [request?, hStage] at hRequest
  | inserting now => simp [request?, hStage] at hRequest
  | searching => simp [request?, hStage] at hRequest
  | replacing row now => simp [request?, hStage] at hRequest
  | finished result => simp [request?, hStage] at hRequest

/-- An attempt reads a row by the search for it, which changes nothing. -/
theorem seen?_of_call {call : Call} {row? : Option LockRow}
    (hRequest : attempt.request? = some (.call call))
    (h : (attempt.stageAfter row?).seen? = some read) :
    row? = some read ∧ attempt.rowAfter row? = row? ∧
      (attempt.stageAfter row? = .judging read ∨ read.owner = attempt.claimant.identity) := by
  cases hStage : attempt.stage with
  | searching =>
      cases row? with
      | none => simp [stageAfter, hStage, Stage.seen?] at h
      | some row =>
          simp only [stageAfter, hStage, rowAfter] at h ⊢
          cases hOwn : row.isOwnedBy attempt.claimant.identity with
          | true =>
              rw [hOwn, if_pos rfl] at h
              obtain ⟨rfl, -⟩ := seen?_claim h
              exact ⟨rfl, trivial, .inr (eq_of_beq hOwn)⟩
          | false =>
              rw [hOwn, if_neg Bool.false_ne_true] at h
              obtain rfl : row = read := Option.some.inj h
              exact ⟨rfl, trivial, .inl rfl⟩
  | counting => cases row? <;> simp [stageAfter, hStage, Stage.seen?] at h
  | inserting now => cases row? <;> simp [stageAfter, hStage, Stage.seen?] at h
  | replacing row now => cases row? <;> simp [stageAfter, hStage, Stage.seen?] at h
  | stamping => simp [request?, hStage] at hRequest
  | judging row => simp [request?, hStage] at hRequest
  | claiming row => simp [request?, hStage] at hRequest
  | finished result => simp [request?, hStage] at hRequest

/-- An attempt whose call has failed takes no row any more. -/
theorem seen?_of_error {call : Call} (hRequest : attempt.request? = some (.call call))
    (error : StoreError) : (attempt.nextStage (.reply (.error error))).seen? = none := by
  cases hStage : attempt.stage <;>
    simp_all [request?, nextStage, afterCount, afterInsert, afterSearch, afterReplace, Stage.seen?]

end Attempt

namespace Contest

/-! ## What becomes of a row that was read -/

/-- An identity has renewed a lock while some events happened. -/
def RenewedBy (contest : Contest) (events : List Event) (name identity : String) : Prop :=
  ∃ id renewal, .serve id ∈ events ∧ contest.errands[id]? = some (.renewal renewal) ∧
    renewal.claimant.name = name ∧ renewal.claimant.identity = identity ∧
    renewal.result? = some (.ok true)

/-- **What a row becomes.**  After some events a row that was read is there at the same or a
later version; at the same version it has its owner, and only renewals can have changed
it. -/
def Follows (contest : Contest) (events : List Event) (name : String) (read : LockRow) : Prop :=
  ∃ row, contest.lockRow? name = some row ∧ read.version ≤ row.version ∧
    (row.version = read.version →
      row.owner = read.owner ∧ (row = read ∨ RenewedBy contest events name row.owner))

theorem RenewedBy.step {contest next : Contest} {events : List Event} {event : Event}
    {name identity : String} (h : RenewedBy contest events name identity)
    (hStep : Step contest event next) : RenewedBy next (events ++ [event]) name identity := by
  obtain ⟨id, renewal, hServed, hErrand, hName, hIdentity, hResult⟩ := h
  have hEnded : (Errand.renewal renewal).request? = none := by
    unfold Renewal.result? at hResult
    split at hResult
    · next result hStage => simp [Errand.request?, Renewal.request?, hStage]
    · cases hResult
  exact ⟨id, renewal, List.mem_append_left _ hServed, hStep.getElem?_of_ended hErrand hEnded,
    hName, hIdentity, hResult⟩

/-- A renewal that finds its row renews it. -/
theorem Legal.renewedBy_of_served {contest next : Contest} (hLegal : contest.Legal) {id : Nat}
    {renewal : Renewal} {now : Instant} {row : LockRow}
    (hStep : Step contest (.serve id) next)
    (hErrand : contest.errands[id]? = some (.renewal renewal))
    (hStage : renewal.stage = .writing now)
    (hRow : contest.lockRow? renewal.claimant.name = some row)
    (hOwner : row.owner = renewal.claimant.identity) (events : List Event) :
    RenewedBy next (events ++ [.serve id]) renewal.claimant.name row.owner := by
  cases hStep with
  | @serve _ errand call hFound hRequest =>
      obtain rfl : errand = .renewal renewal := Option.some.inj (hFound.symm.trans hErrand)
      obtain ⟨-, hNext⟩ := hLegal.served_renewal hErrand hRequest
      obtain ⟨hBound, -⟩ := List.getElem?_eq_some_iff.mp hErrand
      refine ⟨id, { renewal with stage := .finished (.ok true) },
        List.mem_append_right _ (List.mem_singleton_self _), ?_, rfl, hOwner.symm, rfl⟩
      have hDone : renewal.stageAfter (contest.lockRow? renewal.claimant.name)
          = .finished (.ok true) := by
        simp [Renewal.stageAfter, hStage, hRow, hOwner]
      rw [hNext, hDone]
      exact List.getElem?_set_self hBound

/-- Every event leaves a row that was read behind in the same way. -/
theorem Follows.step {contest next : Contest} {events : List Event} {event : Event}
    {name : String} {read : LockRow} (h : Follows contest events name read)
    (hLegal : contest.Legal) (hStep : Step contest event next) :
    Follows next (events ++ [event]) name read := by
  obtain ⟨row, hRow, hVersion, hSame⟩ := h
  cases hLegal.rowChange_of_step hStep name with
  | kept hKept hWins =>
      refine ⟨row, hKept.trans hRow, hVersion, fun hEq => ?_⟩
      obtain ⟨hOwner, hRead⟩ := hSame hEq
      exact ⟨hOwner, hRead.imp_right fun hRenewed => hRenewed.step hStep⟩
  | @renewed id renewal now old hEvent hErrand hStage hName hOld hOwner hNext hWins =>
      obtain rfl : row = old := Option.some.inj (hRow.symm.trans hOld)
      subst hEvent hName
      refine ⟨row.renewedAt now, hNext, hVersion, fun hEq => ⟨(hSame hEq).1, .inr ?_⟩⟩
      exact hLegal.renewedBy_of_served hStep hErrand hStage hRow hOwner events
  | created hEvent hErrand hStage hName hNone hNext hWins =>
      rw [hRow] at hNone
      cases hNone
  | @taken id attempt other old now hEvent hErrand hStage hName hOld hTaken hNext hWins =>
      -- The version goes up, so that nothing has to be said of the row.
      obtain rfl : row = old := Option.some.inj (hRow.symm.trans hOld)
      refine ⟨_, hNext, ?_, fun hEq => ?_⟩
      · show read.version ≤ other.version + 1
        omega
      · have hHigher : other.version + 1 = read.version := hEq
        omega

/-! ## Attempts that have read a row -/

/-- **A sighting.**  An attempt has read a row after the events `early`, which has been left
behind by the events `late` since; unless the row is its own, it has read the clock since
then and found the lease to be over and the version one that can be raised. -/
structure Sighting (start contest : Contest) (early late : List Event) (id : Nat)
    (attempt : Attempt) (read : LockRow) : Prop where
  seen : ∃ before, start.run? early = some before ∧
    before.lockRow? attempt.claimant.name = some read
  follows : Follows contest late attempt.claimant.name read
  judged : attempt.stage = .judging read ∨ read.owner = attempt.claimant.identity ∨
    ∃ now, .tell id now ∈ late ∧ read.isExpired now attempt.lease = true ∧
      read.isRaisable = true

/-- Every attempt that has read a row has done so in the course of the run. -/
def Sighted (start : Contest) (events : List Event) (contest : Contest) : Prop :=
  ∀ id attempt read, contest.errands[id]? = some (.attempt attempt) →
    attempt.stage.seen? = some read →
    ∃ early late, events = early ++ .serve id :: late ∧
      Sighting start contest early late id attempt read

/-- An attempt that is about to take another owner's row has found it expired. -/
theorem Sighting.expired_of_replacing {start contest : Contest} {early late : List Event}
    {id : Nat} {attempt : Attempt} {read : LockRow} {now : Instant}
    (h : Sighting start contest early late id attempt read)
    (hStage : attempt.stage = .replacing read now)
    (hOther : attempt.claimant.identity ≠ read.owner) :
    ∃ judgedAt, .tell id judgedAt ∈ late ∧ read.isExpired judgedAt attempt.lease = true ∧
      read.isRaisable = true := by
  rcases h.judged with hJudging | hOwn | hExpired
  · rw [hStage] at hJudging
    cases hJudging
  · exact absurd hOwn.symm hOther
  · exact hExpired

/-- Where an attempt that has read a row was before: at the same stage, about to judge the
row or to claim it, or about to read it. -/
theorem Legal.seen?_cases {contest next : Contest} {event : Event} (hLegal : contest.Legal)
    (hStep : Step contest event next) {id : Nat} {attempt : Attempt} {read : LockRow}
    (hErrand : next.errands[id]? = some (.attempt attempt))
    (hSeen : attempt.stage.seen? = some read) :
    contest.errands[id]? = some (.attempt attempt) ∨
    (event = .serve id ∧ contest.lockRow? attempt.claimant.name = some read ∧
      next.lockRow? attempt.claimant.name = some read ∧
      (attempt.stage = .judging read ∨ read.owner = attempt.claimant.identity)) ∨
    ∃ now stage, event = .tell id now ∧
      contest.errands[id]? = some (.attempt { attempt with stage := stage }) ∧
      (stage = .judging read ∧ read.isExpired now attempt.lease = true ∧
          read.isRaisable = true ∨
        stage = .claiming read) := by
  cases hStep.origin hErrand with
  | same hSame => exact .inl hSame
  | @begun identity name task hNext =>
      -- An attempt that begins has read nothing.
      cases task with
      | attempt lease =>
          obtain rfl := Errand.attempt.inj hNext
          cases hSeen
      | renewal => cases hNext
      | lookup => cases hNext
  | @told earlier now hEvent hFound hRequest hNext =>
      cases earlier with
      | attempt old =>
          obtain rfl : attempt = old.resume (.time now) := Errand.attempt.inj hNext
          exact .inr (.inr ⟨now, old.stage, hEvent, hFound, Attempt.seen?_of_time hRequest hSeen⟩)
      | renewal renewal => cases hNext
      | lookup lookup => cases hNext
  | @failed earlier call error hEvent hFound hRequest hNext =>
      cases earlier with
      | attempt old =>
          obtain rfl : attempt = old.resume (.reply (.error error)) := Errand.attempt.inj hNext
          have hBlind := Attempt.seen?_of_error hRequest error
          exact absurd (hBlind.symm.trans hSeen) (Option.some_ne_none read).symm
      | renewal renewal => cases hNext
      | lookup lookup => cases hNext
  | @served earlier call hEvent hFound hRequest hNext =>
      cases earlier with
      | attempt old =>
          obtain ⟨hAfter, hNow⟩ := hLegal.moved_attempt hStep hEvent hFound hErrand
          subst hNow
          obtain ⟨hRow, hKept, hStage⟩ := Attempt.seen?_of_call hRequest hSeen
          refine .inr (.inl ⟨hEvent, hRow, ?_, hStage⟩)
          exact hAfter.trans (hKept.trans hRow)
      | renewal renewal => cases hNext
      | lookup lookup => cases hNext

/-- Every event keeps attempts and what they have read in sight. -/
theorem Sighted.step {start contest next : Contest} {events : List Event} {event : Event}
    (h : Sighted start events contest) (hLegal : contest.Legal)
    (hRun : start.run? events = some contest) (hStep : Step contest event next) :
    Sighted start (events ++ [event]) next := by
  intro id attempt read hErrand hSeen
  rcases hLegal.seen?_cases hStep hErrand hSeen with
    hSame | ⟨rfl, hRow, hNext, hStage⟩ | ⟨now, stage, rfl, hEarlier, hStage⟩
  · obtain ⟨early, late, rfl, hSighting⟩ := h id attempt read hSame hSeen
    refine ⟨early, late ++ [event], by simp, hSighting.seen,
      hSighting.follows.step hLegal hStep, ?_⟩
    refine hSighting.judged.imp_right (Or.imp_right ?_)
    rintro ⟨now, hTold, hExpired⟩
    exact ⟨now, List.mem_append_left _ hTold, hExpired⟩
  · refine ⟨events, [], rfl, ⟨contest, hRun, hRow⟩, ⟨read, hNext, Int.le_refl _, ?_⟩,
      hStage.imp_right .inl⟩
    exact fun _ => ⟨rfl, .inl rfl⟩
  · have hEarlierSeen : stage.seen? = some read := by
      rcases hStage with ⟨rfl, -⟩ | rfl <;> rfl
    obtain ⟨early, late, rfl, hSighting⟩ := h id _ read hEarlier hEarlierSeen
    refine ⟨early, late ++ [.tell id now], by simp, hSighting.seen,
      hSighting.follows.step hLegal hStep, .inr ?_⟩
    rcases hStage with ⟨rfl, hExpired⟩ | rfl
    · exact .inr ⟨now, List.mem_append_right _ (List.mem_singleton_self _), hExpired⟩
    · rcases hSighting.judged with hJudging | hOwn | ⟨judgedAt, hTold, hExpired⟩
      · cases hJudging
      · exact .inl hOwn
      · exact .inr ⟨judgedAt, List.mem_append_left _ hTold, hExpired⟩

theorem Sighted.around {database table : String} {memory : Memory} :
    Sighted (Contest.around database table memory) [] (Contest.around database table memory) := by
  intro id attempt read hErrand hSeen
  simp [Contest.around] at hErrand

/-- Every run has attempts and what they have read in sight. -/
theorem Sighted.run {start contest : Contest} (h : Sighted start [] start)
    (hLegal : start.Legal) {events : List Event} (hRun : start.run? events = some contest) :
    Sighted start events contest := by
  refine runs?_induction (motive := fun events contest => Sighted start events contest) h ?_ hRun
  intro events before event after hBefore hSighted hStep
  exact hSighted.step (hLegal.run hBefore) hBefore (step_of_step? hStep)

/-- **A change of owner is a takeover.**  The owner of a row changes only by the write of an
attempt at the version of the row, which is raised by one. -/
theorem Legal.takeover_of_owner_ne {contest next : Contest} {event : Event} {name : String}
    {row row' : LockRow} (hLegal : contest.Legal) (hStep : Step contest event next)
    (hRow : contest.lockRow? name = some row) (hNext : next.lockRow? name = some row')
    (hOwner : row'.owner ≠ row.owner) :
    ∃ id attempt read now, event = .serve id ∧
      contest.errands[id]? = some (.attempt attempt) ∧ attempt.stage = .replacing read now ∧
      attempt.claimant.name = name ∧ row.version = read.version ∧
      row' = row.takenBy attempt.claimant read.version now := by
  cases hLegal.rowChange_of_step hStep name with
  | kept hKept hWins =>
      rw [hKept, hRow] at hNext
      obtain rfl := Option.some.inj hNext
      exact absurd rfl hOwner
  | renewed hEvent hErrand hStage hName hOld hOwn hRenewed hWins =>
      obtain rfl := Option.some.inj (hOld.symm.trans hRow)
      obtain rfl := Option.some.inj (hRenewed.symm.trans hNext)
      exact absurd rfl hOwner
  | created hEvent hErrand hStage hName hNone hCreated hWins =>
      rw [hRow] at hNone
      cases hNone
  | @taken id attempt read old now hEvent hErrand hStage hName hOld hVersion hTaken hWins =>
      obtain rfl := Option.some.inj (hOld.symm.trans hRow)
      exact ⟨id, attempt, read, now, hEvent, hErrand, hStage, hName, hVersion,
        (Option.some.inj (hTaken.symm.trans hNext)).symm⟩

/-! ## Takeovers on one clock -/

/-- **One clock.**  Each event comes with the value of the clock; the clock does not go back,
and whoever reads it is told its value. -/
structure OnClock (history : List (Instant × Event)) : Prop where
  forward : (history.map Prod.fst).Pairwise fun a b => (compare a b).isLE = true
  told : ∀ moment id now, (moment, .tell id now) ∈ history → now = moment

/-- Of two events of a run on one clock the earlier one has the earlier value. -/
theorem OnClock.isLE {early late : List (Instant × Event)} {first second : Instant}
    {event other : Event} (h : OnClock (early ++ (first, event) :: late))
    (hLater : (second, other) ∈ late) : (compare first second).isLE = true := by
  have hForward := h.forward
  rw [List.map_append, List.map_cons] at hForward
  have hTail := (List.pairwise_append.mp hForward).2.1
  exact (List.pairwise_cons.mp hTail).1 second (List.mem_map.mpr ⟨_, hLater, rfl⟩)

/-- No event of a run on one clock is after the last one. -/
theorem OnClock.isLE_last {history : List (Instant × Event)} {earlier moment : Instant}
    {other event : Event} (h : OnClock (history ++ [(moment, event)]))
    (hMem : (earlier, other) ∈ history) : (compare earlier moment).isLE = true := by
  obtain ⟨front, back, rfl⟩ := List.append_of_mem hMem
  have hSplit : OnClock (front ++ (earlier, other) :: (back ++ [(moment, event)])) := by
    simpa using h
  exact hSplit.isLE (List.mem_append_right _ (List.mem_singleton_self _))

/-- **The grounds of a takeover.**  After `history`, an event at `moment` gives `row` to
another owner as `row'`.  It is the write of the attempt `id` by the new owner; the attempt
has read `read` at `seenAt`, and at `judgedAt` it has found the lease on that row to be
over. -/
structure Grounds (start : Contest) (history : List (Instant × Event)) (moment : Instant)
    (event : Event) (contest : Contest) (row row' : LockRow) (id : Nat) (attempt : Attempt)
    (read : LockRow) (early : List (Instant × Event)) (seenAt : Instant)
    (late : List (Instant × Event)) (before : Contest) (judgedAt : Instant) : Prop where
  /-- The write is that of the attempt, which takes the row over at the next version, within its
  word. -/
  served : event = .serve id
  errand : contest.errands[id]? = some (.attempt attempt)
  owner : attempt.claimant.identity = row'.owner
  version : row'.version = row.version + 1
  below : row.version < Word.maxInt 64
  /-- The attempt has read the row of the old owner at the version that it has now. -/
  split : history = early ++ (seenAt, .serve id) :: late
  run : start.run? (early.map Prod.snd) = some before
  seen : before.lockRow? attempt.claimant.name = some read
  sameVersion : read.version = row.version
  sameOwner : read.owner = row.owner
  /-- The clock was read after the row and before the write, and the lease was over. -/
  told : (judgedAt, .tell id judgedAt) ∈ late
  expired : read.isExpired judgedAt attempt.lease = true
  seenFirst : (compare seenAt judgedAt).isLE = true
  judgedFirst : (compare judgedAt moment).isLE = true
  /-- The row is as it was read, unless its owner has renewed it since. -/
  unchanged : row = read ∨
    RenewedBy contest (late.map Prod.snd) attempt.claimant.name row.owner
  /-- Leap seconds apart, the row itself has expired, unless its owner has renewed it. -/
  overdue : read.updateTime.inLeapSecond = false → judgedAt.inLeapSecond = false →
    moment.inLeapSecond = false → row.isExpired moment attempt.lease = true ∨
      RenewedBy contest (late.map Prod.snd) attempt.claimant.name row.owner

/-- **Takeovers are of expired leases.**  Take any run on one clock, and an event that gives
the row of a lock from one owner to another.  It is the write of an attempt on the lock,
and the attempt had grounds for it: the row that it has read had expired, and the row that
it overwrites is the same one or was renewed by its owner after it was read. -/
theorem takeover_of_expired {database table : String} {memory : Memory}
    (hLocks : memory.HoldsLocks (lockSpace database table))
    {history : List (Instant × Event)} {moment : Instant} {event : Event}
    (hClock : OnClock (history ++ [(moment, event)])) {contest next : Contest}
    (hRun : (around database table memory).run? (history.map Prod.snd) = some contest)
    (hStep : contest.step? event = some next) {name : String} {row row' : LockRow}
    (hRow : contest.lockRow? name = some row) (hNext : next.lockRow? name = some row')
    (hOwner : row'.owner ≠ row.owner) :
    ∃ id attempt read early seenAt late before judgedAt, attempt.claimant.name = name ∧
      Grounds (around database table memory) history moment event contest row row' id attempt
        read early seenAt late before judgedAt := by
  have hStart := legal_around hLocks
  obtain ⟨id, attempt, read, now, hEvent, hErrand, hStage, hName, hVersion, hTaken⟩ :=
    (hStart.run hRun).takeover_of_owner_ne (step_of_step? hStep) hRow hNext hOwner
  have hSeen : attempt.stage.seen? = some read := by rw [hStage]; rfl
  obtain ⟨pre, post, hSplit, hSighting⟩ :=
    Sighted.around.run hStart hRun id attempt read hErrand hSeen
  subst hName
  obtain ⟨before, hBefore, hRead⟩ := hSighting.seen
  obtain ⟨current, hCurrent, -, hSame⟩ := hSighting.follows
  obtain rfl : row = current := Option.some.inj (hRow.symm.trans hCurrent)
  obtain ⟨hReadOwner, hUnchanged⟩ := hSame hVersion
  -- The events of the run, with their values of the clock again.
  obtain ⟨early, rest, rfl, rfl, hRest⟩ := List.map_eq_append_iff.mp hSplit
  obtain ⟨⟨seenAt, served⟩, late, rfl, rfl, rfl⟩ := List.map_eq_cons_iff.mp hRest
  -- The row was not the attempt's own, so that it was judged.
  have hOther : attempt.claimant.identity ≠ read.owner := by
    intro hOwn
    rw [hTaken, hReadOwner, ← hOwn] at hOwner
    exact hOwner rfl
  obtain ⟨told, hTell, hExpired, hRaisable⟩ := hSighting.expired_of_replacing hStage hOther
  obtain ⟨⟨judgedAt, _⟩, hMem, rfl⟩ := List.mem_map.mp hTell
  obtain rfl := hClock.told judgedAt id told (by simp [hMem])
  have hJudgedFirst : (compare told moment).isLE = true :=
    hClock.isLE_last (List.mem_append_right _ (List.mem_cons_of_mem _ hMem))
  have hSeenFirst : (compare seenAt told).isLE = true := by
    rw [List.append_assoc, List.cons_append] at hClock
    exact hClock.isLE (List.mem_append_left _ hMem)
  refine ⟨id, attempt, read, early, seenAt, late, before, told, rfl, ?_⟩
  refine
    { served := hEvent
      errand := hErrand
      owner := by rw [hTaken]; rfl
      version := by rw [hTaken, hVersion]; rfl
      below := by rw [hVersion]; exact of_decide_eq_true hRaisable
      split := rfl
      run := hBefore
      seen := hRead
      sameVersion := hVersion.symm
      sameOwner := hReadOwner.symm
      told := hMem
      expired := hExpired
      seenFirst := hSeenFirst
      judgedFirst := hJudgedFirst
      unchanged := hUnchanged
      overdue := ?_ }
  intro hLeapRead hLeapJudged hLeapMoment
  refine hUnchanged.imp_left ?_
  rintro rfl
  exact LockRow.isExpired_of_isLE hExpired hJudgedFirst hLeapRead hLeapJudged hLeapMoment

/-! ## A renewal that does not keep the row -/

/-- A node reads a row that is just as old as the lease, the owner renews the row, and a
second later the node finds that what it has read has expired. -/
def lateVerdict : List (Instant × Event) :=
  [(⟨0, 0⟩, .start "a" "job" (.attempt (.ofSeconds 10))), (⟨0, 0⟩, .serve 0),
    (⟨0, 0⟩, .tell 0 ⟨0, 0⟩), (⟨0, 0⟩, .serve 0),
    (⟨10, 0⟩, .start "b" "job" (.attempt (.ofSeconds 10))), (⟨10, 0⟩, .serve 1),
    (⟨10, 0⟩, .serve 1), (⟨10, 0⟩, .start "a" "job" .renewal), (⟨10, 0⟩, .tell 2 ⟨10, 0⟩),
    (⟨10, 0⟩, .serve 2), (⟨11, 0⟩, .tell 1 ⟨11, 0⟩), (⟨11, 0⟩, .tell 1 ⟨11, 0⟩)]

/-- An empty lock table with nodes around it. -/
def emptyTable : Contest :=
  around Lock.standardDatabase Lock.standardTable (.ofLocks standardLockSpace [])

/-- The first events of `lateVerdict`. -/
def afterLateVerdict? (count : Nat) : Option Contest :=
  emptyTable.run? ((lateVerdict.take count).map Prod.snd)

theorem onClock_lateVerdict : OnClock (lateVerdict ++ [(⟨11, 0⟩, .serve 1)]) := by
  constructor
  · decide
  · intro moment id now hMem
    simp [lateVerdict] at hMem
    grind

/-- The write after `lateVerdict`, and the row before and after it. -/
theorem exists_run_lateVerdict :
    ∃ contest next, emptyTable.run? (lateVerdict.map Prod.snd) = some contest ∧
      contest.step? (.serve 1) = some next ∧
      contest.lockRow? "job" = some ⟨"job", 0, "a", ⟨10, 0⟩⟩ ∧
      next.lockRow? "job" = some ⟨"job", 1, "b", ⟨11, 0⟩⟩ := by
  have hEvaluated : ((emptyTable.run? (lateVerdict.map Prod.snd)).bind fun contest =>
      (contest.step? (.serve 1)).map fun next =>
        (contest.lockRow? "job", next.lockRow? "job"))
      = some (some ⟨"job", 0, "a", ⟨10, 0⟩⟩, some ⟨"job", 1, "b", ⟨11, 0⟩⟩) := by decide
  obtain ⟨contest, hRun, hRest⟩ := Option.bind_eq_some_iff.mp hEvaluated
  obtain ⟨next, hStep, hRows⟩ := Option.map_eq_some_iff.mp hRest
  obtain ⟨hRow, hNext⟩ := Prod.mk.inj hRows
  exact ⟨contest, next, hRun, hStep, hRow, hNext⟩

/-- **A live row can be lost.**  At no moment of this run was the row of `a` older than the
lease, and it was written a second before it was overwritten. -/
theorem live_row_taken :
    OnClock (lateVerdict ++ [(⟨11, 0⟩, .serve 1)]) ∧
      (∃ contest next row row', emptyTable.run? (lateVerdict.map Prod.snd) = some contest ∧
        contest.step? (.serve 1) = some next ∧
        contest.lockRow? "job" = some row ∧ next.lockRow? "job" = some row' ∧
        row.owner = "a" ∧ row'.owner = "b" ∧ row.isExpired ⟨11, 0⟩ (.ofSeconds 10) = false) ∧
      ∀ count < lateVerdict.length, ∀ moment ∈ (lateVerdict[count]?).map Prod.fst,
        ∀ row ∈ (afterLateVerdict? count).bind fun contest => contest.lockRow? "job",
          row.isExpired moment (.ofSeconds 10) = false := by
  obtain ⟨contest, next, hRun, hStep, hRow, hNext⟩ := exists_run_lateVerdict
  exact ⟨onClock_lateVerdict,
    ⟨contest, next, _, _, hRun, hStep, hRow, hNext, rfl, rfl, by decide⟩, by decide⟩

/-- The grounds of the write after `lateVerdict`. -/
theorem grounds_of_lateVerdict :
    ∃ contest next, emptyTable.run? (lateVerdict.map Prod.snd) = some contest ∧
      contest.step? (.serve 1) = some next ∧
      ∃ id attempt read early seenAt late before judgedAt, attempt.claimant.name = "job" ∧
        Grounds emptyTable lateVerdict ⟨11, 0⟩ (.serve 1) contest ⟨"job", 0, "a", ⟨10, 0⟩⟩
          ⟨"job", 1, "b", ⟨11, 0⟩⟩ id attempt read early seenAt late before judgedAt := by
  obtain ⟨contest, next, hRun, hStep, hRow, hNext⟩ := exists_run_lateVerdict
  have hLocks : (Memory.ofLocks standardLockSpace []).HoldsLocks standardLockSpace :=
    Memory.holdsLocks_ofLocks List.Pairwise.nil
  exact ⟨contest, next, hRun, hStep,
    takeover_of_expired hLocks onClock_lateVerdict hRun hStep hRow hNext (by decide)⟩

end Contest
end Leasehold
