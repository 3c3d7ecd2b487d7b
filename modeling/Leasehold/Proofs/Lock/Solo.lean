import Leasehold.Proofs.Lock.History
import Leasehold.Proofs.Lock.Separation
import Leasehold.Proofs.Time.Elapsed

/-!
# An attempt alone

An attempt that nobody disturbs is told one clock reading and meets one table all along.  What
comes of it is then decided by the row of its name: a name without a row is had at version 0, a
row of another owner holds it off for as long as the lease, and every other row is taken over at
the next version, as long as there is one.

* `Contest.Dated`: the rows of a contest were written at supported clock readings; runs keep this.
* `Attempt.alone`: an attempt and its store, with each request answered at once.
* `Contest.exists_run_alone`: an attempt alone is a run in which no other errand moves.
* `Memory.tryAlone_of_free`, `Memory.tryAlone_of_live`, `Memory.tryAlone_of_over`: the three ways in
  which it ends.
* `Memory.tryAlone_cases`: an attempt alone loses no race, and fails at the last version only.
* `Memory.tryAlone_eq`: these are all, and a write that was not reported is made up for.
* `Memory.not_ownersAcquire`: a row that lacks its time, or whose version is the last one, is not
  taken over, not even by its owner.
-/

namespace Leasehold

/-! ## The readings in a table -/

/-- Every row of a lock table was written at a supported clock reading. -/
def Memory.IsDated (memory : Memory) (space : Space) : Prop :=
  ∀ name row, memory.lockRow? space name = some row → row.updateTime.isValid = true

theorem Memory.isDated_ofLocks {space : Space} {rows : List LockRow}
    (h : ∀ row ∈ rows, row.updateTime.isValid = true) : (ofLocks space rows).IsDated space := by
  intro name row hRow
  rw [lockRow?, ofLocks, rows_withTable] at hRow
  obtain ⟨record, hRecord, hRead⟩ := Option.bind_eq_some_iff.mp hRow
  obtain ⟨stored, hStored, hPair⟩ := List.mem_map.mp (OrderedMap.mem_of_get? hRecord)
  obtain ⟨-, rfl⟩ := Prod.mk.inj hPair
  obtain rfl : stored = row := by simpa [Except.toOption] using hRead
  exact h stored hStored

/-- The reading that an errand is about to write. -/
def Errand.stamp? : Errand → Option Instant
  | .attempt a => a.stage.stamp?
  | .renewal r =>
    match r.stage with
    | .writing now => some now
    | _ => none
  | .lookup _ => none

namespace Contest

variable {contest next : Contest} {event : Event}

/-- An errand that is told the time writes this time. -/
theorem stamp?_time {errand : Errand} {now stamp : Instant}
    (hRequest : errand.request? = some .time)
    (h : (errand.resume (.time now)).stamp? = some stamp) : now = stamp := by
  cases errand with
  | attempt attempt => exact Attempt.stamp?_time hRequest h
  | renewal renewal =>
      cases hStage : renewal.stage <;>
        simp_all [Errand.request?, Renewal.request?, Errand.resume, Errand.stamp?, Renewal.resume]
  | lookup lookup => cases h

/-- An errand that is answered by the store asks for the time before it writes. -/
theorem stamp?_reply {errand : Errand} {call : Call} (reply : Reply)
    (hRequest : errand.request? = some (.call call)) :
    (errand.resume (.reply reply)).stamp? = none := by
  cases errand with
  | attempt attempt => exact Attempt.stamp?_reply reply hRequest
  | renewal renewal =>
      cases hStage : renewal.stage <;>
        simp_all [Errand.request?, Renewal.request?, Errand.resume, Errand.stamp?, Renewal.resume]
      cases reply <;> rfl
  | lookup lookup => rfl

/-- Whether an event tells a supported clock reading, if it tells one. -/
def Event.isTimely : Event → Bool
  | .tell _ now => now.isValid
  | _ => true

/-- **The invariant of timely runs.**  The rows were written at supported readings, and so will
be those that errands are about to write. -/
structure Dated (contest : Contest) : Prop where
  rows : contest.memory.IsDated contest.space
  stamps : ∀ (id : Nat) (errand : Errand) (now : Instant), contest.errands[id]? = some errand →
    errand.stamp? = some now → now.isValid = true

/-- An event that tells supported readings only keeps the invariant. -/
theorem Dated.step (h : contest.Dated) (hLegal : contest.Legal) (hTimely : event.isTimely = true)
    (hStep : Step contest event next) : next.Dated := by
  refine ⟨fun name row hRow => ?_, fun id errand now hErrand hStamp => ?_⟩
  · cases hLegal.rowChange_of_step hStep name with
    | kept hSame => exact h.rows name row (hSame.symm.trans hRow)
    | renewed hEvent hErrand hStage hName hOld hOwner hNext =>
        obtain rfl := Option.some.inj (hNext.symm.trans hRow)
        exact h.stamps _ _ _ hErrand (by rw [Errand.stamp?, hStage]; rfl)
    | created hEvent hErrand hStage hName hOld hNext =>
        obtain rfl := Option.some.inj (hNext.symm.trans hRow)
        exact h.stamps _ _ _ hErrand (by rw [Errand.stamp?, hStage]; rfl)
    | taken hEvent hErrand hStage hName hOld hVersion hNext =>
        obtain rfl := Option.some.inj (hNext.symm.trans hRow)
        exact h.stamps _ _ _ hErrand (by rw [Errand.stamp?, hStage]; rfl)
  · cases hStep.origin hErrand with
    | same hOld => exact h.stamps id errand now hOld hStamp
    | @begun identity name task hNew =>
        rw [hNew] at hStamp
        cases task <;> cases hStamp
    | told hEvent hOld hRequest hNew =>
        rw [hNew] at hStamp
        rw [← stamp?_time hRequest hStamp]
        rwa [hEvent] at hTimely
    | served hEvent hOld hRequest hNew =>
        rw [hNew, stamp?_reply _ hRequest] at hStamp
        cases hStamp
    | failed hEvent hOld hRequest hNew =>
        rw [hNew, stamp?_reply _ hRequest] at hStamp
        cases hStamp

/-- **Reachable tables.**  A run that begins on a table of locks and tells supported readings
only leaves a table of locks that were written at supported readings. -/
theorem isDated_of_run {database table : String} {memory : Memory}
    (hLocks : memory.HoldsLocks (lockSpace database table))
    (hDated : memory.IsDated (lockSpace database table)) {events : List Event}
    (hTimely : ∀ event ∈ events, event.isTimely = true)
    (hRun : (around database table memory).run? events = some contest) :
    contest.memory.HoldsLocks contest.space ∧ contest.memory.IsDated contest.space := by
  have hStart : (around database table memory).Dated :=
    ⟨hDated, fun id errand now hErrand => by simp [around] at hErrand⟩
  have hKept : (∀ event ∈ events, event.isTimely = true) → contest.Dated := by
    refine runs?_induction (motive := fun events contest =>
      (∀ event ∈ events, event.isTimely = true) → contest.Dated) (fun _ => hStart) ?_ hRun
    intro events before event after hBefore hMotive hStep hAll
    obtain ⟨hEarly, hLast⟩ := List.forall_mem_append.mp hAll
    exact (hMotive hEarly).step ((legal_around hLocks).run hBefore)
      (hLast event (List.mem_singleton_self event)) (step_of_step? hStep)
  exact ⟨((legal_around hLocks).run hRun).locks, (hKept hTimely).rows⟩

end Contest

/-! ## Nobody else about -/

namespace Attempt

/-- An attempt and its store with nobody else about: the store answers each call at once, and
the clock shows one reading all along. -/
def alone (now : Instant) : Nat → Attempt → Memory → Attempt × Memory
  | 0, attempt, memory => (attempt, memory)
  | fuel + 1, attempt, memory =>
    match attempt.request? with
    | none => (attempt, memory)
    | some .time => alone now fuel (attempt.resume (.time now)) memory
    | some (.call call) =>
      let (reply, memory) := memory.perform call
      alone now fuel (attempt.resume (.reply reply)) memory

variable {attempt : Attempt} {memory memory' : Memory}

theorem alone_ended (now : Instant) (fuel : Nat) (hRequest : attempt.request? = none) :
    alone now fuel attempt memory = (attempt, memory) := by
  cases fuel with
  | zero => rfl
  | succ fuel => simp only [alone, hRequest]

theorem alone_time (now : Instant) (fuel : Nat) (hRequest : attempt.request? = some .time) :
    alone now (fuel + 1) attempt memory = alone now fuel (attempt.resume (.time now)) memory := by
  simp only [alone, hRequest]

theorem alone_call {call : Call} {reply : Reply} (now : Instant) (fuel : Nat)
    (hRequest : attempt.request? = some (.call call))
    (hPerform : memory.perform call = (reply, memory')) :
    alone now (fuel + 1) attempt memory
      = alone now fuel (attempt.resume (.reply reply)) memory' := by
  simp only [alone, hRequest, hPerform]

end Attempt

/-- **An attempt alone is a run.**  It is the run of a contest in which the attempt reads the
clock and is served, and no other errand moves. -/
theorem Contest.exists_run_alone {contest : Contest} {id : Nat} {attempt : Attempt}
    (hErrand : contest.errands[id]? = some (.attempt attempt)) (now : Instant) (fuel : Nat) :
    ∃ events next, (∀ event ∈ events, event = .tell id now ∨ event = .serve id) ∧
      contest.run? events = some next ∧
      next.errands[id]? = some (.attempt (attempt.alone now fuel contest.memory).1) ∧
      next.memory = (attempt.alone now fuel contest.memory).2 := by
  induction fuel generalizing contest attempt with
  | zero => exact ⟨[], contest, by simp, rfl, hErrand, rfl⟩
  | succ fuel ih =>
      obtain ⟨hBound, -⟩ := List.getElem?_eq_some_iff.mp hErrand
      cases hRequest : attempt.request? with
      | none =>
          rw [Attempt.alone_ended now _ hRequest]
          exact ⟨[], contest, by simp, rfl, hErrand, rfl⟩
      | some request =>
          have hPending : contest.pending? id = some (.attempt attempt, request) :=
            pending?_of_errand hErrand hRequest
          cases request with
          | time =>
              have hNext : (contest.withErrand id (.attempt (attempt.resume (.time now)))).errands[id]?
                  = some (.attempt (attempt.resume (.time now))) := List.getElem?_set_self hBound
              obtain ⟨events, next, hEvents, hRun, hEnd⟩ := ih hNext
              rw [Attempt.alone_time now fuel hRequest]
              refine ⟨.tell id now :: events, next, ?_, ?_, hEnd⟩
              · exact List.forall_mem_cons.mpr ⟨.inl rfl, hEvents⟩
              · rw [run?, runs?, step?, hPending]
                exact hRun
          | call call =>
              have hNext : (contest.served id (.attempt attempt) call).errands[id]?
                  = some (.attempt (attempt.resume (.reply (contest.memory.perform call).1))) :=
                List.getElem?_set_self hBound
              obtain ⟨events, next, hEvents, hRun, hEnd⟩ := ih hNext
              rw [Attempt.alone_call now fuel hRequest rfl]
              refine ⟨.serve id :: events, next, ?_, ?_, hEnd⟩
              · exact List.forall_mem_cons.mpr ⟨.inr rfl, hEvents⟩
              · rw [run?, runs?, step?, hPending]
                exact hRun

/-- One try of a claimant that nobody disturbs: what it brings back, and the store after it. -/
def Memory.tryAlone (memory : Memory) (claimant : Claimant) (lease : Span) (now : Instant) :
    Option (Except LockError Outcome) × Memory :=
  let (attempt, memory) := (Attempt.start claimant lease).alone now Errand.mostRequests memory
  (attempt.result?, memory)

/-! ## How an attempt alone ends -/

namespace Attempt

section

variable {memory : Memory} {database table : String} {claimant : Claimant} {row : LockRow}
  (hSpace : claimant.space = lockSpace database table)
  (hLocks : memory.HoldsLocks (lockSpace database table)) (lease : Span) (now : Instant)

include hSpace hLocks

/-- The first call asks whether there is a row. -/
theorem alone_counting {row? : Option LockRow} (fuel : Nat)
    (hRow : memory.lockRow? (lockSpace database table) claimant.name = row?) :
    alone now (fuel + 1) (.start claimant lease) memory
      = alone now fuel ⟨claimant, lease, if row?.isSome then .searching else .stamping⟩ memory := by
  have hCount : memory.perform (.count claimant.space claimant.byName)
      = (.ok (.number (if row?.isSome then 1 else 0)), memory) := by
    rw [hSpace]
    exact Memory.perform_count hLocks hRow
  rw [alone_call now fuel rfl hCount]
  cases row? <;> rfl

/-- A row that is there is found, and it depends on its owner whether its age matters. -/
theorem alone_searching (fuel : Nat)
    (hRow : memory.lockRow? (lockSpace database table) claimant.name = some row) :
    alone now (fuel + 1) ⟨claimant, lease, .searching⟩ memory
      = alone now fuel ⟨claimant, lease,
          if row.isOwnedBy claimant.identity then claim row else .judging row⟩ memory := by
  have hSearch : memory.perform (.search claimant.space claimant.byName)
      = (.ok (.records [row.toRecord]), memory) := by
    rw [hSpace]
    exact Memory.perform_search hLocks hRow
  rw [alone_call now fuel rfl hSearch]
  rfl

/-- A row that is claimed is taken over, for nobody else can have raised its version. -/
theorem alone_claim (fuel : Nat)
    (hRow : memory.lockRow? (lockSpace database table) claimant.name = some row)
    (hRaisable : row.isRaisable = true) :
    ∃ memory',
      alone now (fuel + 2) ⟨claimant, lease, claim row⟩ memory
        = (⟨claimant, lease, .finished (.ok (.acquired (row.version + 1)))⟩, memory') ∧
      memory.ChangesRow memory' (lockSpace database table) claimant.name
        (some ⟨claimant.name, row.version + 1, claimant.identity, now⟩) := by
  obtain ⟨memory', hPerform, hChange⟩ := Memory.perform_takeover hLocks hRow row now
  rw [← hSpace] at hPerform
  rw [claim, if_pos hRaisable]
  refine ⟨memory', ?_, ?_⟩
  · rw [alone_time now (fuel + 1) rfl, alone_call now fuel rfl hPerform, alone_ended now fuel rfl]
    simp [resume, nextStage, afterReplace, Answer.count]
  · simpa [LockRow.takenBy, hLocks.name_eq hRow] using hChange

end

/-- A write that gets the lock leaves a row of its claimant, at the version that the reply says,
though the reply may never come. -/
theorem lockRow?_of_wrote {memory : Memory} {database table : String} {claimant : Claimant}
    {attempt : Attempt} {call : Call} (hSpace : claimant.space = lockSpace database table)
    (hLocks : memory.HoldsLocks (lockSpace database table))
    (hClaimant : attempt.claimant = claimant)
    (hRequest : attempt.request? = some (.call call))
    (hWrote : call.wrote (memory.perform call).1 = true) :
    ∃ row,
      (memory.perform call).2.HoldsLocks (lockSpace database table) ∧
      (memory.perform call).2.lockRow? (lockSpace database table) claimant.name = some row ∧
      row.owner = claimant.identity ∧
      (attempt.resume (.reply (memory.perform call).1)).result?
        = some (.ok (.acquired row.version)) := by
  subst hClaimant
  obtain ⟨reply, memory', hPerform, hChange, hStage, hWon⟩ :=
    perform_eq hSpace hLocks rfl hRequest
  rw [hPerform] at hWrote ⊢
  rw [hWrote] at hWon
  have hSelf := hChange.lockRow?_self
  have hResult : ∀ {version : Int}, attempt.stageAfter
        (memory.lockRow? (lockSpace database table) attempt.claimant.name)
          = .finished (.ok (.acquired version)) →
      (attempt.resume (.reply reply)).result? = some (.ok (.acquired version)) := by
    intro version hEnd
    rw [result?, resume, hStage, hEnd]
  rcases hasWon_cases hRequest hWon.symm with
    ⟨now, hAt, hRow, hEnd⟩ | ⟨read, now, row, hAt, hRow, hVersion, hEnd⟩
  · simp only [rowAfter, hAt, hRow, Option.none_or] at hSelf
    exact ⟨_, hChange.locks, hSelf, rfl, hResult hEnd⟩
  · simp only [rowAfter, hAt, hRow, Option.map_some, if_pos hVersion] at hSelf
    exact ⟨_, hChange.locks, hSelf, rfl, hResult hEnd⟩

end Attempt

namespace Memory

section

variable {memory : Memory} {database table : String} {claimant : Claimant} {row : LockRow}
  {lease : Span} {now : Instant} (hSpace : claimant.space = lockSpace database table)
  (hLocks : memory.HoldsLocks (lockSpace database table))

theorem tryAlone_of_alone {memory' : Memory} {result : Except LockError Outcome}
    (h : (Attempt.start claimant lease).alone now Errand.mostRequests memory
      = (⟨claimant, lease, .finished result⟩, memory')) :
    memory.tryAlone claimant lease now = (some result, memory') := by
  rw [tryAlone, h]
  rfl

include hSpace hLocks

/-- A name without a row gets its first one. -/
theorem tryAlone_of_free (lease : Span) (now : Instant)
    (hRow : memory.lockRow? (lockSpace database table) claimant.name = none) :
    ∃ memory',
      memory.tryAlone claimant lease now = (some (.ok (.acquired 0)), memory') ∧
      memory.ChangesRow memory' (lockSpace database table) claimant.name
        (some ⟨claimant.name, 0, claimant.identity, now⟩) := by
  obtain ⟨memory', hPerform, hChange⟩ := perform_first hLocks hRow now
  rw [← hSpace] at hPerform
  refine ⟨memory', tryAlone_of_alone ?_, hChange⟩
  rw [Errand.mostRequests, Attempt.alone_counting hSpace hLocks lease now 7 hRow]
  rw [Attempt.alone_time now 6 rfl, Attempt.alone_call now 5 rfl hPerform,
    Attempt.alone_ended now 5 rfl]
  rfl

/-- A row of another owner that is not expired holds the attempt off. -/
theorem tryAlone_of_live
    (hRow : memory.lockRow? (lockSpace database table) claimant.name = some row)
    (hOwner : row.owner ≠ claimant.identity) (hLive : row.isExpired now lease = false) :
    memory.tryAlone claimant lease now
      = (some (.ok (.heldElsewhere row.owner (row.elapsed now))), memory) := by
  have hOther : row.isOwnedBy claimant.identity = false := beq_eq_false_iff_ne.mpr hOwner
  refine tryAlone_of_alone ?_
  rw [Errand.mostRequests, Attempt.alone_counting hSpace hLocks lease now 7 hRow,
    Option.isSome_some, if_pos rfl]
  rw [Attempt.alone_searching hSpace hLocks lease now 6 hRow, hOther, if_neg Bool.false_ne_true]
  rw [Attempt.alone_time now 5 rfl]
  simp only [Attempt.resume, Attempt.nextStage, Attempt.afterJudgement, hLive, Bool.false_eq_true,
    if_false]
  rw [Attempt.alone_ended now 5 rfl]

/-- An own row, or an expired one, is claimed. -/
theorem exists_claim
    (hRow : memory.lockRow? (lockSpace database table) claimant.name = some row)
    (hOver : row.owner = claimant.identity ∨ row.isExpired now lease = true) :
    ∃ fuel, (Attempt.start claimant lease).alone now Errand.mostRequests memory
      = Attempt.alone now (fuel + 2) ⟨claimant, lease, Attempt.claim row⟩ memory := by
  rw [Errand.mostRequests, Attempt.alone_counting hSpace hLocks lease now 7 hRow,
    Option.isSome_some, if_pos rfl, Attempt.alone_searching hSpace hLocks lease now 6 hRow]
  cases hOwned : row.isOwnedBy claimant.identity with
  | true => exact ⟨4, rfl⟩
  | false =>
      have hExpired : row.isExpired now lease = true :=
        hOver.resolve_left (beq_eq_false_iff_ne.mp hOwned)
      rw [if_neg Bool.false_ne_true, Attempt.alone_time now 5 rfl]
      simp only [Attempt.resume, Attempt.nextStage, Attempt.afterJudgement, hExpired, if_true]
      exact ⟨3, rfl⟩

/-- An own row, or an expired one, is taken over, if there is a next version. -/
theorem tryAlone_of_over
    (hRow : memory.lockRow? (lockSpace database table) claimant.name = some row)
    (hOver : row.owner = claimant.identity ∨ row.isExpired now lease = true)
    (hRaisable : row.isRaisable = true) :
    ∃ memory',
      memory.tryAlone claimant lease now = (some (.ok (.acquired (row.version + 1))), memory') ∧
      memory.ChangesRow memory' (lockSpace database table) claimant.name
        (some ⟨claimant.name, row.version + 1, claimant.identity, now⟩) := by
  obtain ⟨fuel, hClaims⟩ := exists_claim hSpace hLocks hRow hOver
  obtain ⟨memory', hAlone, hChange⟩ :=
    Attempt.alone_claim hSpace hLocks lease now fuel hRow hRaisable
  exact ⟨memory', tryAlone_of_alone (hClaims.trans hAlone), hChange⟩

/-- A row at the last version is left as it is, and the attempt stops at the overflow. -/
theorem tryAlone_of_last
    (hRow : memory.lockRow? (lockSpace database table) claimant.name = some row)
    (hOver : row.owner = claimant.identity ∨ row.isExpired now lease = true)
    (hLast : row.isRaisable = false) :
    memory.tryAlone claimant lease now = (some (.error .overflow), memory) := by
  obtain ⟨fuel, hClaims⟩ := exists_claim hSpace hLocks hRow hOver
  rw [Attempt.claim, if_neg (Bool.eq_false_iff.mp hLast)] at hClaims
  exact tryAlone_of_alone (hClaims.trans (Attempt.alone_ended now (fuel + 2) rfl))

/-- No race is lost, and only a row at the last version makes an attempt fail. -/
theorem tryAlone_cases (lease : Span) (now : Instant) :
    (∃ row, memory.lockRow? (lockSpace database table) claimant.name = some row ∧
        row.isRaisable = false ∧
        (memory.tryAlone claimant lease now).1 = some (.error .overflow)) ∨
      ∃ outcome, (memory.tryAlone claimant lease now).1 = some (.ok outcome) ∧
        outcome ≠ .lostRace := by
  cases hRow : memory.lockRow? (lockSpace database table) claimant.name with
  | none =>
      obtain ⟨memory', hTried, -⟩ := tryAlone_of_free hSpace hLocks lease now hRow
      exact .inr ⟨.acquired 0, congrArg Prod.fst hTried, nofun⟩
  | some row =>
      by_cases hOver : row.owner = claimant.identity ∨ row.isExpired now lease = true
      · cases hRaisable : row.isRaisable with
        | false =>
            have hStopped := tryAlone_of_last hSpace hLocks hRow hOver hRaisable
            exact .inl ⟨row, rfl, hRaisable, congrArg Prod.fst hStopped⟩
        | true =>
            obtain ⟨memory', hTried, -⟩ := tryAlone_of_over hSpace hLocks hRow hOver hRaisable
            exact .inr ⟨.acquired (row.version + 1), congrArg Prod.fst hTried, nofun⟩
      · obtain ⟨hOwner, hLive⟩ := not_or.mp hOver
        have hHeld := tryAlone_of_live hSpace hLocks hRow hOwner (Bool.eq_false_iff.mpr hLive)
        exact .inr ⟨_, congrArg Prod.fst hHeld, nofun⟩

/-- The claimant of a write that was applied gets the lock on its next attempt, whether or not it
was told of the write. -/
theorem tryAlone_of_wrote {attempt : Attempt} {call : Call} (hClaimant : attempt.claimant = claimant)
    (hRequest : attempt.request? = some (.call call))
    (hWrote : call.wrote (memory.perform call).1 = true) :
    ∃ version,
      (attempt.resume (.reply (memory.perform call).1)).result?
        = some (.ok (.acquired version)) ∧
      ∀ (nextLease : Span) (later : Instant), version < Word.maxInt 64 →
        ((memory.perform call).2.tryAlone claimant nextLease later).1
          = some (.ok (.acquired (version + 1))) := by
  obtain ⟨row, hWritten, hRow, hOwner, hResult⟩ :=
    Attempt.lockRow?_of_wrote hSpace hLocks hClaimant hRequest hWrote
  refine ⟨row.version, hResult, fun nextLease later hBelow => ?_⟩
  obtain ⟨memory', hTried, -⟩ :=
    tryAlone_of_over hSpace hWritten hRow (.inl hOwner) (decide_eq_true hBelow)
  rw [hTried]

end

/-- **An attempt alone, in full.**  Take any lock table that was written at supported readings,
and any claimant, lease and supported reading.  Without a row the claimant gets the lock at
version 0, and the table gains this row.  A row of another owner that is not older than the lease
holds the claimant off, and nothing is written.  Any other row is taken over at the next version,
if there is one.  The rows of other names stay as they are, no race is lost, and nothing fails below
the last version.  Moreover, where the write of an attempt was applied but reported as failed, the
next attempt of the same claimant gets the lock at the next version, if there is one, whatever its
lease and whenever it comes. -/
theorem tryAlone_eq {memory : Memory} {database table : String}
    (hLocks : memory.HoldsLocks (lockSpace database table))
    (hDated : memory.IsDated (lockSpace database table)) (identity name : String) (lease : Span)
    {now : Instant} (hNow : now.isValid = true) :
    let space := lockSpace database table
    let claimant : Claimant := ⟨space, identity, name⟩
    let tried := memory.tryAlone claimant lease now
    (memory.lockRow? space name = none →
      tried.1 = some (.ok (.acquired 0)) ∧
      memory.ChangesRow tried.2 space name (some ⟨name, 0, identity, now⟩)) ∧
    (∀ row, memory.lockRow? space name = some row → row.owner ≠ identity →
      (now.since row.updateTime).nanos ≤ lease.nanos →
      tried.1 = some (.ok (.heldElsewhere row.owner (now.since row.updateTime))) ∧
      tried.2 = memory) ∧
    (∀ row, memory.lockRow? space name = some row →
      row.owner = identity ∨ lease.nanos < (now.since row.updateTime).nanos →
      row.version < Word.maxInt 64 →
      tried.1 = some (.ok (.acquired (row.version + 1))) ∧
      memory.ChangesRow tried.2 space name (some ⟨name, row.version + 1, identity, now⟩)) ∧
    tried.1 ≠ some (.ok .lostRace) ∧
    ((∀ row, memory.lockRow? space name = some row → row.version < Word.maxInt 64) →
      ∃ outcome, tried.1 = some (.ok outcome)) ∧
    ∀ (attempt : Attempt) (call : Call), attempt.claimant = claimant →
      attempt.request? = some (.call call) → call.wrote (memory.perform call).1 = true →
      ∃ version,
        (attempt.resume (.reply (memory.perform call).1)).result?
          = some (.ok (.acquired version)) ∧
        ∀ (error : StoreError) (nextLease : Span) (later : Instant),
          (attempt.resume (.reply (.error error))).result? = some (.error (.store error)) ∧
          (version < Word.maxInt 64 →
            ((memory.perform call).2.tryAlone claimant nextLease later).1
              = some (.ok (.acquired (version + 1)))) := by
  intro space claimant tried
  have hSpace : claimant.space = lockSpace database table := rfl
  have hFree : memory.lockRow? space name = none →
      tried.1 = some (.ok (.acquired 0)) ∧
      memory.ChangesRow tried.2 space name (some ⟨name, 0, identity, now⟩) := by
    intro hRow
    obtain ⟨memory', hTried, hChange⟩ := tryAlone_of_free hSpace hLocks lease now hRow
    rw [show tried = _ from hTried]
    exact ⟨rfl, hChange⟩
  have hHeld : ∀ row, memory.lockRow? space name = some row → row.owner ≠ identity →
      (now.since row.updateTime).nanos ≤ lease.nanos →
      tried.1 = some (.ok (.heldElsewhere row.owner (now.since row.updateTime))) ∧
      tried.2 = memory := by
    intro row hRow hOwner hYoung
    have hLive : row.isExpired now lease = false := by
      rw [← Bool.not_eq_true, LockRow.isExpired_iff (hDated name row hRow) hNow]
      exact Int.not_lt.mpr hYoung
    rw [show tried = _ from tryAlone_of_live hSpace hLocks hRow hOwner hLive]
    exact ⟨rfl, rfl⟩
  have hOver : ∀ row, memory.lockRow? space name = some row →
      row.owner = identity ∨ lease.nanos < (now.since row.updateTime).nanos →
      row.version < Word.maxInt 64 →
      tried.1 = some (.ok (.acquired (row.version + 1))) ∧
      memory.ChangesRow tried.2 space name (some ⟨name, row.version + 1, identity, now⟩) := by
    intro row hRow hCases hBelow
    rw [← LockRow.isExpired_iff (hDated name row hRow) hNow] at hCases
    obtain ⟨memory', hTried, hChange⟩ :=
      tryAlone_of_over hSpace hLocks hRow hCases (decide_eq_true hBelow)
    rw [show tried = _ from hTried]
    exact ⟨rfl, hChange⟩
  refine ⟨hFree, hHeld, hOver, ?unraced, ?unfailing, ?unreported⟩
  case unraced =>
    intro hRaced
    rcases tryAlone_cases hSpace hLocks lease now with ⟨-, -, -, hStopped⟩ | ⟨_, hEnd, hOther⟩
    · exact absurd (hStopped.symm.trans hRaced) nofun
    · exact hOther (Except.ok.inj (Option.some.inj (hEnd.symm.trans hRaced)))
  case unfailing =>
    intro hBelow
    rcases tryAlone_cases hSpace hLocks lease now with ⟨row, hRow, hLast, -⟩ | ⟨outcome, hEnd, -⟩
    · exact absurd (hBelow row hRow) (of_decide_eq_false hLast)
    · exact ⟨outcome, hEnd⟩
  case unreported =>
    intro attempt call hClaimant hRequest hWrote
    obtain ⟨version, hResult, hNext⟩ := tryAlone_of_wrote hSpace hLocks hClaimant hRequest hWrote
    refine ⟨version, hResult, fun error nextLease later => ⟨?_, hNext nextLease later⟩⟩
    rw [Attempt.result?, Attempt.resume, Contest.nextStage_error hRequest]

/-- A table with one lock, and an attempt of its owner that is about to write. -/
def oneLock : Memory := .ofLocks standardLockSpace [⟨"job", 3, "a", ⟨0, 0⟩⟩]

def ownerWrites : Attempt :=
  ⟨⟨standardLockSpace, "a", "job"⟩, .ofSeconds 10, .replacing ⟨"job", 3, "a", ⟨0, 0⟩⟩ ⟨5, 0⟩⟩

/-- A row holds off another node at the end of the lease, and no longer; and its owner, told that
its write has failed, gets the lock again. -/
theorem tryAlone_at_leaseEnd :
    oneLock.HoldsLocks standardLockSpace ∧ oneLock.IsDated standardLockSpace ∧
      (oneLock.tryAlone ⟨standardLockSpace, "b", "job"⟩ (.ofSeconds 10) ⟨10, 0⟩).1
        = some (.ok (.heldElsewhere "a" ⟨10000000000⟩)) ∧
      (oneLock.tryAlone ⟨standardLockSpace, "b", "job"⟩ (.ofSeconds 10) ⟨10, 1⟩).1
        = some (.ok (.acquired 4)) ∧
      ∃ call, ownerWrites.request? = some (.call call) ∧
        ((oneLock.perform call).2.tryAlone ownerWrites.claimant (.ofSeconds 10) ⟨6, 0⟩).1
          = some (.ok (.acquired 5)) := by
  have hLocks : oneLock.HoldsLocks standardLockSpace :=
    holdsLocks_ofLocks (List.pairwise_singleton _ _)
  have hDated : oneLock.IsDated standardLockSpace := isDated_ofLocks (by decide)
  have hRow : oneLock.lockRow? standardLockSpace "job" = some ⟨"job", 3, "a", ⟨0, 0⟩⟩ := by decide
  obtain ⟨-, hHeld, -⟩ := tryAlone_eq hLocks hDated "b" "job" (.ofSeconds 10)
    (show (Instant.mk 10 0).isValid = true by decide)
  obtain ⟨-, -, hOver, -⟩ := tryAlone_eq hLocks hDated "b" "job" (.ofSeconds 10)
    (show (Instant.mk 10 1).isValid = true by decide)
  obtain ⟨-, -, -, -, -, hUnreported⟩ := tryAlone_eq hLocks hDated "a" "job" (.ofSeconds 10)
    (show (Instant.mk 6 0).isValid = true by decide)
  refine ⟨hLocks, hDated, (hHeld _ hRow (by decide) (by decide)).1,
    (hOver _ hRow (.inr (by decide)) (by decide)).1, _, rfl, ?_⟩
  obtain ⟨version, hVersion, hNext⟩ := hUnreported ownerWrites _ rfl rfl (by decide)
  obtain rfl : 4 = version := by
    have hFour := (show _ = some (.ok (.acquired 4)) by decide).symm.trans hVersion
    simpa using hFour
  exact (hNext (.reported "timed out") (.ofSeconds 10) ⟨6, 0⟩).2 (by decide)

/-! ## Rows that are not taken over -/

/-- In the lock table that calls leave on an empty store, every owner of a row takes it over at the
next version. -/
def OwnersAcquire (calls : List Call) : Prop :=
  let memory := (empty.performAll calls).2
  ∀ (identity name : String) (record : Record) (version : Int) (lease : Span) (now : Instant),
    (memory.rows standardLockSpace).get? (.text name) = some record →
    record.get? Lock.ownerColumn = some (.text identity) →
    record.get? Lock.versionColumn = some (.int version) →
    (memory.tryAlone ⟨standardLockSpace, identity, name⟩ lease now).1
      = some (.ok (.acquired (version + 1)))

/-- Writes a row of an owner without the time of the write. -/
def insertUndated : Call :=
  .insert standardLockSpace
    (.ofList [(Lock.nameColumn, .text "job"), (Lock.versionColumn, .int 3),
      (Lock.ownerColumn, .text "a")])

/-- Writes a row of an owner at the last version. -/
def insertLast : Call :=
  .insert standardLockSpace (LockRow.mk "job" (Word.maxInt 64) "a" ⟨0, 0⟩).toRecord

/-- **Owners need not acquire.**  A row without a time is an error even where its age does not
matter, and the last version has no next one. -/
theorem not_ownersAcquire : ¬ OwnersAcquire [insertUndated] ∧ ¬ OwnersAcquire [insertLast] := by
  refine ⟨fun hUndated => ?_, fun hLast => ?_⟩
  · have hTried := hUndated "a" "job" _ 3 (.ofSeconds 10) ⟨20, 0⟩ rfl rfl rfl
    exact absurd hTried (by decide)
  · have hTried := hLast "a" "job" _ (Word.maxInt 64) (.ofSeconds 10) ⟨20, 0⟩ rfl rfl rfl
    exact absurd hTried (by decide)

end Memory
end Leasehold
