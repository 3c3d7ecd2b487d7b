import Leasehold.Proofs.Lock.Contest
import Mathlib.Data.List.Nodup

/-!
# Fencing tokens

The version with which a lock is had is its fencing token.  In every run the tokens of one
lock are consecutive numbers: they start after the version of the row that was there in the
beginning, or at 0 if there was none.

* `Contest.firstVersion`: the first token of a lock.
* `Contest.standing?`: the version and the owner that the wins of a lock leave in its row.
* `Contest.Fenced`: the tokens so far are consecutive and the row is as the last win left it.
* `Contest.Recorded`: the wins are exactly the attempts that have ended with the lock.
* `Contest.versions_consecutive`: what the two invariants say together of every run.
-/

namespace Leasehold
namespace Contest

/-- The first version with which a lock is had, given its row in the beginning. -/
def firstVersion (start? : Option LockRow) : Int :=
  match start? with
  | none => 0
  | some row => row.version + 1

/-- The version and the owner of the row of a lock, given its row in the beginning and its
wins. -/
def standing? (start? : Option LockRow) (wins : List Win) : Option (Int × String) :=
  match wins.getLast? with
  | none => start?.map fun row => (row.version, row.owner)
  | some win => some (win.version, win.claimant.identity)

theorem standing?_append (start? : Option LockRow) (wins : List Win) (win : Win) :
    standing? start? (wins ++ [win]) = some (win.version, win.claimant.identity) := by
  rw [standing?, List.getLast?_concat]

/-- The version and the owner of the row of a lock. -/
def holding? (contest : Contest) (name : String) : Option (Int × String) :=
  (contest.lockRow? name).map fun row => (row.version, row.owner)

/-! ## The tokens of a lock -/

/-- What one event does to the wins of a lock and to the version and owner of its row:
nothing, or it is the write of a next win. -/
inductive TokenStep (contest next : Contest) (event : Event) (name : String) : Prop where
  | kept
      (hWins : next.winsOf name = contest.winsOf name)
      (hHolding : next.holding? name = contest.holding? name)
  | won (win : Win)
      (hEvent : event = .serve win.errand)
      (hVersion : win.version
        = (contest.holding? name).elim 0 fun holding => holding.1 + 1)
      (hWins : next.winsOf name = contest.winsOf name ++ [win])
      (hHolding : next.holding? name = some (win.version, win.claimant.identity))

/-- Renewals do not show in versions and owners, so that an event either keeps both or wins
the lock at the next version. -/
theorem RowChange.tokenStep {contest next : Contest} {event : Event} {name : String}
    (h : RowChange contest next event name) : TokenStep contest next event name := by
  cases h with
  | kept hRow hWins => exact .kept hWins (by rw [holding?, hRow, holding?])
  | renewed hEvent hErrand hStage hName hRow hOwner hNext hWins =>
      refine .kept hWins ?_
      rw [holding?, holding?, hNext, hRow]
      rfl
  | @created id attempt now hEvent hErrand hStage hName hRow hNext hWins =>
      refine .won ⟨id, attempt.claimant, 0⟩ hEvent ?_ hWins ?_
      · rw [holding?, hRow]
        rfl
      · rw [holding?, hNext]
        rfl
  | @taken id attempt read row now hEvent hErrand hStage hName hRow hVersion hNext hWins =>
      refine .won ⟨id, attempt.claimant, read.version + 1⟩ hEvent ?_ hWins ?_
      · rw [holding?, hRow, ← hVersion]
        rfl
      · rw [holding?, hNext]
        rfl

/-- **Tokens and the row.**  The versions of the wins count up from the first one, and the
row is as the last win left it. -/
structure Fenced (start? : Option LockRow) (contest : Contest) (name : String) : Prop where
  versions : (contest.winsOf name).map Win.version
    = (List.range (contest.winsOf name).length).map fun k : Nat => firstVersion start? + k
  holding : contest.holding? name = standing? start? (contest.winsOf name)

namespace Fenced

variable {start? : Option LockRow} {contest next : Contest} {event : Event} {name : String}

/-- The version after the one that the row has is the first one and the number of wins. -/
theorem next_version (h : Fenced start? contest name) :
    ((contest.holding? name).elim 0 fun holding => holding.1 + 1)
      = firstVersion start? + (contest.winsOf name).length := by
  rw [h.holding]
  have hVersions := h.versions
  generalize contest.winsOf name = wins at hVersions
  induction wins using List.reverseRecOn with
  | nil =>
      cases start? with
      | none => rfl
      | some row => simp [standing?, firstVersion]
  | append_singleton wins win _ =>
      -- The last of the versions is the one with the last number.
      have hLast := congrArg List.getLast? hVersions
      have hVersion : win.version = firstVersion start? + (wins.length : Int) := by
        simpa [List.range_succ] using hLast
      rw [standing?_append]
      simp only [Option.elim_some, hVersion, List.length_append, List.length_singleton]
      omega

/-- Every event keeps the invariant. -/
theorem step (h : Fenced start? contest name) (hStep : TokenStep contest next event name) :
    Fenced start? next name := by
  cases hStep with
  | kept hWins hHolding =>
      constructor
      · rw [hWins]
        exact h.versions
      · rw [hHolding, hWins]
        exact h.holding
  | won win hEvent hVersion hWins hHolding =>
      constructor
      · rw [hWins, List.map_append, h.versions, List.length_append, List.length_singleton,
          List.range_succ, List.map_append]
        rw [h.next_version] at hVersion
        simp [hVersion]
      · rw [hHolding, hWins, standing?_append]

theorem around {database table : String} {memory : Memory} (name : String) :
    Fenced (memory.lockRow? (lockSpace database table) name)
      (Contest.around database table memory) name :=
  ⟨rfl, rfl⟩

/-- Every run keeps the invariant. -/
theorem run (h : Fenced start? contest name) (hLegal : contest.Legal) {events : List Event}
    (hRun : contest.run? events = some next) : Fenced start? next name := by
  refine runs?_induction (motive := fun _ contest => Fenced start? contest name) h ?_ hRun
  intro events before event after hBefore hFenced hStep
  exact hFenced.step
    ((hLegal.run hBefore).rowChange_of_step (step_of_step? hStep) name).tokenStep

end Fenced

/-! ## Wins and the attempts that have won -/

/-- **Wins are attempts.**  The wins are the errands that have ended with a lock, each
errand once. -/
structure Recorded (contest : Contest) : Prop where
  mem_wins_iff : ∀ win, win ∈ contest.wins ↔
    ∃ errand, contest.errands[win.errand]? = some errand ∧
      errand.claimant = win.claimant ∧ errand.acquired? = some win.version
  nodup : (contest.wins.map Win.errand).Nodup

/-- Errands that have their lock are attempts that have ended with it. -/
theorem acquired?_eq_some_iff {errand : Errand} {version : Int} :
    errand.acquired? = some version ↔
      ∃ attempt, errand = .attempt attempt ∧
        attempt.result? = some (.ok (.acquired version)) := by
  constructor
  · intro h
    cases errand with
    | attempt attempt =>
        refine ⟨attempt, rfl, ?_⟩
        simp only [Errand.acquired?] at h
        split at h
        · next won hStage =>
          obtain rfl := Option.some.inj h
          rw [Attempt.result?, hStage]
        · cases h
    | renewal renewal => cases h
    | lookup lookup => cases h
  · rintro ⟨attempt, rfl, hResult⟩
    unfold Attempt.result? at hResult
    split at hResult
    · next result hStage =>
      obtain rfl := Option.some.inj hResult
      simp only [Errand.acquired?, hStage]
    · cases hResult

/-- An errand that still asks for something has not got its lock yet. -/
theorem acquired?_eq_none_of_request? {errand : Errand} {request : Request}
    (h : errand.request? = some request) : errand.acquired? = none := by
  cases errand with
  | attempt attempt =>
      cases hStage : attempt.stage <;>
        simp_all [Errand.acquired?, Errand.request?, Attempt.request?]
  | renewal renewal => rfl
  | lookup lookup => rfl

/-- No lock is had by reading the clock. -/
theorem acquired?_resume_time {errand : Errand} (h : errand.request? = some .time)
    (now : Instant) : (errand.resume (.time now)).acquired? = none := by
  cases errand with
  | attempt attempt =>
      cases hStage : attempt.stage with
      | judging row =>
          simp only [Errand.resume, Attempt.resume, Attempt.nextStage, hStage,
            Attempt.afterJudgement, Errand.acquired?]
          rcases Attempt.claim_cases row with ⟨-, hClaim⟩ | ⟨-, hClaim⟩ <;> rw [hClaim] <;>
            cases row.isExpired now attempt.lease <;> rfl
      | _ =>
          simp_all [Errand.acquired?, Errand.request?, Attempt.request?, Errand.resume,
            Attempt.resume, Attempt.nextStage]
  | renewal renewal => rfl
  | lookup lookup => rfl

/-- No lock is had by a call that fails. -/
theorem acquired?_resume_error {errand : Errand} {call : Call}
    (h : errand.request? = some (.call call)) (error : StoreError) :
    (errand.resume (.reply (.error error))).acquired? = none := by
  cases errand with
  | attempt attempt =>
      cases hStage : attempt.stage <;>
        simp_all [Errand.acquired?, Errand.request?, Attempt.request?, Errand.resume,
          Attempt.resume, Attempt.nextStage, Attempt.afterCount, Attempt.afterInsert,
          Attempt.afterSearch, Attempt.afterReplace]
  | renewal renewal => rfl
  | lookup lookup => rfl

namespace Recorded

variable {contest next : Contest}

theorem around {database table : String} {memory : Memory} :
    (Contest.around database table memory).Recorded := by
  constructor
  · intro win
    simp [Contest.around]
  · exact List.nodup_nil

/-- An errand that begins has not won. -/
theorem start (h : contest.Recorded) (claimant : Claimant) (task : Task) :
    Recorded { contest with errands := contest.errands ++ [task.start claimant] } := by
  refine ⟨fun win => (h.mem_wins_iff win).trans ?_, h.nodup⟩
  have hTask : (task.start claimant).acquired? = none := by cases task <;> rfl
  constructor
  · rintro ⟨errand, hErrand, hRest⟩
    obtain ⟨hBound, -⟩ := List.getElem?_eq_some_iff.mp hErrand
    exact ⟨errand, by rw [List.getElem?_append_left hBound]; exact hErrand, hRest⟩
  · rintro ⟨errand, hErrand, hClaimant, hWon⟩
    refine ⟨errand, ?_, hClaimant, hWon⟩
    rcases Nat.lt_or_ge win.errand contest.errands.length with hBound | hBound
    · rwa [List.getElem?_append_left hBound] at hErrand
    · rw [List.getElem?_append_right hBound, List.getElem?_singleton] at hErrand
      split at hErrand
      · rw [← Option.some.inj hErrand, hTask] at hWon
        cases hWon
      · cases hErrand

/-- An errand that moves on and wins if it now has its lock. -/
theorem move (h : contest.Recorded) {id : Nat} {errand moved : Errand}
    (hErrand : contest.errands[id]? = some errand) (hBefore : errand.acquired? = none)
    (hErrands : next.errands = contest.errands.set id moved)
    (hWins : next.wins = contest.wins ++ winOf id moved) : next.Recorded := by
  obtain ⟨hBound, -⟩ := List.getElem?_eq_some_iff.mp hErrand
  have hFresh : ∀ win ∈ contest.wins, win.errand ≠ id := by
    rintro win hWin rfl
    obtain ⟨found, hFound, -, hWon⟩ := (h.mem_wins_iff win).mp hWin
    obtain rfl : errand = found := Option.some.inj (hErrand.symm.trans hFound)
    rw [hBefore] at hWon
    cases hWon
  constructor
  · intro win
    rw [hWins, hErrands, List.mem_append]
    by_cases hId : win.errand = id
    · subst hId
      have hOld : win ∉ contest.wins := fun hWin => hFresh win hWin rfl
      rw [List.getElem?_set_self hBound]
      constructor
      · rintro (hWin | hWin)
        · exact absurd hWin hOld
        · obtain ⟨version, hVersion, hEq⟩ := Option.map_eq_some_iff.mp (Option.mem_toList.mp hWin)
          exact ⟨moved, rfl, congrArg Win.claimant hEq, by rw [hVersion, ← hEq]⟩
      · rintro ⟨found, hFound, hClaimant, hWon⟩
        obtain rfl : moved = found := Option.some.inj hFound
        refine .inr (Option.mem_toList.mpr (Option.map_eq_some_iff.mpr ⟨win.version, hWon, ?_⟩))
        rw [hClaimant]
    · rw [List.getElem?_set_ne (Ne.symm hId), ← h.mem_wins_iff win]
      refine or_iff_left fun hWin => hId ?_
      obtain ⟨version, -, hEq⟩ := Option.map_eq_some_iff.mp (Option.mem_toList.mp hWin)
      rw [← hEq]
  · rw [hWins, List.map_append]
    refine List.nodup_append.mpr ⟨h.nodup, ?_, ?_⟩
    · unfold winOf
      cases moved.acquired? <;> simp
    · intro other hOld new hNew
      obtain ⟨win, hWin, rfl⟩ := List.mem_map.mp hOld
      obtain ⟨last, hLast, rfl⟩ := List.mem_map.mp hNew
      obtain ⟨version, -, rfl⟩ := Option.map_eq_some_iff.mp (Option.mem_toList.mp hLast)
      exact hFresh win hWin

/-- Every event keeps the invariant. -/
theorem step (h : contest.Recorded) {event : Event} (hStep : Step contest event next) :
    next.Recorded := by
  cases hStep with
  | start identity name task => exact h.start _ task
  | tell now hErrand hRequest =>
      refine h.move hErrand (acquired?_eq_none_of_request? hRequest) rfl ?_
      rw [winOf, acquired?_resume_time hRequest]
      exact (List.append_nil _).symm
  | fail error hErrand hRequest =>
      refine h.move hErrand (acquired?_eq_none_of_request? hRequest) rfl ?_
      rw [winOf, acquired?_resume_error hRequest]
      exact (List.append_nil _).symm
  | serve hErrand hRequest =>
      exact h.move hErrand (acquired?_eq_none_of_request? hRequest) rfl rfl

/-- Every run keeps the invariant. -/
theorem run (h : contest.Recorded) {events : List Event}
    (hRun : contest.run? events = some next) : next.Recorded :=
  runs?_induction (motive := fun _ contest => contest.Recorded) h
    (fun _ _ _ _ _ hBefore hStep => hBefore.step (step_of_step? hStep)) hRun

/-- The wins of a lock are the attempts on it that have ended with it. -/
theorem mem_winsOf_iff (h : contest.Recorded) (name : String) (win : Win) :
    win ∈ contest.winsOf name ↔
      win.claimant.name = name ∧ ∃ attempt,
        contest.errands[win.errand]? = some (.attempt attempt) ∧
        attempt.claimant = win.claimant ∧
        attempt.result? = some (.ok (.acquired win.version)) := by
  rw [winsOf, List.mem_filter, decide_eq_true_iff, h.mem_wins_iff win, and_comm]
  refine and_congr_right fun _ => ⟨?_, ?_⟩
  · rintro ⟨errand, hErrand, hClaimant, hWon⟩
    obtain ⟨attempt, rfl, hResult⟩ := acquired?_eq_some_iff.mp hWon
    exact ⟨attempt, hErrand, hClaimant, hResult⟩
  · rintro ⟨attempt, hErrand, hClaimant, hResult⟩
    exact ⟨.attempt attempt, hErrand, hClaimant, acquired?_eq_some_iff.mpr ⟨attempt, rfl, hResult⟩⟩

end Recorded

/-! ## Tokens of a run -/

/-- **Fencing tokens are consecutive.**  Take any run on a table of locks.  The attempts that
have ended with a lock are its wins; their versions count up from the first one, in the
order of their writes, so that no version is returned twice; the row has the version and
the owner of the last win; and every further event either leaves the wins, the version
and the owner alone or is the write of one more win, after all earlier ones. -/
theorem versions_consecutive {database table : String} {memory : Memory}
    (hLocks : memory.HoldsLocks (lockSpace database table)) {events : List Event}
    {contest : Contest} (hRun : (around database table memory).run? events = some contest)
    (name : String) :
    let start? := memory.lockRow? (lockSpace database table) name
    let wins := contest.winsOf name
    (∀ win, win ∈ wins ↔
      win.claimant.name = name ∧ ∃ attempt,
        contest.errands[win.errand]? = some (.attempt attempt) ∧
        attempt.claimant = win.claimant ∧
        attempt.result? = some (.ok (.acquired win.version))) ∧
      wins.map Win.version = (List.range wins.length).map (fun k : Nat => firstVersion start? + k) ∧
      (∀ (first second : Nat) (attempt other : Attempt) (version : Int),
        contest.errands[first]? = some (.attempt attempt) → attempt.claimant.name = name →
        attempt.result? = some (.ok (.acquired version)) →
        contest.errands[second]? = some (.attempt other) → other.claimant.name = name →
        other.result? = some (.ok (.acquired version)) → first = second) ∧
      contest.holding? name = standing? start? wins ∧
      ∀ event next, contest.step? event = some next → TokenStep contest next event name := by
  intro start? wins
  have hLegal : contest.Legal := (legal_around hLocks).run hRun
  have hRecorded : contest.Recorded := Recorded.around.run hRun
  have hFenced : Fenced start? contest name :=
    (Fenced.around name).run (legal_around hLocks) hRun
  refine ⟨hRecorded.mem_winsOf_iff name, hFenced.versions, ?_, hFenced.holding, ?_⟩
  · intro first second attempt other version hFirst hName hResult hSecond hOther hOtherResult
    have hWin : (⟨first, attempt.claimant, version⟩ : Win) ∈ wins :=
      (hRecorded.mem_winsOf_iff name _).mpr ⟨hName, attempt, hFirst, rfl, hResult⟩
    have hOtherWin : (⟨second, other.claimant, version⟩ : Win) ∈ wins :=
      (hRecorded.mem_winsOf_iff name _).mpr ⟨hOther, other, hSecond, rfl, hOtherResult⟩
    -- Versions that count up are different, so that one version is one win.
    have hNodup : (wins.map Win.version).Nodup := by
      rw [hFenced.versions]
      refine List.nodup_range.map fun a b h => ?_
      exact Int.ofNat_inj.mp (Int.add_left_cancel h)
    exact congrArg Win.errand (List.inj_on_of_nodup_map hNodup hWin hOtherWin rfl)
  · intro event next hStep
    exact (hLegal.rowChange_of_step (step_of_step? hStep) name).tokenStep

/-- Two nodes read one expired row and race for it while its owner renews it too late; the
owner has to wait until it can take the row back. -/
def expiredRace : List Event :=
  [.start "b" "job" (.attempt (.ofSeconds 10)), .start "c" "job" (.attempt (.ofSeconds 10)),
    .start "a" "job" .renewal, .serve 0, .serve 1, .serve 1, .serve 0, .tell 0 ⟨11, 0⟩,
    .tell 1 ⟨11, 0⟩, .tell 2 ⟨11, 0⟩, .tell 1 ⟨11, 0⟩, .tell 0 ⟨12, 0⟩, .serve 1, .serve 0,
    .serve 2, .start "a" "job" (.attempt (.ofSeconds 10)), .serve 3, .serve 3, .tell 3 ⟨22, 0⟩,
    .tell 3 ⟨22, 0⟩, .serve 3]

/-- A store with the row of one lock at version 7. -/
def heldStore : Memory :=
  .ofLocks standardLockSpace [⟨"job", 7, "a", ⟨0, 0⟩⟩]

/-- A lock table with the row of one lock, with nodes around it. -/
def heldTable : Contest := around Lock.standardDatabase Lock.standardTable heldStore

theorem versions_of_expiredRace :
    ∃ contest, (around Lock.standardDatabase Lock.standardTable heldStore).run? expiredRace
        = some contest ∧
      heldStore.HoldsLocks standardLockSpace ∧
      (contest.winsOf "job").map Win.version = [8, 9] ∧
      contest.holding? "job" = some (9, "a") := by
  have hLocks : heldStore.HoldsLocks standardLockSpace :=
    Memory.holdsLocks_ofLocks (List.pairwise_singleton _ _)
  have hRuns : ((around Lock.standardDatabase Lock.standardTable heldStore).run?
      expiredRace).isSome = true := by decide
  obtain ⟨contest, hRun⟩ := Option.isSome_iff_exists.mp hRuns
  have hWins : contest.winsOf "job"
      = [⟨1, ⟨standardLockSpace, "c", "job"⟩, 8⟩, ⟨3, ⟨standardLockSpace, "a", "job"⟩, 9⟩] := by
    have hEvaluated : ((around Lock.standardDatabase Lock.standardTable heldStore).run?
        expiredRace).map (fun contest => contest.winsOf "job")
        = some [⟨1, ⟨standardLockSpace, "c", "job"⟩, 8⟩,
          ⟨3, ⟨standardLockSpace, "a", "job"⟩, 9⟩] := by
      decide
    rw [hRun] at hEvaluated
    exact Option.some.inj hEvaluated
  obtain ⟨-, hVersions, -, hHolding, -⟩ := versions_consecutive hLocks hRun "job"
  rw [hWins] at hVersions hHolding
  refine ⟨contest, hRun, hLocks, ?_, hHolding⟩
  rw [hWins, hVersions]
  decide

end Contest
end Leasehold
