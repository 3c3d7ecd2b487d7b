import Leasehold.Proofs.Lock.Fencing

/-!
# What a run has done

The wins of a run are a list that only grows, and so is what else has happened.  This module
looks at a run from its end: which event has won a lock for the last time, what has become of
an attempt since it was seen at some stage, and how the versions of a row count the wins.

* `Contest.Event.errand?`: the errand that an event moves.
* `Contest.StageStep`: the stages in which one event can leave an attempt.
* `Contest.FitsWord`: no version outgrows its word, neither in a row nor in an attempt.
* `Contest.holdsInt_of_acquired`: what this says of the versions that attempts are told of.
* `Contest.version?`: the version of the row of a lock; in a run it says how often the lock
  was won.
* `Contest.Wins`: an event of a run that wins a lock.
* `Contest.Legal.winsOf_growth`: every win has its event, and the wins before it are the
  earlier ones.
* `Contest.Legal.exists_wins`: a version that has changed has changed by a win.
-/

namespace Leasehold
namespace Contest

/-- The errand that an event moves. -/
def Event.errand? : Event → Option Nat
  | .start _ _ _ => none
  | .tell id _ => some id
  | .serve id => some id
  | .fail id _ => some id

/-! ## What becomes of an errand -/

variable {contest next : Contest} {event : Event} {id : Nat} {name : String}

/-- An event that moves another errand, or none, leaves an errand as it is. -/
theorem Step.getElem?_of_errand?_ne (hStep : Step contest event next) {errand : Errand}
    (h : contest.errands[id]? = some errand) (hOther : event.errand? ≠ some id) :
    next.errands[id]? = some errand := by
  cases hStep with
  | start identity name task =>
      obtain ⟨hBound, -⟩ := List.getElem?_eq_some_iff.mp h
      exact (List.getElem?_append_left hBound).trans h
  | tell now hErrand hRequest =>
      exact (List.getElem?_set_ne fun hId => hOther (congrArg some hId)).trans h
  | serve hErrand hRequest =>
      exact (List.getElem?_set_ne fun hId => hOther (congrArg some hId)).trans h
  | fail error hErrand hRequest =>
      exact (List.getElem?_set_ne fun hId => hOther (congrArg some hId)).trans h

/-- Only the store's answers change the store. -/
theorem Step.memory_eq (hStep : Step contest event next) (hEvent : ∀ id, event ≠ .serve id) :
    next.memory = contest.memory := by
  cases hStep with
  | start identity name task => rfl
  | tell now hErrand hRequest => rfl
  | serve hErrand hRequest => exact absurd rfl (hEvent _)
  | fail error hErrand hRequest => rfl

/-- **One event in the life of an attempt**: the stages in which it can leave the attempt,
given the row of its name. -/
inductive StageStep (row? : Option LockRow) (event : Event) (id : Nat) (attempt : Attempt) :
    Attempt.Stage → Prop where
  | kept (hEvent : event.errand? ≠ some id) : StageStep row? event id attempt attempt.stage
  | told {now : Instant} (hEvent : event = .tell id now)
      (hRequest : attempt.request? = some .time) :
      StageStep row? event id attempt (attempt.nextStage (.time now))
  | served {call : Call} (hEvent : event = .serve id)
      (hRequest : attempt.request? = some (.call call)) :
      StageStep row? event id attempt (attempt.stageAfter row?)
  | failed {call : Call} {error : StoreError} (hEvent : event = .fail id error)
      (hRequest : attempt.request? = some (.call call)) :
      StageStep row? event id attempt (.finished (.error (.store error)))

theorem StageStep.of_serve {row? : Option LockRow} {attempt : Attempt} {stage : Attempt.Stage}
    (h : StageStep row? (.serve id) id attempt stage) : stage = attempt.stageAfter row? := by
  cases h with
  | kept hEvent => exact absurd rfl hEvent
  | told hEvent => cases hEvent
  | served => rfl
  | failed hEvent => cases hEvent

theorem StageStep.of_tell {row? : Option LockRow} {attempt : Attempt} {stage : Attempt.Stage}
    {now : Instant} (h : StageStep row? (.tell id now) id attempt stage) :
    stage = attempt.nextStage (.time now) := by
  cases h with
  | kept hEvent => exact absurd rfl hEvent
  | told hEvent =>
      cases hEvent
      rfl
  | served hEvent => cases hEvent
  | failed hEvent => cases hEvent

/-- A call that fails ends an attempt with its error. -/
theorem nextStage_error {attempt : Attempt} {call : Call}
    (hRequest : attempt.request? = some (.call call)) (error : StoreError) :
    attempt.nextStage (.reply (.error error)) = .finished (.error (.store error)) := by
  cases hStage : attempt.stage <;>
    simp_all [Attempt.request?, Attempt.nextStage, Attempt.afterCount, Attempt.afterInsert,
      Attempt.afterSearch, Attempt.afterReplace]

/-- What one event makes of an attempt. -/
theorem Legal.exists_stageStep (hLegal : contest.Legal) (hStep : Step contest event next)
    {attempt : Attempt} (h : contest.errands[id]? = some (.attempt attempt)) :
    ∃ stage, next.errands[id]? = some (.attempt { attempt with stage := stage }) ∧
      StageStep (contest.lockRow? attempt.claimant.name) event id attempt stage := by
  obtain ⟨hBound, -⟩ := List.getElem?_eq_some_iff.mp h
  by_cases hMoved : event.errand? = some id
  · cases hStep with
    | start identity name task => cases hMoved
    | @tell target errand now hErrand hRequest =>
        obtain rfl : target = id := Option.some.inj hMoved
        obtain rfl : errand = .attempt attempt := Option.some.inj (hErrand.symm.trans h)
        exact ⟨_, List.getElem?_set_self hBound, .told rfl hRequest⟩
    | @serve target errand call hErrand hRequest =>
        obtain rfl : target = id := Option.some.inj hMoved
        obtain rfl : errand = .attempt attempt := Option.some.inj (hErrand.symm.trans h)
        obtain ⟨-, hNext⟩ := hLegal.served_attempt hErrand hRequest
        refine ⟨_, ?_, .served rfl hRequest⟩
        rw [hNext]
        exact List.getElem?_set_self hBound
    | @fail target errand call error hErrand hRequest =>
        obtain rfl : target = id := Option.some.inj hMoved
        obtain rfl : errand = .attempt attempt := Option.some.inj (hErrand.symm.trans h)
        refine ⟨_, (List.getElem?_set_self hBound).trans ?_, .failed rfl hRequest⟩
        rw [Errand.resume, Attempt.resume, nextStage_error hRequest error]
  · exact ⟨attempt.stage, hStep.getElem?_of_errand?_ne h hMoved, .kept hMoved⟩

/-- An attempt that is there after an event has just begun, or it is what the event makes of
an attempt that was there. -/
theorem Legal.attempt_cases (hLegal : contest.Legal) (hStep : Step contest event next)
    {moved : Attempt} (h : next.errands[id]? = some (.attempt moved)) :
    moved.stage = .counting ∨
      ∃ attempt, contest.errands[id]? = some (.attempt attempt) ∧
        moved = { attempt with stage := moved.stage } ∧
        StageStep (contest.lockRow? attempt.claimant.name) event id attempt moved.stage := by
  have hEarlier : ∀ attempt, contest.errands[id]? = some (.attempt attempt) →
      moved = { attempt with stage := moved.stage } ∧
        StageStep (contest.lockRow? attempt.claimant.name) event id attempt moved.stage := by
    intro attempt hAttempt
    obtain ⟨stage, hNext, hStage⟩ := hLegal.exists_stageStep hStep hAttempt
    obtain rfl : moved = { attempt with stage := stage } :=
      Errand.attempt.inj (Option.some.inj (h.symm.trans hNext))
    exact ⟨rfl, hStage⟩
  cases hStep.origin h with
  | same hSame => exact .inr ⟨moved, hSame, hEarlier moved hSame⟩
  | @begun identity name task hNext =>
      cases task with
      | attempt lease => exact .inl (by rw [Errand.attempt.inj hNext]; rfl)
      | renewal => cases hNext
      | lookup => cases hNext
  | @told earlier now hEvent hErrand hRequest hNext =>
      cases earlier with
      | attempt attempt => exact .inr ⟨attempt, hErrand, hEarlier attempt hErrand⟩
      | renewal renewal => cases hNext
      | lookup lookup => cases hNext
  | @served earlier call hEvent hErrand hRequest hNext =>
      cases earlier with
      | attempt attempt => exact .inr ⟨attempt, hErrand, hEarlier attempt hErrand⟩
      | renewal renewal => cases hNext
      | lookup lookup => cases hNext
  | @failed earlier call error hEvent hErrand hRequest hNext =>
      cases earlier with
      | attempt attempt => exact .inr ⟨attempt, hErrand, hEarlier attempt hErrand⟩
      | renewal renewal => cases hNext
      | lookup lookup => cases hNext

/-- An errand that has ended stays as it is in every run. -/
theorem getElem?_of_run {events : List Event} {errand : Errand}
    (hRun : contest.run? events = some next) (h : contest.errands[id]? = some errand)
    (hEnded : errand.request? = none) : next.errands[id]? = some errand :=
  runs?_induction (motive := fun _ later => later.errands[id]? = some errand) h
    (fun _ _ _ _ _ hBefore hStep => (step_of_step? hStep).getElem?_of_ended hBefore hEnded) hRun

/-! ## Versions are words -/

end Contest

/-- The version that a stage has to do with fits a word: the version of a row that is judged, the
one after that of a row that is about to be taken over, or the version that was had. -/
def Attempt.Stage.FitsWord : Attempt.Stage → Prop
  | .judging row => Word.holdsInt 64 row.version = true
  | .claiming row => Word.holdsInt 64 (row.version + 1) = true
  | .replacing row _ => Word.holdsInt 64 (row.version + 1) = true
  | .finished (.ok (.acquired version)) => Word.holdsInt 64 version = true
  | _ => True

namespace Attempt

/-- A row is claimed only if the version after its own fits a word. -/
theorem fitsWord_claim {row : LockRow} (hRow : Word.holdsInt 64 row.version = true) :
    (claim row).FitsWord := by
  rcases claim_cases row with ⟨hRaisable, hClaim⟩ | ⟨-, hClaim⟩
  · rw [hClaim]
    obtain ⟨hLeast, -⟩ := Word.holdsInt_iff.mp hRow
    have hBelow : row.version < Word.maxInt 64 := of_decide_eq_true hRaisable
    exact Word.holdsInt_iff.mpr ⟨by omega, by omega⟩
  · rw [hClaim]
    exact True.intro

/-- A clock reading keeps the versions of an attempt within a word. -/
theorem fitsWord_told {attempt : Attempt} (h : attempt.stage.FitsWord) (now : Instant) :
    (attempt.nextStage (.time now)).FitsWord := by
  cases hStage : attempt.stage with
  | judging row =>
      rw [hStage] at h
      simp only [nextStage, hStage, afterJudgement]
      split
      · exact fitsWord_claim h
      · exact True.intro
  | claiming row =>
      rw [hStage] at h
      simp only [nextStage, hStage]
      exact h
  | stamping => simp [nextStage, hStage, Stage.FitsWord]
  | _ => simpa only [nextStage, hStage] using h

/-- A call keeps the versions of an attempt within a word, if the row that it meets has one. -/
theorem fitsWord_stageAfter {attempt : Attempt} {row? : Option LockRow}
    (h : attempt.stage.FitsWord)
    (hRow : ∀ row, row? = some row → Word.holdsInt 64 row.version = true) :
    (attempt.stageAfter row?).FitsWord := by
  cases hStage : attempt.stage with
  | searching =>
      cases row? with
      | none => simp [stageAfter, hStage, Stage.FitsWord]
      | some row =>
          simp only [stageAfter, hStage]
          split
          · exact fitsWord_claim (hRow row rfl)
          · exact hRow row rfl
  | replacing read now =>
      rw [hStage] at h
      cases row? with
      | none => simp [stageAfter, hStage, Stage.FitsWord]
      | some row =>
          simp only [stageAfter, hStage]
          split
          · exact h
          · exact True.intro
  | inserting now =>
      cases row? with
      | none =>
          simp only [stageAfter, hStage, Stage.FitsWord]
          decide
      | some row => simp [stageAfter, hStage, Stage.FitsWord]
  | counting => cases row? <;> simp [stageAfter, hStage, Stage.FitsWord]
  | _ => simpa [stageAfter, hStage] using h

end Attempt

namespace Contest

variable {contest next : Contest} {event : Event} {id : Nat} {name : String}

/-- What one event makes of an attempt keeps its versions within a word. -/
theorem StageStep.fitsWord {row? : Option LockRow} {attempt : Attempt} {stage : Attempt.Stage}
    (hStep : StageStep row? event id attempt stage) (h : attempt.stage.FitsWord)
    (hRow : ∀ row, row? = some row → Word.holdsInt 64 row.version = true) : stage.FitsWord := by
  cases hStep with
  | kept hEvent => exact h
  | told hEvent hRequest => exact Attempt.fitsWord_told h _
  | served hEvent hRequest => exact Attempt.fitsWord_stageAfter h hRow
  | failed hEvent hRequest => exact True.intro

/-- **Versions are words.**  The versions of all rows and of all attempts fit words of 64 bits. -/
structure FitsWord (contest : Contest) : Prop where
  rows : ∀ name row, contest.lockRow? name = some row → Word.holdsInt 64 row.version = true
  stages : ∀ (id : Nat) (attempt : Attempt), contest.errands[id]? = some (.attempt attempt) →
    attempt.stage.FitsWord

namespace FitsWord

theorem around {database table : String} {memory : Memory}
    (h : ∀ name row, memory.lockRow? (lockSpace database table) name = some row →
      Word.holdsInt 64 row.version = true) :
    (Contest.around database table memory).FitsWord :=
  ⟨h, by simp [Contest.around]⟩

/-- Every event keeps the invariant: a row is taken over at the version that its attempt has
claimed. -/
theorem step (h : contest.FitsWord) (hLegal : contest.Legal)
    (hStep : Step contest event next) : next.FitsWord := by
  refine ⟨fun name row hRow => ?rows, fun id attempt hAttempt => ?stages⟩
  case rows =>
    cases hLegal.rowChange_of_step hStep name with
    | kept hSame hWins => exact h.rows name row (hSame ▸ hRow)
    | renewed hEvent hErrand hStage hName hBefore hOwner hNext hWins =>
        have hVersion := h.rows name _ hBefore
        obtain rfl := Option.some.inj (hNext.symm.trans hRow)
        exact hVersion
    | created hEvent hErrand hStage hName hBefore hNext hWins =>
        have hZero : Word.holdsInt 64 0 = true := by decide
        obtain rfl := Option.some.inj (hNext.symm.trans hRow)
        exact hZero
    | taken hEvent hErrand hStage hName hBefore hVersion hNext hWins =>
        obtain rfl := Option.some.inj (hNext.symm.trans hRow)
        have hClaimed := h.stages _ _ hErrand
        rw [hStage] at hClaimed
        exact hClaimed
  case stages =>
    rcases hLegal.attempt_cases hStep hAttempt with hStage | ⟨earlier, hEarlier, -, hStage⟩
    · rw [hStage]
      exact True.intro
    · exact hStage.fitsWord (h.stages id earlier hEarlier) (h.rows _)

/-- Every run keeps the invariant. -/
theorem run (h : contest.FitsWord) (hLegal : contest.Legal) {events : List Event}
    (hRun : contest.run? events = some next) : next.FitsWord := by
  refine runs?_induction (motive := fun _ later => later.FitsWord) h ?_ hRun
  intro events before event after hBefore hFits hStep
  exact hFits.step (hLegal.run hBefore) (step_of_step? hStep)

end FitsWord

/-- Around a table whose versions are words, no attempt is told of a version that is none. -/
theorem holdsInt_of_acquired {database table : String} {memory : Memory}
    (hLocks : memory.HoldsLocks (lockSpace database table))
    (hRows : ∀ name row, memory.lockRow? (lockSpace database table) name = some row →
      Word.holdsInt 64 row.version = true)
    {events : List Event} (hRun : (around database table memory).run? events = some contest)
    {attempt : Attempt} {version : Int} (hAttempt : contest.errands[id]? = some (.attempt attempt))
    (hResult : attempt.result? = some (.ok (.acquired version))) :
    Word.holdsInt 64 version = true := by
  have hFits := (FitsWord.around hRows).run (legal_around hLocks) hRun
  have hStage := hFits.stages id attempt hAttempt
  unfold Attempt.result? at hResult
  split at hResult
  · next result hEnd =>
    obtain rfl := Option.some.inj hResult
    rw [hEnd] at hStage
    exact hStage
  · cases hResult

/-! ## Versions count wins -/

/-- The version of the row of a lock, if it has one. -/
def version? (contest : Contest) (name : String) : Option Int :=
  (contest.lockRow? name).map LockRow.version

theorem version?_eq_holding? (contest : Contest) (name : String) :
    contest.version? name = (contest.holding? name).map Prod.fst := by
  rw [version?, holding?, Option.map_map]
  rfl

/-- The token with which a lock is had whose row has a version, or that has no row. -/
def tokenAt (version? : Option Int) : Int := version?.elim 0 (· + 1)

namespace Fenced

variable {start? : Option LockRow}

/-- The next token of a lock says how often it was won. -/
theorem tokenAt_version? (h : Fenced start? contest name) :
    tokenAt (contest.version? name) = firstVersion start? + (contest.winsOf name).length := by
  rw [← h.next_version, tokenAt, version?_eq_holding?]
  cases contest.holding? name <;> rfl

/-- A lock that was never won has the row of the beginning. -/
theorem version?_of_nil (h : Fenced start? contest name) (hNil : contest.winsOf name = []) :
    contest.version? name = start?.map LockRow.version := by
  rw [version?_eq_holding?, h.holding, hNil, standing?, List.getLast?_nil, Option.map_map]
  rfl

/-- A lock that was won has a row. -/
theorem version?_ne_none (h : Fenced start? contest name) (hWon : contest.winsOf name ≠ []) :
    contest.version? name ≠ none := by
  rw [version?_eq_holding?, h.holding, standing?, List.getLast?_eq_some_getLast hWon]
  exact Option.some_ne_none _

/-- **Versions count wins.**  At two points of a run the row of a lock has the same version
exactly if the lock was won as often. -/
theorem version?_eq_iff {other : Contest} (h : Fenced start? contest name)
    (hOther : Fenced start? other name) :
    contest.version? name = other.version? name ↔
      (contest.winsOf name).length = (other.winsOf name).length := by
  constructor
  · intro hVersion
    have hToken := h.tokenAt_version?
    rw [hVersion, hOther.tokenAt_version?] at hToken
    omega
  · intro hLength
    cases hWins : contest.winsOf name with
    | nil =>
        rw [hWins] at hLength
        rw [h.version?_of_nil hWins,
          hOther.version?_of_nil (List.eq_nil_of_length_eq_zero hLength.symm)]
    | cons first rest =>
        have hWon : contest.winsOf name ≠ [] := by simp [hWins]
        have hOtherWon : other.winsOf name ≠ [] := by
          intro hNil
          rw [hWins, hNil] at hLength
          cases hLength
        obtain ⟨version, hVersion⟩ := Option.ne_none_iff_exists'.mp (h.version?_ne_none hWon)
        obtain ⟨otherVersion, hOtherVersion⟩ :=
          Option.ne_none_iff_exists'.mp (hOther.version?_ne_none hOtherWon)
        have hToken := h.tokenAt_version?
        have hOtherToken := hOther.tokenAt_version?
        rw [hVersion] at hToken
        rw [hOtherVersion] at hOtherToken
        simp only [tokenAt, Option.elim_some] at hToken hOtherToken
        rw [hVersion, hOtherVersion]
        congr 1
        omega

/-- The version of a win says which win of the lock it is. -/
theorem version_eq (h : Fenced start? contest name) {k : Nat} {win : Win}
    (hWin : (contest.winsOf name)[k]? = some win) : win.version = firstVersion start? + k := by
  obtain ⟨hBound, -⟩ := List.getElem?_eq_some_iff.mp hWin
  have hVersion : ((contest.winsOf name).map Win.version)[k]? = some win.version := by
    rw [List.getElem?_map, hWin]
    rfl
  rw [h.versions, List.getElem?_map, List.getElem?_range hBound] at hVersion
  exact (Option.some.inj hVersion).symm

/-- Every win has a version before the next token. -/
theorem version_lt (h : Fenced start? contest name) {win : Win}
    (hWin : win ∈ contest.winsOf name) : win.version < tokenAt (contest.version? name) := by
  obtain ⟨k, hBound, hGet⟩ := List.mem_iff_getElem.mp hWin
  rw [h.version_eq (List.getElem?_eq_some_iff.mpr ⟨hBound, hGet⟩), h.tokenAt_version?]
  omega

/-- No two wins of a lock have the same version. -/
theorem win_eq (h : Fenced start? contest name) {win other : Win}
    (hWin : win ∈ contest.winsOf name) (hOther : other ∈ contest.winsOf name)
    (hVersion : win.version = other.version) : win = other := by
  obtain ⟨k, hBound, rfl⟩ := List.mem_iff_getElem.mp hWin
  obtain ⟨l, hOtherBound, rfl⟩ := List.mem_iff_getElem.mp hOther
  rw [h.version_eq (List.getElem?_eq_some_iff.mpr ⟨hBound, rfl⟩),
    h.version_eq (List.getElem?_eq_some_iff.mpr ⟨hOtherBound, rfl⟩)] at hVersion
  obtain rfl : k = l := by omega
  rfl

end Fenced

/-! ## Wins have their events -/

/-- **An event that wins a lock.** -/
structure Wins (start : Contest) (events early late : List Event) (before after : Contest)
    (name : String) (win : Win) : Prop where
  occurs : Occurs step? start events early (.serve win.errand) late before after
  winsOf : after.winsOf name = before.winsOf name ++ [win]

theorem Wins.append {start before after : Contest} {events early late : List Event} {win : Win}
    (h : Wins start events early late before after name win) (more : List Event) :
    Wins start (events ++ more) early (late ++ more) before after name win :=
  ⟨h.occurs.append more, h.winsOf⟩

/-- **Every win has its event.**  A run adds wins to those of a lock, and each of them is the
write of its attempt, before which the lock had the wins in front of it. -/
theorem Legal.winsOf_growth (hLegal : contest.Legal) {events : List Event}
    (hRun : contest.run? events = some next) (name : String) :
    ∃ more, next.winsOf name = contest.winsOf name ++ more ∧
      ∀ k win, more[k]? = some win → ∃ early late before after,
        Wins contest events early late before after name win ∧
        before.winsOf name = contest.winsOf name ++ more.take k := by
  refine runs?_induction
    (motive := fun events later => ∃ more, later.winsOf name = contest.winsOf name ++ more ∧
      ∀ k win, more[k]? = some win → ∃ early late before after,
        Wins contest events early late before after name win ∧
        before.winsOf name = contest.winsOf name ++ more.take k)
    ⟨[], (List.append_nil _).symm, by simp⟩ ?_ hRun
  rintro events before event after hBefore ⟨more, hMore, hWins⟩ hStep
  have hOld : ∀ k win, more[k]? = some win → ∃ early late earlier later,
      Wins contest (events ++ [event]) early late earlier later name win ∧
      earlier.winsOf name = contest.winsOf name ++ more.take k := by
    intro k win hWin
    obtain ⟨early, late, earlier, later, hOccurs, hTake⟩ := hWins k win hWin
    exact ⟨early, late ++ [event], earlier, later, hOccurs.append [event], hTake⟩
  cases ((hLegal.run hBefore).rowChange_of_step (step_of_step? hStep) name).tokenStep with
  | kept hKept hHolding => exact ⟨more, hKept.trans hMore, hOld⟩
  | won win hEvent hVersion hWon hHolding =>
      subst hEvent
      refine ⟨more ++ [win], by rw [hWon, hMore, List.append_assoc], ?_⟩
      intro k other hOther
      rcases Nat.lt_or_ge k more.length with hBound | hBound
      · rw [List.getElem?_append_left hBound] at hOther
        obtain ⟨early, late, earlier, later, hOccurs, hTake⟩ := hOld k other hOther
        refine ⟨early, late, earlier, later, hOccurs, ?_⟩
        rw [hTake, List.take_append_of_le_length (Nat.le_of_lt hBound)]
      · -- The last win is the one that has just happened.
        rw [List.getElem?_append_right hBound, List.getElem?_singleton] at hOther
        split at hOther
        · next hLast =>
          obtain rfl := Option.some.inj hOther
          refine ⟨events, [], before, after, ⟨Occurs.last hBefore hStep, hWon⟩, ?_⟩
          have hLength : k = more.length := by omega
          rw [hMore, hLength, List.take_left]
        · cases hOther

/-- A win in the rest of a run is a win of the run. -/
theorem Wins.trans {start before after earlier later : Contest}
    {events early late pre post : List Event} {event : Event} {win : Win}
    (h : Wins after late pre post earlier later name win)
    (hOccurs : Occurs step? start events early event late before after) :
    Wins start events (early ++ event :: pre) post earlier later name win :=
  ⟨hOccurs.trans h.occurs, h.winsOf⟩

/-- A win is there for the rest of the run. -/
theorem Wins.mem_winsOf {start before after : Contest} {events early late : List Event} {win : Win}
    (h : Wins start events early late before after name win) (hLegal : start.Legal)
    (hRun : start.run? events = some contest) : win ∈ contest.winsOf name := by
  obtain ⟨more, hMore, -⟩ :=
    (hLegal.run h.occurs.run_after).winsOf_growth (h.occurs.rest hRun) name
  rw [hMore, h.winsOf]
  exact List.mem_append_left _ (List.mem_append_right _ (List.mem_singleton_self win))

theorem Legal.length_winsOf_le (hLegal : contest.Legal) {events : List Event}
    (hRun : contest.run? events = some next) (name : String) :
    (contest.winsOf name).length ≤ (next.winsOf name).length := by
  obtain ⟨more, hMore, -⟩ := hLegal.winsOf_growth hRun name
  rw [hMore, List.length_append]
  exact Nat.le_add_right _ _

/-- **Versions change by wins.**  If the version of a lock is another one after a run, the lock
was won in the run, for the first time while the version was still the same. -/
theorem Legal.exists_wins (hLegal : contest.Legal) {start? : Option LockRow}
    (hFenced : Fenced start? contest name) {events : List Event}
    (hRun : contest.run? events = some next)
    (hVersion : next.version? name ≠ contest.version? name) :
    ∃ early late before after win, Wins contest events early late before after name win ∧
      before.version? name = contest.version? name := by
  obtain ⟨more, hMore, hWins⟩ := hLegal.winsOf_growth hRun name
  cases more with
  | nil =>
      refine absurd (((hFenced.run hLegal hRun).version?_eq_iff hFenced).mpr ?_) hVersion
      rw [hMore, List.append_nil]
  | cons win rest =>
      obtain ⟨early, late, before, after, hWin, hTake⟩ := hWins 0 win rfl
      refine ⟨early, late, before, after, win, hWin, ?_⟩
      refine ((hFenced.run hLegal hWin.occurs.run).version?_eq_iff hFenced).mpr ?_
      rw [hTake, List.take_zero, List.append_nil]

end Contest
end Leasehold
