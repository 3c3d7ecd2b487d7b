import Leasehold.Proofs.Lock.History

/-!
# Renewals and ownership

A renewal is written on the condition that the row names its claimant.  The row names whoever
has won the lock last, so a renewal succeeds for the last winner and for nobody else, whatever
happened between its beginning and its write.

* `Contest.lastOwner?`: who has won a lock last, or owned it in the beginning.
* `Contest.Answered`: what the store makes of a renewal.
* `Contest.Legal.exists_answered`: a renewal that waits for its write gets this answer.
* `Contest.exists_write_of_renewal`: a renewal that has ended with an answer had its write.
* `Contest.renewed_iff_lastOwner`: the two together, and what follows for an identity that has
  lost the lock.
-/

namespace Leasehold
namespace Contest

/-- The identity that has won a lock last, or that owned its row when the run began. -/
def lastOwner? (start contest : Contest) (name : String) : Option String :=
  match (contest.winsOf name).getLast? with
  | some win => some win.claimant.identity
  | none => (start.lockRow? name).map LockRow.owner

variable {start contest next : Contest} {id : Nat}

/-- The row of a lock names its last owner. -/
theorem Fenced.owner_eq {name : String} (h : Fenced (start.lockRow? name) contest name) :
    (contest.lockRow? name).map LockRow.owner = lastOwner? start contest name := by
  have hHolding : (contest.holding? name).map Prod.snd
      = (contest.lockRow? name).map LockRow.owner := by
    rw [holding?, Option.map_map]
    rfl
  rw [← hHolding, h.holding, standing?, lastOwner?]
  cases (contest.winsOf name).getLast? with
  | none =>
      rw [Option.map_map]
      rfl
  | some win => rfl

/-- **What the store makes of a renewal.**  In `before` the renewal `id` waits for its write at
the time `now`, and serving it leads to `after`.  The renewal succeeds exactly if its name has
a row and its claimant is the last owner; then the row has the new time and nothing else is
different, and otherwise nothing is different at all. -/
structure Answered (start before after : Contest) (id : Nat) (claimant : Claimant)
    (now : Instant) (renewed : Bool) : Prop where
  waiting : before.errands[id]? = some (.renewal ⟨claimant, .writing now⟩)
  ended : after.errands[id]? = some (.renewal ⟨claimant, .finished (.ok renewed)⟩)
  renewed_iff : renewed = true ↔ (before.lockRow? claimant.name).isSome = true ∧
    lastOwner? start before claimant.name = some claimant.identity
  row : renewed = true → ∃ row, before.lockRow? claimant.name = some row ∧
    after.lockRow? claimant.name = some { row with updateTime := now }
  others : ∀ other, other ≠ claimant.name → after.lockRow? other = before.lockRow? other
  tables : ∀ space : Space, space.fullName ≠ before.space.fullName →
    after.memory.rows space = before.memory.rows space
  unchanged : renewed = false → ∀ space, after.memory.rows space = before.memory.rows space
  wins : after.wins = before.wins

/-- The write of a renewal can be served, and it is answered. -/
theorem Legal.exists_answered (hLegal : contest.Legal)
    (hFenced : ∀ name, Fenced (start.lockRow? name) contest name) {claimant : Claimant}
    {now : Instant} (hErrand : contest.errands[id]? = some (.renewal ⟨claimant, .writing now⟩)) :
    ∃ next renewed, contest.step? (.serve id) = some next ∧
      Answered start contest next id claimant now renewed := by
  obtain ⟨hBound, -⟩ := List.getElem?_eq_some_iff.mp hErrand
  let renewal : Renewal := ⟨claimant, .writing now⟩
  let call : Call := .update claimant.space claimant.byOwner (Claimant.refresh now)
  have hRequest : renewal.request? = some (.call call) := rfl
  have hSpace : renewal.claimant.space = contest.space := hLegal.claimant_space hErrand
  obtain ⟨hChange, hNext⟩ := hLegal.served_renewal hErrand hRequest
  obtain ⟨reply, memory', hPerform, -, -, hWrote⟩ :=
    Renewal.perform_eq hSpace hLegal.locks rfl hRequest
  have hStage : renewal.stageAfter (contest.lockRow? claimant.name)
      = .finished (.ok ((contest.lockRow? claimant.name).any fun row =>
        decide (row.owner = claimant.identity))) := rfl
  generalize hRenewed : ((contest.lockRow? claimant.name).any fun row =>
    decide (row.owner = claimant.identity)) = renewed at hStage
  have hOwner := (hFenced claimant.name).owner_eq
  refine ⟨contest.served id (.renewal renewal) call, renewed, ?_, ?_⟩
  · have hPending : contest.pending? id = some (.renewal renewal, .call call) := by
      rw [pending?, hErrand]
      rfl
    simp only [step?, hPending]
  · refine ⟨hErrand, ?_, ?_, ?_, ?_, ?_, ?_, ?_⟩
    · rw [hNext, hStage]
      exact List.getElem?_set_self hBound
    · rw [← hRenewed, ← hOwner, Option.any_eq_true]
      cases contest.lockRow? claimant.name with
      | none => simp
      | some row => simp
    · rintro rfl
      obtain ⟨written, row, hWriting, hRow, -, -, hAfter⟩ :=
        Renewal.hasRenewed_cases hRequest (congrArg Renewal.Stage.hasRenewed hStage)
      obtain rfl : now = written := Renewal.Stage.writing.inj hWriting
      exact ⟨row, hRow, hChange.lockRow?_self.trans hAfter⟩
    · exact fun other hOther => hChange.lockRow?_of_ne hOther
    · intro space hTable
      exact Memory.rows_update_of_ne contest.memory claimant.byOwner (Claimant.refresh now)
        (hSpace ▸ hTable)
    · rintro rfl
      refine Memory.rows_perform_of_not_wrote contest.memory call ?_
      have hNotRenewed := congrArg Renewal.Stage.hasRenewed hStage
      rw [hPerform]
      exact hWrote.trans hNotRenewed
    · rw [hNext]
      rfl

/-- **A renewal that has ended with an answer had its write.** -/
theorem exists_write_of_renewal {database table : String} {memory : Memory} {events : List Event}
    (hRun : (around database table memory).run? events = some contest) {claimant : Claimant}
    {renewed : Bool}
    (hErrand : contest.errands[id]? = some (.renewal ⟨claimant, .finished (.ok renewed)⟩)) :
    ∃ early late before after now,
      Occurs step? (around database table memory) events early (.serve id) late before after ∧
      before.errands[id]? = some (.renewal ⟨claimant, .writing now⟩) ∧
      after.errands[id]? = some (.renewal ⟨claimant, .finished (.ok renewed)⟩) := by
  refine runs?_induction
    (motive := fun events contest =>
      contest.errands[id]? = some (.renewal ⟨claimant, .finished (.ok renewed)⟩) →
      ∃ early late before after now,
        Occurs step? (Contest.around database table memory) events early (.serve id) late before
          after ∧
        before.errands[id]? = some (.renewal ⟨claimant, .writing now⟩) ∧
        after.errands[id]? = some (.renewal ⟨claimant, .finished (.ok renewed)⟩))
    ?_ ?_ hRun hErrand
  · intro hNone
    simp [Contest.around] at hNone
  · intro events before event after hBefore hEarlier hStep hEnded
    cases (step_of_step? hStep).origin hEnded with
    | same hSame =>
        obtain ⟨early, late, first, last, now, hOccurs, hWrite⟩ := hEarlier hSame
        exact ⟨early, late ++ [event], first, last, now, hOccurs.append [event], hWrite⟩
    | @begun identity name task hNext => cases task <;> cases hNext
    | @told earlier now hEvent hErrand hRequest hNext =>
        -- The clock does not end a renewal.
        cases earlier with
        | attempt attempt => cases hNext
        | lookup lookup => cases hNext
        | renewal renewal =>
            obtain ⟨owner, stage⟩ := renewal
            cases stage <;> cases hNext
            cases hRequest
    | @failed earlier call error hEvent hErrand hRequest hNext =>
        cases earlier with
        | attempt attempt => cases hNext
        | lookup lookup => cases hNext
        | renewal renewal =>
            obtain ⟨owner, stage⟩ := renewal
            cases stage <;> cases hNext
            cases hRequest
    | @served earlier call hEvent hErrand hRequest hNext =>
        cases earlier with
        | attempt attempt => cases hNext
        | lookup lookup => cases hNext
        | renewal renewal =>
            obtain ⟨owner, stage⟩ := renewal
            cases stage with
            | stamping => cases hRequest
            | finished result => cases hRequest
            | writing now =>
                have hOwner : claimant = owner :=
                  congrArg Renewal.claimant (Errand.renewal.inj hNext)
                subst hEvent hOwner
                exact ⟨events, [], before, after, now, Occurs.last hBefore hStep, hErrand, hEnded⟩

/-- What a run knows of a later one that an identity does not win: a lock whose last owner is
another one does not come back to it. -/
theorem Legal.lastOwner?_ne (hLegal : contest.Legal) {events : List Event}
    (hRun : contest.run? events = some next) {name identity : String} {win : Win}
    (hLast : (contest.winsOf name).getLast? = some win) (hOther : win.claimant.identity ≠ identity)
    (hLost : ∀ later ∈ (next.winsOf name).drop (contest.winsOf name).length,
      later.claimant.identity ≠ identity) :
    lastOwner? start next name ≠ some identity := by
  obtain ⟨more, hMore, -⟩ := hLegal.winsOf_growth hRun name
  rw [hMore, List.drop_left] at hLost
  have hFound : ∃ last, (next.winsOf name).getLast? = some last ∧
      last.claimant.identity ≠ identity := by
    rw [hMore, List.getLast?_append]
    cases hEnd : more.getLast? with
    | none => exact ⟨win, by rw [hLast]; rfl, hOther⟩
    | some last => exact ⟨last, rfl, hLost last (List.mem_of_getLast? hEnd)⟩
  obtain ⟨last, hEnd, hNot⟩ := hFound
  rw [lastOwner?, hEnd]
  exact fun hSame => hNot (Option.some.inj hSame)

/-- **Renewals certify ownership.**  Take any run on a table of locks.

* Every renewal that has ended with an answer was served at some point of the run: it
  succeeded exactly if its claimant was the last owner then, it changed only the time of the
  row if it succeeded, and nothing if it did not.
* A renewal that waits for its write can be served, and is answered in this way.
* Nothing else that happens to a renewal changes the store.
* Once an identity has lost a lock to a win of another one, every renewal of the lock by it
  fails and changes nothing, until it wins the lock again. -/
theorem renewed_iff_lastOwner {database table : String} {memory : Memory}
    (hLocks : memory.HoldsLocks (lockSpace database table)) {events : List Event}
    {contest : Contest} (hRun : (around database table memory).run? events = some contest) :
    let start := around database table memory
    (∀ (id : Nat) (renewal : Renewal) (renewed : Bool),
      contest.errands[id]? = some (.renewal renewal) →
      renewal.result? = some (.ok renewed) →
      ∃ early late before after now,
        Occurs step? start events early (.serve id) late before after ∧
        Answered start before after id renewal.claimant now renewed) ∧
      (∀ (id : Nat) (renewal : Renewal) (now : Instant),
        contest.errands[id]? = some (.renewal renewal) → renewal.stage = .writing now →
        ∃ next renewed, contest.step? (.serve id) = some next ∧
          Answered start contest next id renewal.claimant now renewed) ∧
      (∀ (id : Nat) (renewal : Renewal) (event : Event) (next : Contest),
        contest.errands[id]? = some (.renewal renewal) → event.errand? = some id →
        contest.step? event = some next → event ≠ .serve id → next.memory = contest.memory) ∧
      ∀ (early late : List Event) (before : Contest) (name identity : String) (win : Win),
        events = early ++ late → start.run? early = some before →
        (before.winsOf name).getLast? = some win → win.claimant.identity ≠ identity →
        (∀ later ∈ (contest.winsOf name).drop (before.winsOf name).length,
          later.claimant.identity ≠ identity) →
        ∀ (id : Nat) (renewal : Renewal) (now : Instant),
          contest.errands[id]? = some (.renewal renewal) → renewal.stage = .writing now →
          renewal.claimant.name = name → renewal.claimant.identity = identity →
          ∃ next, contest.step? (.serve id) = some next ∧
            Answered start contest next id renewal.claimant now false := by
  intro start
  have hStart : start.Legal := legal_around hLocks
  have hLegal : contest.Legal := hStart.run hRun
  have hFenced : ∀ {events contest}, start.run? events = some contest →
      ∀ name, Fenced (start.lockRow? name) contest name := fun hReached name =>
    (Fenced.around name).run hStart hReached
  refine ⟨?_, ?_, ?_, ?_⟩
  · rintro id ⟨claimant, stage⟩ renewed hErrand hResult
    have hEnded : stage = .finished (.ok renewed) := by
      cases stage with
      | stamping => cases hResult
      | writing now => cases hResult
      | finished result => rw [Option.some.inj hResult]
    subst hEnded
    obtain ⟨early, late, before, after, now, hOccurs, hWaiting, hAfter⟩ :=
      exists_write_of_renewal hRun hErrand
    obtain ⟨next, answer, hStep, hAnswered⟩ :=
      (hStart.run hOccurs.run).exists_answered (hFenced hOccurs.run) hWaiting
    obtain rfl : after = next := Option.some.inj (hOccurs.step.symm.trans hStep)
    have hSame := hAfter.symm.trans hAnswered.ended
    obtain rfl : renewed = answer := by simpa using hSame
    exact ⟨early, late, before, after, now, hOccurs, hAnswered⟩
  · rintro id ⟨claimant, stage⟩ now hErrand rfl
    exact hLegal.exists_answered (hFenced hRun) hErrand
  · intro id renewal event next hErrand hEvent hStep hNotServed
    refine (step_of_step? hStep).memory_eq fun other hServed => hNotServed ?_
    rw [hServed] at hEvent ⊢
    rw [Option.some.inj hEvent]
  · rintro early late before name identity win rfl hEarly hLast hOther hLost id ⟨claimant, stage⟩
      now hErrand rfl rfl rfl
    obtain ⟨next, renewed, hStep, hAnswered⟩ := hLegal.exists_answered (hFenced hRun) hErrand
    have hRest : before.run? late = some contest := by
      rw [run?, runs?_append] at hRun
      obtain ⟨middle, hMiddle, hLate⟩ := Option.bind_eq_some_iff.mp hRun
      obtain rfl : before = middle := Option.some.inj (hEarly.symm.trans hMiddle)
      exact hLate
    cases renewed with
    | false => exact ⟨next, hStep, hAnswered⟩
    | true =>
        have hOwner := (hAnswered.renewed_iff.mp rfl).2
        exact absurd hOwner ((hStart.run hEarly).lastOwner?_ne hRest hLast hOther hLost)

/-- A node renews its lock in time, begins to renew it again and is overtaken by another node
before its write. -/
def overtakenRenewal : List Event :=
  [.start "a" "job" .renewal, .tell 0 ⟨5, 0⟩, .serve 0,
    .start "b" "job" (.attempt (.ofSeconds 10)), .serve 1, .serve 1, .start "a" "job" .renewal,
    .tell 2 ⟨16, 0⟩, .tell 1 ⟨16, 0⟩, .tell 1 ⟨16, 0⟩, .serve 1, .serve 2]

theorem answers_of_overtakenRenewal :
    heldStore.HoldsLocks standardLockSpace ∧
      ∃ contest, heldTable.run? overtakenRenewal = some contest ∧
        (∃ early late before after now,
          Occurs step? heldTable overtakenRenewal early (.serve 0) late before after ∧
          Answered heldTable before after 0 ⟨standardLockSpace, "a", "job"⟩ now true) ∧
        ∃ early late before after now,
          Occurs step? heldTable overtakenRenewal early (.serve 2) late before after ∧
          Answered heldTable before after 2 ⟨standardLockSpace, "a", "job"⟩ now false := by
  have hLocks : heldStore.HoldsLocks standardLockSpace :=
    Memory.holdsLocks_ofLocks (List.pairwise_singleton _ _)
  have hRuns : (heldTable.run? overtakenRenewal).isSome = true := by decide
  obtain ⟨contest, hRun⟩ := Option.isSome_iff_exists.mp hRuns
  have hFirst : ((heldTable.run? overtakenRenewal).bind fun contest => contest.errands[0]?)
      = some (.renewal ⟨⟨standardLockSpace, "a", "job"⟩, .finished (.ok true)⟩) := by rfl
  have hSecond : ((heldTable.run? overtakenRenewal).bind fun contest => contest.errands[2]?)
      = some (.renewal ⟨⟨standardLockSpace, "a", "job"⟩, .finished (.ok false)⟩) := by rfl
  rw [hRun] at hFirst hSecond
  obtain ⟨hEnded, -⟩ := renewed_iff_lastOwner hLocks hRun
  exact ⟨hLocks, contest, hRun, hEnded 0 _ true hFirst rfl, hEnded 2 _ false hSecond rfl⟩

end Contest
end Leasehold
