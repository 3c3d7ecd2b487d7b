import Leasehold.Proofs.Fleet.Pace

/-!
# One holder at a time

Nodes with distinct identities share a lock table and a clock.  If all of them judge a name
by the same lease, and none of them goes on for longer than that lease after its last
write, then the name is held by at most one of them.

The row of the lock decides who that is: a cycle that has its lock wrote the row last, and
an attempt that is about to take the row has seen a version under which nobody has it.

* `Fleet.Gripped`: some cycle has the lock of a name.
* `Fleet.Tracks`: what an attempt knows of the row that it has read.
* `Fleet.Sound`: an attempt at a stage has judged the row rightly.
* `Fleet.Exclusive`: the invariant; `Exclusive.step` and `Exclusive.run` keep it.
* `Fleet.at_most_one_holder`: mutual exclusion.
-/

namespace Leasehold

/-- Options that respect a lease: it is the lease of the class, and the job is cancelled before
heartbeats have failed for longer than that. -/
def Manager.Options.Respects (options : Manager.Options) (interval : IntervalClass)
    (lease : Span) : Prop :=
  (options.policies.get interval).lease = lease ∧
    options.maxFailures * (options.policies.get interval).heartbeat.nanos ≤ lease.nanos

instance (options : Manager.Options) (interval : IntervalClass) (lease : Span) :
    Decidable (options.Respects interval lease) :=
  inferInstanceAs (Decidable (_ ∧ _))

namespace Fleet

/-- Some cycle has the lock of a name. -/
def Gripped (fleet : Fleet) (name : String) : Prop :=
  ∃ node id options cycle, fleet.cycle? node id = some (options, cycle) ∧ cycle.name = name ∧
    cycle.phase.grips = true

/-- **A row that was read**: the row of the lock is at its version or at a later one, and
something is known as long as the version is the same. -/
def Tracks (fleet : Fleet) (name : String) (read : LockRow) (fact : Prop) : Prop :=
  ∃ row, fleet.lockRow? name = some row ∧ read.version ≤ row.version ∧
    (read.version = row.version → fact)

/-- A reading of the clock that is at most a lease old. -/
def IsRecent (fleet : Fleet) (lease : Span) (reading : Instant) : Prop :=
  ∃ time, time ≤ fleet.now ∧ fleet.now ≤ time + lease.nanos ∧
    fleet.base.after? time = some reading

/-- **What an attempt has found out** at a stage.  A row that it judges is recent if anybody
has the lock; a row that it claims is one under which nobody has it. -/
def Sound (fleet : Fleet) (name : String) (lease : Span) : Attempt.Stage → Prop
  | .inserting now => fleet.reading? = some now
  | .judging read =>
    fleet.Tracks name read (fleet.Gripped name → fleet.IsRecent lease read.updateTime)
  | .claiming read => fleet.Tracks name read (¬ fleet.Gripped name)
  | .replacing read now =>
    fleet.reading? = some now ∧ fleet.Tracks name read (¬ fleet.Gripped name)
  | _ => True

/-- **The invariant of a name** whose lease every node respects. -/
structure Exclusive (fleet : Fleet) (name : String) (lease : Span) : Prop where
  distinct : ((fleet.managers.map Manager.options).map Manager.Options.identity).Nodup
  suits : ∀ node id options cycle, fleet.cycle? node id = some (options, cycle) →
    cycle.name = name → options.Respects cycle.interval lease
  owned : ∀ node id options cycle, fleet.cycle? node id = some (options, cycle) →
    cycle.name = name → cycle.phase.grips = true →
    ∃ row wrote, fleet.lockRow? name = some row ∧ row.owner = options.identity ∧
      fleet.lastWrite? node name = some wrote ∧ fleet.base.after? wrote = some row.updateTime
  attempts : ∀ node id options cycle attempt, fleet.cycle? node id = some (options, cycle) →
    cycle.name = name → cycle.phase = .attempting attempt → fleet.Sound name lease attempt.stage
  renewals : ∀ node id options cycle beat renewal signal now,
    fleet.cycle? node id = some (options, cycle) → cycle.name = name →
    cycle.phase = .renewing beat renewal signal → renewal.stage = .writing now →
    fleet.reading? = some now

section

variable {fleet next : Fleet} {event : Event} {name : String} {lease : Span}

/-! ## What the invariant says of a row -/

/-- Nodes with one identity are one node. -/
theorem Exclusive.eq_of_identity (h : fleet.Exclusive name lease) {i j k l : Nat}
    {first second : Manager.Options} {c d : Cycle}
    (hFirst : fleet.cycle? i k = some (first, c)) (hSecond : fleet.cycle? j l = some (second, d))
    (hIdentity : first.identity = second.identity) : i = j := by
  obtain ⟨manager, hManager, rfl, -⟩ := cycle?_eq_some_iff.mp hFirst
  obtain ⟨other, hOther, rfl, -⟩ := cycle?_eq_some_iff.mp hSecond
  have hGetI : ((fleet.managers.map Manager.options).map Manager.Options.identity)[i]?
      = some manager.options.identity := by
    rw [List.getElem?_map, List.getElem?_map, hManager]
    rfl
  have hGetJ : ((fleet.managers.map Manager.options).map Manager.Options.identity)[j]?
      = some manager.options.identity := by
    rw [List.getElem?_map, List.getElem?_map, hOther, hIdentity]
    rfl
  obtain ⟨hBound, -⟩ := List.getElem?_eq_some_iff.mp hGetI
  exact (List.getElem?_inj hBound h.distinct).mp (hGetI.trans hGetJ.symm)

/-- **One cycle has the lock.** -/
theorem Exclusive.eq_of_grips (h : fleet.Exclusive name lease) (hLegal : fleet.Legal)
    {i j k l : Nat} {first second : Manager.Options} {c d : Cycle}
    (hFirst : fleet.cycle? i k = some (first, c)) (hSecond : fleet.cycle? j l = some (second, d))
    (hC : c.name = name) (hD : d.name = name) (hGripsC : c.phase.grips = true)
    (hGripsD : d.phase.grips = true) : i = j ∧ k = l := by
  obtain ⟨row, _, hRow, hOwner, -, -⟩ := h.owned i k first c hFirst hC hGripsC
  obtain ⟨other, _, hOther, hSame, -, -⟩ := h.owned j l second d hSecond hD hGripsD
  obtain rfl : row = other := Option.some.inj (hRow.symm.trans hOther)
  have hNode : i = j := h.eq_of_identity hFirst hSecond (hOwner.symm.trans hSame)
  subst hNode
  exact ⟨rfl, hLegal.eq_of_name hFirst hSecond (hC.trans hD.symm)
    (Cycle.Phase.isLive_of_grips hGripsC) (Cycle.Phase.isLive_of_grips hGripsD)⟩

/-- The row of a lock that somebody has is recent. -/
theorem Exclusive.isRecent (h : fleet.Exclusive name lease) (hLegal : fleet.Legal)
    (hPaced : fleet.Paced) {row : LockRow} (hRow : fleet.lockRow? name = some row)
    (hGripped : fleet.Gripped name) : fleet.IsRecent lease row.updateTime := by
  obtain ⟨node, id, options, cycle, hCycle, hName, hGrips⟩ := hGripped
  obtain ⟨other, wrote, hOther, -, hLast, hTime⟩ :=
    h.owned node id options cycle hCycle hName hGrips
  obtain rfl : row = other := Option.some.inj (hRow.symm.trans hOther)
  obtain ⟨time, hSame, hPace⟩ := hPaced node id options cycle hCycle hGrips
  rw [hName] at hSame
  obtain rfl : wrote = time := Option.some.inj (hLast.symm.trans hSame)
  have hNow := hPace.now_le hGrips
  have hSuits := (h.suits node id options cycle hCycle hName).2
  exact ⟨wrote, hLegal.lastWrite?_le hLast, by omega, hTime⟩

/-- A row that an attempt finds expired is nobody's. -/
theorem not_isRecent_of_isExpired {read : LockRow} {reading : Instant}
    (hReading : fleet.reading? = some reading) (hExpired : read.isExpired reading lease = true) :
    ¬ fleet.IsRecent lease read.updateTime := by
  rintro ⟨time, hPast, hLease, hTime⟩
  have hOver := LockRow.lt_of_isExpired_after? hPast hTime hReading hExpired
  omega

/-! ## What an attempt finds out -/

/-- A row that nobody has may be claimed. -/
theorem Sound.claim {read : LockRow} (h : fleet.Tracks name read (¬ fleet.Gripped name)) :
    fleet.Sound name lease (Attempt.claim read) := by
  rcases Attempt.claim_cases read with ⟨-, hClaim⟩ | ⟨-, hClaim⟩ <;> rw [hClaim]
  · exact h
  · trivial

/-- A reading of the clock moves an attempt soundly. -/
theorem Sound.timed {attempt : Attempt} {reading : Instant}
    (h : fleet.Sound name attempt.lease attempt.stage)
    (hRequest : attempt.request? = some .time) (hReading : fleet.reading? = some reading) :
    fleet.Sound name attempt.lease (attempt.nextStage (.time reading)) := by
  cases hStage : attempt.stage with
  | stamping =>
      simp only [Attempt.nextStage, hStage]
      exact hReading
  | judging read =>
      rw [hStage] at h
      simp only [Attempt.nextStage, hStage, Attempt.afterJudgement]
      split
      · next hExpired =>
        obtain ⟨row, hRow, hVersion, hFact⟩ := h
        refine Sound.claim ⟨row, hRow, hVersion, fun hSame hGripped => ?_⟩
        exact not_isRecent_of_isExpired hReading hExpired (hFact hSame hGripped)
      · trivial
  | claiming read =>
      rw [hStage] at h
      simp only [Attempt.nextStage, hStage]
      exact ⟨hReading, h⟩
  | _ => simp [Attempt.request?, hStage] at hRequest

/-- A look at the row moves an attempt soundly: if the row is the claimant's own, then the
claimant is the only one that could have the lock, and it does not. -/
theorem Exclusive.sound_looked (h : fleet.Exclusive name lease) (hLegal : fleet.Legal)
    (hPaced : fleet.Paced) {node id : Nat} {options : Manager.Options} {cycle : Cycle}
    {attempt : Attempt} {call : Call} (hCycle : fleet.cycle? node id = some (options, cycle))
    (hName : cycle.name = name) (hPhase : cycle.phase = .attempting attempt)
    (hRequest : attempt.request? = some (.call call)) :
    fleet.Sound name lease (attempt.stageAfter (fleet.lockRow? name)) := by
  cases hStage : attempt.stage with
  | counting =>
      simp only [Attempt.stageAfter, hStage]
      cases fleet.lockRow? name <;> trivial
  | inserting now =>
      simp only [Attempt.stageAfter, hStage]
      cases fleet.lockRow? name <;> trivial
  | replacing read now =>
      simp only [Attempt.stageAfter, hStage]
      cases fleet.lockRow? name <;> trivial
  | searching =>
      cases hRow : fleet.lockRow? name with
      | none =>
          simp only [Attempt.stageAfter, hStage]
          trivial
      | some row =>
          simp only [Attempt.stageAfter, hStage]
          split
          · next hOwn =>
            refine Sound.claim ⟨row, hRow, Int.le_refl _, fun _ hGripped => ?_⟩
            obtain ⟨other, number, owner, holder, hHolder, hHolderName, hGrips⟩ := hGripped
            obtain ⟨held, _, hHeld, hOwner, -, -⟩ :=
              h.owned other number owner holder hHolder hHolderName hGrips
            obtain rfl : row = held := Option.some.inj (hRow.symm.trans hHeld)
            obtain ⟨hClaimant, -⟩ := hLegal.attempts node id options cycle attempt hCycle hPhase
            have hSelf : row.owner = options.identity := by
              rw [LockRow.isOwnedBy, beq_iff_eq, hClaimant] at hOwn
              exact hOwn
            have hNode : other = node := h.eq_of_identity hHolder hCycle (hOwner.symm.trans hSelf)
            subst hNode
            have hNumber : number = id := hLegal.eq_of_name hHolder hCycle
              (hHolderName.trans hName.symm) (Cycle.Phase.isLive_of_grips hGrips)
              (by rw [hPhase]; rfl)
            subst hNumber
            obtain ⟨-, hSame⟩ := Prod.mk.inj (Option.some.inj (hHolder.symm.trans hCycle))
            rw [hSame, hPhase, Cycle.Phase.grips, hStage] at hGrips
            cases hGrips
          · exact ⟨row, hRow, Int.le_refl _, fun _ hGripped =>
              h.isRecent hLegal hPaced hRow hGripped⟩
  | _ => simp [Attempt.request?, hStage] at hRequest

/-- **Quiet moves of an attempt are sound.** -/
theorem Exclusive.sound_quiet (h : fleet.Exclusive name lease) (hLegal : fleet.Legal)
    (hPaced : fleet.Paced) {node id : Nat} {manager : Manager} {cycle : Cycle}
    {attempt : Attempt} (hCycle : fleet.cycle? node id = some (manager.options, cycle))
    (hName : cycle.name = name)
    (hQuiet : fleet.Quiet manager cycle cycle.phase (.attempting attempt)) :
    fleet.Sound name lease attempt.stage := by
  generalize hPhase : cycle.phase = phase at hQuiet
  cases hQuiet with
  | turned hMove =>
      cases hMove with
      | attempt hFlag => trivial
  | expired hNeed hDue hMove => cases hMove
  | woken hMove => cases hMove
  | @timed earlier reading hRequest hReading =>
      have hBefore := h.attempts node id _ cycle earlier hCycle hName hPhase
      have hLease : earlier.lease = lease :=
        (hLegal.attempts node id _ cycle earlier hCycle hPhase).2.trans
          (h.suits node id _ cycle hCycle hName).1
      subst hLease
      exact hBefore.timed hRequest hReading
  | @looked earlier call hRequest hLost =>
      rw [hName]
      exact h.sound_looked hLegal hPaced hCycle hName hPhase hRequest
  | @failed earlier call error hRequest =>
      cases hStage : earlier.stage with
      | counting => simp only [Attempt.nextStage, hStage]; trivial
      | inserting now => simp only [Attempt.nextStage, hStage]; trivial
      | searching => simp only [Attempt.nextStage, hStage]; trivial
      | replacing read now => simp only [Attempt.nextStage, hStage]; trivial
      | _ => simp [Attempt.request?, hStage] at hRequest

/-! ## What an event does to a name -/

/-- **What becomes of a name.**  Its row stays as it is, and nobody gets the lock; or the row
is written with a new version; or a cycle that has the lock renews the row. -/
inductive Turnover (fleet next : Fleet) (name : String) : Prop where
  | same (hRow : next.lockRow? name = fleet.lockRow? name)
      (hGripped : next.Gripped name → fleet.Gripped name)
  | taken {row' : LockRow} (hRow : next.lockRow? name = some row')
      (hNewer : ∀ row, fleet.lockRow? name = some row → row.version < row'.version)
  | renewed {row : LockRow} {now : Instant} (hOld : fleet.lockRow? name = some row)
      (hRow : next.lockRow? name = some (row.renewedAt now)) (hGripped : fleet.Gripped name)

/-- A cycle gets a lock only by its own move. -/
theorem gripped_of_moved {node id : Nat} {options : Manager.Options} {moved : Cycle}
    (hMoved : next.cycle? node id = some (options, moved))
    (hCycles : ∀ other number, other ≠ node ∨ number ≠ id →
      next.cycle? other number = fleet.cycle? other number)
    (hBefore : moved.name = name → moved.phase.grips = true → fleet.Gripped name)
    (h : next.Gripped name) : fleet.Gripped name := by
  obtain ⟨other, number, owner, cycle, hCycle, hName, hGrips⟩ := h
  rcases cycle?_cases hMoved hCycles hCycle with ⟨-, -, -, rfl⟩ | ⟨-, hOld⟩
  · exact hBefore hName hGrips
  · exact ⟨other, number, owner, cycle, hOld, hName, hGrips⟩

/-- **Every event turns a name over, renews it, or leaves it.** -/
theorem Change.turnover (hChange : Change fleet next event) (name : String) :
    fleet.Turnover next name := by
  cases hChange with
  | idle hCycles hRows hWrites hNow =>
      refine .same (hRows name) ?_
      rintro ⟨node, id, options, cycle, hCycle, hName, hGrips⟩
      exact ⟨node, id, options, cycle, (hCycles node id).symm.trans hCycle, hName, hGrips⟩
  | begun hEvent hManager hRetrying hName hInterval hNew hCycles hRows hWrites hNow =>
      refine .same (hRows name) (gripped_of_moved hNew hCycles fun _ hGrips => ?_)
      rw [hRetrying] at hGrips
      cases hGrips
  | passed hRests hNext =>
      subst hNext
      exact .same rfl fun h => h
  | @moved node id manager old moved hManager hOld hName hInterval hMoved hCycles hNow hEffect =>
      have hBefore : fleet.cycle? node id = some (manager.options, old) :=
        Legal.cycle? hManager hOld
      cases hEffect with
      | quiet hRows hWrites hQuiet =>
          refine .same (hRows name) (gripped_of_moved hMoved hCycles fun hSame hGrips => ?_)
          exact ⟨node, id, _, old, hBefore, hName.symm.trans hSame, hQuiet.grips hGrips⟩
      | won hPhase hStage hRow hOwner hTime hOther hWrites hNext =>
          by_cases hHere : old.name = name
          · subst hHere
            refine .taken hRow fun row hRow => ?_
            rcases hStage with ⟨-, hFree⟩ | ⟨read, held, -, hHeld, -, hNewer⟩
            · rw [hFree] at hRow
              cases hRow
            · obtain rfl : held = row := Option.some.inj (hHeld.symm.trans hRow)
              exact hNewer
          · refine .same (hOther name (Ne.symm hHere)) ?_
            exact gripped_of_moved hMoved hCycles fun hSame _ =>
              absurd (hName.symm.trans hSame) hHere
      | renewed hPhase hStage hOldRow hRow hOwner hOther hWrites hNext =>
          by_cases hHere : old.name = name
          · subst hHere
            exact .renewed hOldRow hRow ⟨node, id, _, old, hBefore, rfl, by rw [hPhase]; rfl⟩
          · refine .same (hOther name (Ne.symm hHere)) ?_
            exact gripped_of_moved hMoved hCycles fun hSame _ =>
              absurd (hName.symm.trans hSame) hHere

/-- What is known of a row that was read stays known: a new version makes it void, and a
renewal comes from a cycle that has the lock. -/
theorem Tracks.kept {read : LockRow} {fact fact' : Prop} (h : fleet.Tracks name read fact)
    (hTurnover : fleet.Turnover next name)
    (hSame : (next.Gripped name → fleet.Gripped name) → fact → fact')
    (hRenewed : fleet.Gripped name → fact → fact') : next.Tracks name read fact' := by
  obtain ⟨row, hRow, hVersion, hFact⟩ := h
  cases hTurnover with
  | same hRows hGripped =>
      exact ⟨row, hRows.trans hRow, hVersion, fun hEq => hSame hGripped (hFact hEq)⟩
  | @taken row' hTaken hNewer =>
      have hLater := hNewer row hRow
      refine ⟨row', hTaken, by omega, fun hEq => ?_⟩
      omega
  | @renewed held now hOld hHeld hGripped =>
      obtain rfl : row = held := Option.some.inj (hRow.symm.trans hOld)
      exact ⟨_, hHeld, hVersion, fun hEq => hRenewed hGripped (hFact hEq)⟩

/-- An attempt that does not move stays sound while no time passes. -/
theorem Sound.kept {stage : Attempt.Stage} (h : fleet.Sound name lease stage)
    (hBase : next.base = fleet.base) (hNow : next.now = fleet.now)
    (hTurnover : fleet.Turnover next name) : next.Sound name lease stage := by
  have hReading : next.reading? = fleet.reading? := by rw [reading?, hBase, hNow, reading?]
  have hRecent : ∀ reading, fleet.IsRecent lease reading → next.IsRecent lease reading := by
    intro reading hOld
    rw [IsRecent, hBase, hNow]
    exact hOld
  have hClaim : ∀ read, fleet.Tracks name read (¬ fleet.Gripped name) →
      next.Tracks name read (¬ next.Gripped name) := fun read hTracks =>
    hTracks.kept hTurnover (fun hBack hFree hGripped => hFree (hBack hGripped))
      fun hGripped hFree => absurd hGripped hFree
  cases stage with
  | inserting now => exact hReading.trans h
  | judging read =>
      refine Tracks.kept h hTurnover ?_ ?_
      · exact fun hBack hFact hGripped => hRecent _ (hFact (hBack hGripped))
      · exact fun hGripped hFact _ => hRecent _ (hFact hGripped)
  | claiming read => exact hClaim read h
  | replacing read now => exact ⟨hReading.trans h.1, hClaim read h.2⟩
  | _ => trivial

/-! ## The invariant along a run -/

namespace Exclusive

/-- No time passes while an operation is under way. -/
theorem now_eq_of_need (hChange : Change fleet next event) {node id : Nat}
    {options : Manager.Options} {cycle : Cycle} {request? : Option Request}
    (hCycle : next.cycle? node id = some (options, cycle))
    (hNeed : cycle.phase.need = .ofRequest request?) : next.now = fleet.now := by
  rcases hChange.now_cases with hNow | ⟨nanos, hRests, hCycles⟩
  · exact hNow
  · rw [hCycles] at hCycle
    rcases need_of_rests hRests hCycle with hFinished | ⟨due, hPause, -⟩
    · exact absurd (hNeed.symm.trans hFinished) (Cycle.Need.ofRequest_ne_finished request?)
    · exact absurd (hNeed.symm.trans hPause) (Cycle.Need.ofRequest_ne_pause request? due)

theorem step_attempts (h : fleet.Exclusive name lease) (hLegal : fleet.Legal)
    (hPaced : fleet.Paced) (hBase : next.base = fleet.base) (hChange : Change fleet next event) :
    ∀ node id options cycle attempt, next.cycle? node id = some (options, cycle) →
      cycle.name = name → cycle.phase = .attempting attempt →
      next.Sound name lease attempt.stage := by
  intro node id options cycle attempt hCycle hName hPhase
  have hTurnover := hChange.turnover name
  have hNow : next.now = fleet.now := now_eq_of_need hChange hCycle (by rw [hPhase]; rfl)
  rcases hChange.cycle_cases hCycle with
    hSame | ⟨hRetrying, -⟩ | ⟨manager, old, rfl, hOld, hOldName, hInterval, hEffect⟩
  · exact (h.attempts node id options cycle attempt hSame hName hPhase).kept hBase hNow hTurnover
  · rw [hRetrying] at hPhase
    cases hPhase
  · refine Sound.kept ?_ hBase hNow hTurnover
    rw [hPhase] at hEffect
    cases hEffect with
    | quiet hRows hWrites hQuiet =>
        exact h.sound_quiet hLegal hPaced hOld (hOldName.symm.trans hName) hQuiet
    | won hAttempt hStage hRow hOwner hTime hOther hWrites hNext =>
        rw [Cycle.Phase.attempting.inj hNext]
        trivial
    | renewed hRenewing hStage hOldRow hRow hOwner hOther hWrites hNext => cases hNext

theorem step_renewals (h : fleet.Exclusive name lease) (hBase : next.base = fleet.base)
    (hChange : Change fleet next event) :
    ∀ node id options cycle beat renewal signal now,
      next.cycle? node id = some (options, cycle) → cycle.name = name →
      cycle.phase = .renewing beat renewal signal → renewal.stage = .writing now →
      next.reading? = some now := by
  intro node id options cycle beat renewal signal now hCycle hName hPhase hStage
  have hNow : next.now = fleet.now := now_eq_of_need hChange hCycle (by rw [hPhase]; rfl)
  rw [reading?, hBase, hNow]
  rcases hChange.cycle_cases hCycle with
    hSame | ⟨hRetrying, -⟩ | ⟨manager, old, rfl, hOld, hOldName, hInterval, hEffect⟩
  · exact h.renewals node id options cycle beat renewal signal now hSame hName hPhase hStage
  · rw [hRetrying] at hPhase
    cases hPhase
  · rw [hPhase] at hEffect
    cases hEffect with
    | quiet hRows hWrites hQuiet =>
        generalize old.phase = phase at hQuiet
        cases hQuiet with
        | turned hMove => cases hMove
        | expired hNeed hDue hMove => cases hMove; cases hStage
        | woken hMove => cases hMove
        | stamped hStamping hReading =>
            rw [← Renewal.Stage.writing.inj hStage]
            exact hReading
        | missed hWriting hFailed => cases hStage
    | won hAttempt hWon hRow hOwner hTime hOther hWrites hNext => cases hNext
    | renewed hRenewing hWriting hOldRow hRow hOwner hOther hWrites hNext =>
        obtain ⟨-, rfl, -⟩ := Cycle.Phase.renewing.inj hNext
        cases hStage

/-- **An attempt that is about to win** writes the time that it is, and nobody has the lock:
either there is no row, or the row is at the version that was claimed. -/
theorem free_of_won (h : fleet.Exclusive name lease) {stage : Attempt.Stage} {now : Instant}
    {row' : LockRow} (hSound : fleet.Sound name lease stage)
    (hStage : stage = .inserting now ∧ fleet.lockRow? name = none ∨
      ∃ read row, stage = .replacing read now ∧ fleet.lockRow? name = some row ∧
        row.version = read.version ∧ row.version < row'.version) :
    fleet.reading? = some now ∧ ¬ fleet.Gripped name := by
  rcases hStage with ⟨rfl, hNone⟩ | ⟨read, row, rfl, hHeld, hVersion, -⟩
  · refine ⟨hSound, ?_⟩
    rintro ⟨node, id, options, cycle, hHolder, hHolderName, hHolds⟩
    obtain ⟨row, _, hSome, -⟩ := h.owned node id options cycle hHolder hHolderName hHolds
    rw [hNone] at hSome
    cases hSome
  · obtain ⟨hReading, held, hSome, -, hFact⟩ := hSound
    obtain rfl : row = held := Option.some.inj (hHeld.symm.trans hSome)
    exact ⟨hReading, hFact hVersion.symm⟩

/-- The write of a cycle on one lock leaves the owners of another lock as they are. -/
theorem owned_of_other (h : fleet.Exclusive name lease) {node id : Nat}
    {manager : Manager.Options} {moved : Cycle} {time : Nat} (hHere : moved.name ≠ name)
    (hMoved : next.cycle? node id = some (manager, moved))
    (hCycles : ∀ other number, other ≠ node ∨ number ≠ id →
      next.cycle? other number = fleet.cycle? other number)
    (hOther : ∀ name, name ≠ moved.name → next.lockRow? name = fleet.lockRow? name)
    (hWrites : next.writes = fleet.writes ++ [⟨node, moved.name, time⟩]) {other number : Nat}
    {options : Manager.Options} {cycle : Cycle}
    (hCycle : next.cycle? other number = some (options, cycle)) (hName : cycle.name = name)
    (hGrips : cycle.phase.grips = true) :
    ∃ row wrote, next.lockRow? name = some row ∧ row.owner = options.identity ∧
      next.lastWrite? other name = some wrote ∧ fleet.base.after? wrote = some row.updateTime := by
  rw [hOther name (Ne.symm hHere), lastWrite?_append hWrites, if_neg fun hEq => hHere hEq.2]
  rcases cycle?_cases hMoved hCycles hCycle with ⟨-, -, -, rfl⟩ | ⟨-, hStill⟩
  · exact absurd hName hHere
  · exact h.owned other number options cycle hStill hName hGrips

theorem step_owned (h : fleet.Exclusive name lease) (hLegal : fleet.Legal)
    (hBase : next.base = fleet.base) (hChange : Change fleet next event) :
    ∀ node id options cycle, next.cycle? node id = some (options, cycle) → cycle.name = name →
      cycle.phase.grips = true →
      ∃ row wrote, next.lockRow? name = some row ∧ row.owner = options.identity ∧
        next.lastWrite? node name = some wrote ∧
        next.base.after? wrote = some row.updateTime := by
  intro other number options cycle hCycle hName hGrips
  rw [hBase]
  cases hChange with
  | idle hCycles hRows hWrites hNow =>
      rw [hCycles] at hCycle
      rw [hRows, lastWrite?_of_writes_eq hWrites]
      exact h.owned other number options cycle hCycle hName hGrips
  | begun hEvent hManager hRetrying hNew hInterval hBegun hCycles hRows hWrites hNow =>
      rcases cycle?_cases hBegun hCycles hCycle with ⟨-, -, -, rfl⟩ | ⟨-, hOld⟩
      · rw [hRetrying] at hGrips
        cases hGrips
      · rw [hRows, lastWrite?_of_writes_eq hWrites]
        exact h.owned other number options cycle hOld hName hGrips
  | passed hRests hNext =>
      subst hNext
      exact h.owned other number options cycle hCycle hName hGrips
  | @moved node id manager old moved hManager hOld hSame hInterval hMoved hCycles hNow hEffect =>
      have hBefore : fleet.cycle? node id = some (manager.options, old) :=
        Legal.cycle? hManager hOld
      cases hEffect with
      | quiet hRows hWrites hQuiet =>
          rw [hRows, lastWrite?_of_writes_eq hWrites]
          rcases cycle?_cases hMoved hCycles hCycle with ⟨rfl, rfl, rfl, rfl⟩ | ⟨-, hStill⟩
          · exact h.owned _ _ _ old hBefore (hSame.symm.trans hName) (hQuiet.grips hGrips)
          · exact h.owned other number options cycle hStill hName hGrips
      | @won attempt now row' hAttempt hStage hRow hOwner hTime hOther hWrites hNext =>
          rw [← hSame] at hStage hRow hOther hWrites
          by_cases hHere : moved.name = name
          · subst hHere
            have hSound := h.attempts node id _ old attempt hBefore hSame.symm hAttempt
            obtain ⟨hReading, hFree⟩ := h.free_of_won hSound hStage
            rcases cycle?_cases hMoved hCycles hCycle with ⟨rfl, rfl, rfl, rfl⟩ | ⟨-, hStill⟩
            · refine ⟨row', fleet.now, hRow, hOwner, ?_, ?_⟩
              · rw [lastWrite?_append hWrites]
                exact if_pos ⟨rfl, rfl⟩
              · rw [hTime]
                exact hReading
            · exact absurd ⟨_, _, _, _, hStill, hName, hGrips⟩ hFree
          · exact h.owned_of_other hHere hMoved hCycles hOther hWrites hCycle hName hGrips
      | @renewed beat renewal signal now row hRenewing hStage hOldRow hRow hOwner hOther hWrites
          hNext =>
          rw [← hSame] at hRow hOther hWrites
          by_cases hHere : moved.name = name
          · subst hHere
            rcases cycle?_cases hMoved hCycles hCycle with ⟨rfl, rfl, rfl, rfl⟩ | ⟨hNe, hStill⟩
            · refine ⟨_, fleet.now, hRow, hOwner, ?_, ?_⟩
              · rw [lastWrite?_append hWrites]
                exact if_pos ⟨rfl, rfl⟩
              · exact h.renewals _ _ _ old beat renewal signal now hBefore hSame.symm hRenewing
                  hStage
            · obtain ⟨hNode, hNumber⟩ := h.eq_of_grips hLegal hStill hBefore hName hSame.symm
                hGrips (by rw [hRenewing]; rfl)
              exact (hNe.elim (fun hNot => hNot hNode) fun hNot => hNot hNumber).elim
          · exact h.owned_of_other hHere hMoved hCycles hOther hWrites hCycle hName hGrips

/-- **Every event keeps the invariant**, if the cycles of the name respect its lease. -/
theorem step (h : fleet.Exclusive name lease) (hLegal : fleet.Legal) (hPaced : fleet.Paced)
    (hStep : Step fleet event next)
    (hSuits : ∀ node id options cycle, next.cycle? node id = some (options, cycle) →
      cycle.name = name → options.Respects cycle.interval lease) :
    next.Exclusive name lease := by
  have hChange := hLegal.change_of_step hStep
  obtain ⟨hBase, -⟩ := hStep.frame
  refine ⟨?_, hSuits, h.step_owned hLegal hBase hChange,
    h.step_attempts hLegal hPaced hBase hChange, h.step_renewals hBase hChange⟩
  rw [hStep.options]
  exact h.distinct

/-- New managers with distinct identities. -/
theorem around {database table : String} {base : Instant} {memory : Memory}
    {managers : List Manager} {space : Space} (hNew : ∀ manager ∈ managers, manager.IsNew space)
    (hDistinct : (managers.map fun manager => manager.options.identity).Nodup)
    (name : String) (lease : Span) :
    (Fleet.around database table base memory managers).Exclusive name lease := by
  refine ⟨?_, ?_, ?_, ?_, ?_⟩
  · rw [List.map_map]
    exact hDistinct
  · intro node id options cycle hCycle
    rw [cycle?_around hNew] at hCycle
    cases hCycle
  · intro node id options cycle hCycle
    rw [cycle?_around hNew] at hCycle
    cases hCycle
  · intro node id options cycle attempt hCycle
    rw [cycle?_around hNew] at hCycle
    cases hCycle
  · intro node id options cycle beat renewal signal now hCycle
    rw [cycle?_around hNew] at hCycle
    cases hCycle

/-- **A live hold shows in the row**: the row names the holder and carries the time of its
last write. -/
theorem owned_of_isLive (h : fleet.Exclusive name lease) (hLegal : fleet.Legal) {node : Nat}
    (hLive : fleet.IsLive node name) :
    ∃ manager row wrote, fleet.managers[node]? = some manager ∧ fleet.lockRow? name = some row ∧
      row.owner = manager.options.identity ∧ fleet.lastWrite? node name = some wrote ∧
      fleet.base.after? wrote = some row.updateTime := by
  obtain ⟨manager, hManager, hHeld⟩ := hLive
  have hCoherent := hLegal.coherent manager (List.mem_of_getElem? hManager)
  obtain ⟨id, cycle, signal, hCycle, hName, hSignal⟩ := hCoherent.exists_of_isLive hHeld
  obtain ⟨row, wrote, hOwned⟩ := h.owned node id _ cycle (Legal.cycle? hManager hCycle) hName
    (Cycle.Phase.grips_of_signal? hSignal)
  exact ⟨manager, row, wrote, hManager, hOwned⟩

/-- Two nodes that hold a name are one. -/
theorem eq_of_isLive (h : fleet.Exclusive name lease) (hLegal : fleet.Legal) {i j : Nat}
    (hI : fleet.IsLive i name) (hJ : fleet.IsLive j name) : i = j := by
  obtain ⟨first, hFirst, hHeldI⟩ := hI
  obtain ⟨second, hSecond, hHeldJ⟩ := hJ
  have hCoherentI := hLegal.coherent first (List.mem_of_getElem? hFirst)
  have hCoherentJ := hLegal.coherent second (List.mem_of_getElem? hSecond)
  obtain ⟨k, c, _, hC, hNameC, hSignalC⟩ := hCoherentI.exists_of_isLive hHeldI
  obtain ⟨l, d, _, hD, hNameD, hSignalD⟩ := hCoherentJ.exists_of_isLive hHeldJ
  exact (h.eq_of_grips hLegal (Legal.cycle? hFirst hC) (Legal.cycle? hSecond hD) hNameC hNameD
    (Cycle.Phase.grips_of_signal? hSignalC) (Cycle.Phase.grips_of_signal? hSignalD)).1

/-- **Every run keeps the invariant.** -/
theorem run {start : Fleet} {events : List Event} (h : start.Exclusive name lease)
    (hLegal : start.Legal) (hPaced : start.Paced)
    (hNone : ∀ node id, start.cycle? node id = none)
    (hRegister : ∀ node interval manager, .register node name interval ∈ events →
      start.managers[node]? = some manager → manager.options.Respects interval lease)
    (hRun : start.run? events = some fleet) : fleet.Exclusive name lease := by
  have hAll : fleet.Legal ∧ fleet.Paced ∧
      ((∀ node interval manager, .register node name interval ∈ events →
        start.managers[node]? = some manager → manager.options.Respects interval lease) →
        fleet.Exclusive name lease) := by
    refine runs?_induction (motive := fun events fleet => fleet.Legal ∧ fleet.Paced ∧
      ((∀ node interval manager, .register node name interval ∈ events →
        start.managers[node]? = some manager → manager.options.Respects interval lease) →
        fleet.Exclusive name lease)) ⟨hLegal, hPaced, fun _ => h⟩ ?_ hRun
    rintro done before event next hDone ⟨hBefore, hPace, hExclusive⟩ hNext
    have hStep := step_of_step? hNext
    refine ⟨hBefore.step hStep, hPace.step hBefore (hBefore.change_of_step hStep), fun hAll => ?_⟩
    have hHere : before.Exclusive name lease := hExclusive fun node interval manager hEvent =>
      hAll node interval manager (List.mem_append_left _ hEvent)
    have hRunNext : start.run? (done ++ [event]) = some next := by
      rw [run?, runs?_snoc, hDone]
      exact hNext
    refine hHere.step hBefore hPace hStep ?_
    rintro node id options cycle hCycle rfl
    obtain ⟨hEvent, manager, hManager, rfl⟩ := registered_of_run hLegal hNone hRunNext hCycle
    exact hAll node cycle.interval manager hEvent hManager
  exact hAll.2.2 hRegister

end Exclusive

/-- **Mutual exclusion.**  New managers with distinct identities share a lock table and a
clock.  If all of them use one lease for a name and cancel its job before heartbeats have
failed for longer than that, then after every run at most one of them holds the name under
a signal that is not cancelled; the row of the lock names it as the owner and carries the
time of its last write. -/
theorem at_most_one_holder {database table : String} {base : Instant} {memory : Memory}
    {managers : List Manager} {events : List Event}
    (hLocks : memory.HoldsLocks (lockSpace database table))
    (hNew : ∀ manager ∈ managers, manager.IsNew (lockSpace database table))
    (hDistinct : (managers.map fun manager => manager.options.identity).Nodup)
    (hLease : ∀ node interval manager, .register node name interval ∈ events →
      managers[node]? = some manager → manager.options.Respects interval lease)
    (hRun : (Fleet.around database table base memory managers).run? events = some fleet) :
    (∀ i j, fleet.IsLive i name → fleet.IsLive j name → i = j) ∧
      ∀ node, fleet.IsLive node name → ∃ manager row wrote,
        fleet.managers[node]? = some manager ∧ fleet.lockRow? name = some row ∧
        row.owner = manager.options.identity ∧ fleet.lastWrite? node name = some wrote ∧
        fleet.base.after? wrote = some row.updateTime := by
  have hStart : (Fleet.around database table base memory managers).Exclusive name lease :=
    .around hNew hDistinct name lease
  have hBegin : (Fleet.around database table base memory managers).Legal := .around hLocks hNew
  have hLegal := hBegin.run hRun
  have hExclusive := hStart.run hBegin (.around hNew) (cycle?_around hNew) hLease hRun
  exact ⟨fun i j hI hJ => hExclusive.eq_of_isLive hLegal hI hJ,
    fun node hLive => hExclusive.owned_of_isLive hLegal hLive⟩

end

/-! ## A race for a first row -/

/-- Two nodes count no row at the same time, and one of them inserts it first; of its next
two heartbeats the first fails. -/
def firstRow : List Event :=
  [.register 0 "job" .short, .register 1 "job" .short,
    .move 0 0 (.turn 0), .move 1 0 (.turn 0), .move 0 0 .serve, .move 1 0 .serve,
    .move 0 0 .read, .move 1 0 .read, .move 0 0 .serve, .move 1 0 .serve,
    .move 0 0 (.turn 0), .move 0 0 (.turn 0), .move 0 0 (.turn 0), .move 0 0 (.turn 0),
    .move 1 0 (.turn 0), .pass 60000000000,
    .move 0 0 .expire, .move 0 0 .read, .move 0 0 (.fail (.reported "timeout")),
    .move 0 0 (.turn 0), .pass 60000000000, .move 0 0 .expire, .move 0 0 .read, .move 0 0 .serve,
    .move 0 0 (.turn 0)]

/-- Two nodes around an empty lock table. -/
def standardPair : Fleet :=
  around Lock.standardDatabase Lock.standardTable ⟨0, 0⟩ (.ofLocks standardLockSpace [])
    [.fresh (.ofIdentity "a"), .fresh (.ofIdentity "b")]

theorem respects_of_firstRow :
    ∀ node interval manager, .register node "job" interval ∈ firstRow →
      standardPair.managers[node]? = some manager →
      manager.options.Respects interval (.ofSeconds 600) := by
  intro node interval manager hEvent hManager
  simp only [firstRow, List.mem_cons, Event.register.injEq, true_and, reduceCtorEq,
    List.not_mem_nil, or_false] at hEvent
  rcases hEvent with ⟨rfl, rfl⟩ | ⟨rfl, rfl⟩
  · obtain rfl := Option.some.inj hManager
    decide
  · obtain rfl := Option.some.inj hManager
    decide

/-- The winner of `firstRow` is the only holder. -/
theorem one_holder_of_firstRow :
    ∃ fleet, standardPair.run? firstRow = some fleet ∧ fleet.IsLive 0 "job" ∧
      fleet.lastWrite? 0 "job" = some 120000000000 ∧
      ∀ node, fleet.IsLive node "job" → 0 = node := by
  have hEvaluated : (standardPair.run? firstRow).any (fun fleet =>
      decide (fleet.IsLive 0 "job" ∧ fleet.lastWrite? 0 "job" = some 120000000000)) = true := by
    decide
  obtain ⟨fleet, hRun, hHeld⟩ := (Option.any_eq_true _ _).mp hEvaluated
  obtain ⟨hLive, hLast⟩ := of_decide_eq_true hHeld
  have hLocks : (Memory.ofLocks standardLockSpace []).HoldsLocks standardLockSpace :=
    Memory.holdsLocks_ofLocks List.Pairwise.nil
  have hNew : ∀ manager ∈ standardPair.managers, manager.IsNew standardLockSpace := by
    intro manager hManager
    simp only [standardPair, around, List.mem_cons, List.not_mem_nil, or_false] at hManager
    rcases hManager with rfl | rfl
    · exact Manager.isNew_fresh (by decide)
    · exact Manager.isNew_fresh (by decide)
  obtain ⟨hOne, -⟩ := at_most_one_holder hLocks hNew (by decide) respects_of_firstRow hRun
  exact ⟨fleet, hRun, hLive, hLast, fun node hNode => hOne 0 node hLive hNode⟩

end Fleet
end Leasehold
