import Leasehold.Proofs.Fleet.Exclusion
import Leasehold.Proofs.Fleet.FreeTime
import Leasehold.Proofs.Lock.Contention

/-!
# Two processes and one lock

Two managers share a lock table and a clock, their calls take their time, and nothing is known of
their heartbeats.  If their identities differ, one of them gets a lock that the other has only when
the row that it has read is more than a lease old by the time at which it writes: the other has
not written the row in the meantime, or it has renewed it after it was read.  The row need not
have been that old when it was read, for an attempt judges it by a later reading of the clock.

* `Cycle.Phase.Settles`, `Manager.Settled`: a manager does not try to get a lock for some time.
* `Fleet.Knows`: what an attempt knows of the row that it has read.
* `Fleet.Standing`: what has become of a lock that a node has got.
* `Fleet.Rivals`: the invariant; `Rivals.step` and `Rivals.run` keep it.
* `Fleet.lease_over_of_takeover`: when a lock changes hands.
* `Fleet.shared_by_twins`: identities that do not differ keep nobody apart.
-/

namespace Leasehold

/-! ## After a lock was got -/

/-- **A cycle that comes back late**: whatever it does, it does not try to get its lock before a
lease has passed since some time, unless the manager is shut down. -/
def Cycle.Phase.Settles (flag : Bool) (lease : Span) (now time : Nat) : Cycle.Phase → Prop
  | .retrying | .waiting _ => False
  | .attempting attempt => attempt.stage.hasWon = true
  | .beating beat _ => time < beat.due
  | .renewing beat _ _ => time < now ∧ time < beat.due
  | .losing _ _ | .demoting _ => time < now
  | .cooling due => time + lease.nanos < due
  | .departing | .stopping _ | .leaving => flag = true
  | .acquired _ | .marked _ _ | .starting _ _ | .over => True

namespace Manager

/-- **A manager that comes back late**: the cycles of a name do so, and the name cannot be
registered before. -/
structure Settled (manager : Manager) (name : String) (lease : Span) (now time : Nat) : Prop where
  cycles : ∀ (id : Nat) (cycle : Cycle), manager.cycles[id]? = some cycle → cycle.name = name →
    cycle.phase.Settles manager.shutDown lease now time
  closed : manager.shutDown = true ∨ manager.registry.contains name = true

end Manager

variable {manager after : Manager} {name : String} {lease : Span} {now time : Nat}

theorem Cycle.Phase.Settles.later {flag : Bool} {phase : Cycle.Phase} {next : Nat}
    (h : phase.Settles flag lease now time) (hNow : now ≤ next) :
    phase.Settles flag lease next time := by
  cases phase with
  | renewing beat renewal signal => exact ⟨Nat.lt_of_lt_of_le h.1 hNow, h.2⟩
  | losing failures signal => exact Nat.lt_of_lt_of_le h hNow
  | demoting failures => exact Nat.lt_of_lt_of_le h hNow
  | _ => exact h

theorem Cycle.Phase.Settles.flagged {flag flag' : Bool} {phase : Cycle.Phase}
    (h : phase.Settles flag lease now time) (hFlag : flag = true → flag' = true) :
    phase.Settles flag' lease now time := by
  cases phase with
  | departing => exact hFlag h
  | stopping signal => exact hFlag h
  | leaving => exact hFlag h
  | _ => exact h

/-- **A move keeps a cycle from coming back early**, or the lease is over. -/
theorem Cycle.Move.settles {cycle : Cycle} {draw : Nat} {stimulus : Stimulus}
    {phase phase' : Cycle.Phase}
    (h : Cycle.Move manager cycle ⟨now, draw⟩ stimulus phase phase')
    (hSuits : stimulus.suits now manager.shutDown phase.need = true)
    (hLease : (manager.policy cycle.interval).lease = lease)
    (hPeriod : 0 < (manager.policy cycle.interval).heartbeat.nanos) (hTime : time ≤ now)
    (hBefore : phase.Settles manager.shutDown lease now time) :
    phase'.Settles manager.shutDown lease now time ∨ time + lease.nanos < now := by
  cases h with
  | quit hFlag => exact hBefore.elim
  | attempt hFlag => exact hBefore.elim
  | win hResult => exact .inl trivial
  | miss hResult hMissed =>
      have hLost := Attempt.hasWon_eq_false fun version hWon =>
        hMissed version (Option.some.inj (hResult.symm.trans hWon))
      exact absurd (hBefore.symm.trans hLost) nofun
  | mark version => exact .inl trivial
  | look version signal => exact .inl trivial
  | start version signal =>
      left
      show time < now + _
      omega
  | recover hResult => exact .inl hBefore.2
  | falter hResult hFailed hFailures => exact .inl hBefore.2
  | lose hResult hFailed hFailures => exact .inl hBefore.1
  | cancel failures signal => exact .inl hBefore
  | demote failures =>
      left
      rw [← hLease]
      exact Nat.add_lt_add_right hBefore _
  | depart => exact .inl trivial
  | stop signal => exact .inl hBefore
  | leave => exact .inl trivial
  | answer attempt response =>
      -- An attempt that has won waits for no answer.
      rw [Cycle.Phase.need, Attempt.request?_of_hasWon hBefore] at hSuits
      cases response <;> cases hSuits
  | renew beat renewal signal response => exact .inl hBefore
  | retry due => exact hBefore.elim
  | beat beat signal =>
      have hDue : beat.due ≤ now := of_decide_eq_true hSuits
      have hDueBefore : time < beat.due := hBefore
      refine .inl ⟨Nat.lt_of_lt_of_le hDueBefore hDue, ?_⟩
      simp only [Heartbeat.tick]
      split <;> omega
  | cool due =>
      right
      exact Nat.lt_of_lt_of_le hBefore (of_decide_eq_true hSuits)
  | wakeWaiting due => exact hBefore.elim
  | wakeBeating beat signal => exact .inl hSuits
  | wakeCooling due => exact .inl hSuits

namespace Manager

/-- A name stays registered until its cycle is over. -/
theorem contains_of_moves {id : Nat} {cycle moved : Cycle} {moment : Moment} {stimulus : Stimulus}
    (h : manager.Moves after id cycle moment stimulus moved)
    (hContains : manager.registry.contains name = true)
    (hLive : cycle.name = name → moved.phase.isLive = true) :
    after.registry.contains name = true := by
  rw [OrderedMap.contains, h.registry]
  by_cases hName : name = cycle.name
  · subst hName
    rw [manager.get?_registryAfter_self _ (hLive rfl), Option.isSome_map]
    exact hContains
  · rw [manager.get?_registryAfter_of_ne _ hName]
    exact hContains

/-- The cycles of a manager that comes back late do so after an event, or the lease is over. -/
theorem Settled.cycles_lives (h : manager.Settled name lease now time)
    (hLives : Fleet.Lives now manager after)
    (hLease : ∀ (id : Nat) (cycle : Cycle), manager.cycles[id]? = some cycle →
      cycle.name = name → (manager.policy cycle.interval).lease = lease)
    (hPeriod : ∀ interval, 0 < (manager.policy interval).heartbeat.nanos) (hTime : time ≤ now)
    (hWithin : ¬ time + lease.nanos < now) {id : Nat} {cycle : Cycle}
    (hCycle : after.cycles[id]? = some cycle) (hName : cycle.name = name) :
    cycle.phase.Settles after.shutDown lease now time := by
  obtain ⟨calls, act, hChange, hOpen⟩ := hLives
  have hFlag : manager.shutDown = true → after.shutDown = true := hChange.shutDown
  cases hChange.origin hCycle with
  | same hSame => exact (h.cycles id cycle hSame hName).flagged hFlag
  | @begun k other interval hEvent hCall hFree hManager hId hNew =>
      -- A name that can be registered is not registered, and no flag is raised.
      have hOther : other = name := by
        rw [hNew] at hName
        exact hName
      subst hOther
      rcases h.closed with hDown | hTaken
      · rw [hOpen _ hEvent] at hDown
        cases hDown
      · have hNone : manager.registry.get? other = none := hFree
        rw [OrderedMap.contains, hNone] at hTaken
        cases hTaken
  | @moved draw stimulus earlier hEvent hEarlier hSuits hMoves =>
      have hBefore := h.cycles id earlier hEarlier (hMoves.name.symm.trans hName)
      have hPolicy := hLease id earlier hEarlier (hMoves.name.symm.trans hName)
      exact ((hMoves.move.settles hSuits hPolicy (hPeriod _) hTime hBefore).resolve_right
        hWithin).flagged hFlag

/-- The name of a manager that comes back late stays closed. -/
theorem Settled.closed_lives (h : manager.Settled name lease now time)
    (hLives : Fleet.Lives now manager after) :
    after.shutDown = true ∨ after.registry.contains name = true := by
  obtain ⟨calls, act, hChange, -⟩ := hLives
  refine h.closed.elim (fun hFlag => .inl (hChange.shutDown hFlag)) fun hTaken => ?_
  cases hChange with
  | kept hSame => exact .inr ((congrArg (·.contains name) hSame.registry).trans hTaken)
  | raised hEvent hFlag hManager =>
      exact .inl (by rw [show after = manager.raiseFlag from hManager]; rfl)
  | @walked signals hFlag hManager =>
      exact .inl (by rw [show after = manager.cancelAll signals from hManager]; exact hFlag)
  | @accepted k other interval hEvent hCall hFree hManager =>
      refine .inr ?_
      rw [show after = manager.accept other interval from hManager]
      by_cases hName : name = other
      · subst hName
        simp only [accept, OrderedMap.contains, OrderedMap.get?_insert_self, Option.isSome_some]
      · simp only [accept, OrderedMap.contains, OrderedMap.get?_insert_of_ne _ _ hName]
        exact hTaken
  | @moved id draw stimulus cycle moved hEvent hCycle hSuits hMoves =>
      have hMoves : manager.Moves after id cycle ⟨now, draw⟩ stimulus moved := hMoves
      by_cases hLive : cycle.name = name → moved.phase.isLive = true
      · exact .inr (contains_of_moves hMoves hTaken hLive)
      · -- The cycle of the name is over, and it came to its end by a shutdown.
        obtain ⟨hName, hOver⟩ := Classical.not_imp.mp hLive
        have hBefore := h.cycles id cycle hCycle hName
        left
        rw [hMoves.shutDown]
        have hMove := hMoves.move
        generalize cycle.phase = phase at hMove hBefore
        generalize moved.phase = phase' at hMove hOver
        cases hMove with
        | depart => exact hBefore
        | leave => exact hBefore
        | _ => exact absurd rfl hOver

/-- **A manager that comes back late still does after an event**, or the lease is over. -/
theorem Settled.lives (h : manager.Settled name lease now time)
    (hLives : Fleet.Lives now manager after)
    (hLease : ∀ (id : Nat) (cycle : Cycle), manager.cycles[id]? = some cycle →
      cycle.name = name → (manager.policy cycle.interval).lease = lease)
    (hPeriod : ∀ interval, 0 < (manager.policy interval).heartbeat.nanos) (hTime : time ≤ now) :
    after.Settled name lease now time ∨ time + lease.nanos < now := by
  by_cases hOver : time + lease.nanos < now
  · exact .inr hOver
  · exact .inl ⟨fun id cycle => h.cycles_lives hLives hLease hPeriod hTime hOver,
      h.closed_lives hLives⟩

end Manager

namespace Fleet

variable {fleet next : Fleet} {event : Event} {node holder rival : Nat} {name : String}
  {lease : Span}

/-! ## Who owns a row -/

/-- The identity of a node. -/
def identity? (fleet : Fleet) (node : Nat) : Option String :=
  fleet.managers[node]?.map fun manager => manager.options.identity

theorem identity?_of_options
    (h : next.managers.map Manager.options = fleet.managers.map Manager.options) (node : Nat) :
    next.identity? node = fleet.identity? node := by
  have hView : ∀ any : Fleet, any.identity? node
      = (any.managers.map Manager.options)[node]?.map Manager.Options.identity := by
    intro any
    rw [identity?, List.getElem?_map, Option.map_map]
    rfl
  rw [hView, h, hView]

theorem identity?_of_cycle? {id : Nat} {options : Manager.Options} {cycle : Cycle}
    (h : fleet.cycle? node id = some (options, cycle)) :
    fleet.identity? node = some options.identity := by
  obtain ⟨manager, hManager, rfl, -⟩ := cycle?_eq_some_iff.mp h
  rw [identity?, hManager, Option.map_some]

/-- A node has got the lock of a name, and the row says so. -/
def Owns (fleet : Fleet) (node : Nat) (name : String) : Prop :=
  fleet.Keeps node name ∧
    ∃ row, fleet.lockRow? name = some row ∧ fleet.identity? node = some row.owner

/-- An event that leaves the owner of a row leaves a node that owns it as it was. -/
theorem Owns.before (h : next.Owns holder name) (hLegal : fleet.Legal)
    (hStep : fleet.step? event = some next) {row : LockRow}
    (hRow : fleet.lockRow? name = some row)
    (hOwner : ∀ row', next.lockRow? name = some row' → row'.owner = row.owner)
    (hWriter : next.writes = fleet.writes ++ [⟨holder, name, fleet.now⟩] →
      fleet.Keeps holder name) : fleet.Owns holder name := by
  obtain ⟨hKeeps, row', hRow', hIdentity⟩ := h
  refine ⟨(hKeeps.before hLegal hStep).elim id hWriter, row, hRow, ?_⟩
  rw [← identity?_of_options (step_of_step? hStep).options, hIdentity, hOwner row' hRow']

/-- **What is known of a row that was read stays known**: a new version makes it void, and nobody
comes to own the row under the old one. -/
theorem Tracks.touched {read : LockRow} {fact fact' : Prop} (h : fleet.Tracks name read fact)
    (hLegal : fleet.Legal) (hStep : fleet.step? event = some next) (holder : Nat)
    (hFact : (next.Owns holder name → fleet.Owns holder name) → fact → fact') :
    next.Tracks name read fact' := by
  obtain ⟨row, hRow, hVersion, hKnown⟩ := h
  cases hLegal.touch hStep name with
  | none hSame hWrites =>
      refine ⟨row, hSame.trans hRow, hVersion, fun hEq => hFact (fun hOwns => ?_) (hKnown hEq)⟩
      refine hOwns.before hLegal hStep hRow (fun row' hRow' => ?_)
        fun hWritten => absurd hWritten (hWrites _ _)
      rw [hSame, hRow] at hRow'
      rw [Option.some.inj hRow']
  | @won node id options cycle moved attempt now row' hCycle hName hPhase hStage hTaken hOwner hTime
      hWrites hMoved hMovedName hNext =>
      have hNewer : row.version < row'.version := by
        rcases hStage with ⟨-, hFree⟩ | ⟨read', held, -, hHeld, -, hNewer⟩
        · rw [hFree] at hRow
          cases hRow
        · obtain rfl : row = held := Option.some.inj (hRow.symm.trans hHeld)
          exact hNewer
      exact ⟨row', hTaken, by omega, fun hEq => by omega⟩
  | @renewed node id options cycle beat renewal signal now held hCycle hName hPhase hStage hOld
      hRow' hOwner hWrites =>
      obtain rfl : row = held := Option.some.inj (hRow.symm.trans hOld)
      refine ⟨_, hRow', hVersion, fun hEq => hFact (fun hOwns => ?_) (hKnown hEq)⟩
      refine hOwns.before hLegal hStep hRow (fun later hLater => ?_) fun hWritten => ?_
      · rw [hRow'] at hLater
        rw [← Option.some.inj hLater]
        rfl
      · -- The holder wrote the row, so that it is the one that has renewed it.
        have hWrite : (⟨node, name, fleet.now⟩ : Write) = ⟨holder, name, fleet.now⟩ :=
          List.singleton_inj.mp (List.append_cancel_left (hWrites.symm.trans hWritten))
        obtain rfl : node = holder := congrArg Write.node hWrite
        exact hName ▸ hLegal.keeps_of_renewing hCycle hPhase

/-- **What an attempt knows** of the row that it has read, as long as the row has the same version
and is owned by the node `holder`: it was its row, and not from the future; once the attempt claims
it, it was more than a lease old. -/
def Knows (fleet : Fleet) (holder : Nat) (name : String) (lease : Span) : Attempt.Stage → Prop
  | .judging read =>
    fleet.Tracks name read (fleet.Owns holder name →
      fleet.identity? holder = some read.owner ∧ fleet.Past read.updateTime)
  | .claiming read | .replacing read _ =>
    fleet.Tracks name read (fleet.Owns holder name →
      fleet.identity? holder = some read.owner ∧ fleet.Over lease read.updateTime)
  | _ => True

/-- A row that is claimed is known like one that is about to be. -/
theorem Knows.claim {read : LockRow}
    (h : fleet.Tracks name read (fleet.Owns holder name →
      fleet.identity? holder = some read.owner ∧ fleet.Over lease read.updateTime)) :
    fleet.Knows holder name lease (Attempt.claim read) := by
  rcases Attempt.claim_cases read with ⟨-, hClaim⟩ | ⟨-, hClaim⟩ <;> rw [hClaim]
  · exact h
  · trivial

theorem Knows.kept {stage : Attempt.Stage} (h : fleet.Knows holder name lease stage)
    (hLegal : fleet.Legal) (hStep : fleet.step? event = some next)
    (hNow : next.now = fleet.now) : next.Knows holder name lease stage := by
  have hBase := (step_of_step? hStep).frame.1
  have hIdentity := identity?_of_options (step_of_step? hStep).options holder
  have hLE := Nat.le_of_eq hNow.symm
  cases stage with
  | judging read =>
      refine Tracks.touched h hLegal hStep holder fun hBack hFact hOwns => ?_
      rw [hIdentity]
      exact (hFact (hBack hOwns)).imp_right fun hPast => hPast.later hBase hLE
  | claiming read =>
      refine Tracks.touched h hLegal hStep holder fun hBack hFact hOwns => ?_
      rw [hIdentity]
      exact (hFact (hBack hOwns)).imp_right fun hOver => hOver.later hBase hLE
  | replacing read stamp =>
      refine Tracks.touched h hLegal hStep holder fun hBack hFact hOwns => ?_
      rw [hIdentity]
      exact (hFact (hBack hOwns)).imp_right fun hOver => hOver.later hBase hLE
  | _ => trivial

/-- An attempt that looks at the clock knows what it needs to know if it has known it before. -/
theorem Knows.timed {attempt : Attempt} (hKnows : fleet.Knows holder name lease attempt.stage)
    (hLease : attempt.lease = lease) {reading : Instant} (hRequest : attempt.request? = some .time)
    (hReading : fleet.reading? = some reading) :
    fleet.Knows holder name lease (attempt.nextStage (.time reading)) := by
  cases hStage : attempt.stage with
  | stamping =>
      simp only [Attempt.nextStage, hStage]
      trivial
  | judging read =>
      rw [hStage] at hKnows
      simp only [Attempt.nextStage, hStage, Attempt.afterJudgement, hLease]
      split
      · next hExpired =>
        obtain ⟨row, hRow, hVersion, hFact⟩ := hKnows
        exact .claim ⟨row, hRow, hVersion, fun hEq hOwns =>
          (hFact hEq hOwns).imp_right fun hPast => hPast.over hReading hExpired⟩
      · trivial
  | claiming read =>
      rw [hStage] at hKnows
      simp only [Attempt.nextStage, hStage]
      exact hKnows
  | _ => simp [Attempt.request?, hStage] at hRequest

/-- What is known does not depend on the time that passes. -/
theorem Knows.passed {stage : Attempt.Stage} (h : fleet.Knows holder name lease stage)
    (nanos : Nat) : Knows { fleet with now := fleet.now + nanos } holder name lease stage := by
  have hLE : fleet.now ≤ fleet.now + nanos := Nat.le_add_right _ _
  cases stage with
  | judging read =>
      obtain ⟨row, hRow, hVersion, hFact⟩ := h
      exact ⟨row, hRow, hVersion, fun hEq hOwns =>
        (hFact hEq hOwns).imp_right fun hPast => hPast.later rfl hLE⟩
  | claiming read =>
      obtain ⟨row, hRow, hVersion, hFact⟩ := h
      exact ⟨row, hRow, hVersion, fun hEq hOwns =>
        (hFact hEq hOwns).imp_right fun hOver => hOver.later rfl hLE⟩
  | replacing read stamp =>
      obtain ⟨row, hRow, hVersion, hFact⟩ := h
      exact ⟨row, hRow, hVersion, fun hEq hOwns =>
        (hFact hEq hOwns).imp_right fun hOver => hOver.later rfl hLE⟩
  | _ => trivial

/-! ## What becomes of a lock -/

/-- The manager of a node comes back late. -/
def Settled (fleet : Fleet) (node : Nat) (name : String) (lease : Span) (time : Nat) : Prop :=
  ∃ manager, fleet.managers[node]? = some manager ∧ manager.Settled name lease fleet.now time

/-- **Where a lock stands** that the node `holder` has got, and which it has last written with the
time `stamp`: the row is as the holder has written it; or the rival has taken it, and then the
time is more than a lease ago, or else the rival has got the lock and comes back late. -/
inductive Standing (fleet : Fleet) (holder rival : Nat) (name : String) (lease : Span)
    (stamp : Instant) : Prop where
  | own {row : LockRow} (hRow : fleet.lockRow? name = some row)
      (hOwner : fleet.identity? holder = some row.owner) (hTime : row.updateTime = stamp)
      (hPast : fleet.Past stamp)
  | lapsed {row : LockRow} (hRow : fleet.lockRow? name = some row)
      (hOwner : fleet.identity? rival = some row.owner) (hOver : fleet.Over lease stamp)
  | settled {row : LockRow} {time : Nat} (hRow : fleet.lockRow? name = some row)
      (hOwner : fleet.identity? rival = some row.owner) (hTime : time ≤ fleet.now)
      (hStamp : fleet.base.after? time = some stamp)
      (hSettled : fleet.Settled rival name lease time)

/-- **Two managers with distinct identities**, the same lease of a name and accepted policies; what
the attempts of the rival know, and where the lock stands that the holder has got. -/
structure Rivals (fleet : Fleet) (holder rival : Nat) (name : String) (lease : Span)
    (stamp? : Option Instant) : Prop where
  apart : fleet.identity? holder ≠ fleet.identity? rival
  two : ∀ node manager, fleet.managers[node]? = some manager → node = holder ∨ node = rival
  accepted : ∀ options ∈ fleet.managers.map Manager.options, ∀ interval,
    (options.policies.get interval).IsValid
  leases : ∀ node id options cycle, fleet.cycle? node id = some (options, cycle) →
    cycle.name = name → (options.policies.get cycle.interval).lease = lease
  knows : ∀ id options cycle attempt, fleet.cycle? rival id = some (options, cycle) →
    cycle.name = name → cycle.phase = .attempting attempt →
    fleet.Knows holder name lease attempt.stage
  standing : fleet.Keeps holder name →
    ∃ stamp, stamp? = some stamp ∧ fleet.Standing holder rival name lease stamp

namespace Rivals

variable {stamp? : Option Instant}

/-- The row of a lock that the holder owns has a time of the past. -/
theorem past_of_owns (h : fleet.Rivals holder rival name lease stamp?)
    (hOwns : fleet.Owns holder name) {row : LockRow} (hRow : fleet.lockRow? name = some row) :
    fleet.identity? holder = some row.owner ∧ fleet.Past row.updateTime := by
  obtain ⟨hKeeps, held, hHeld, hIdentity⟩ := hOwns
  obtain rfl : row = held := Option.some.inj (hRow.symm.trans hHeld)
  have hNotRival : fleet.identity? rival ≠ some row.owner :=
    fun hRival => h.apart (hIdentity.trans hRival.symm)
  obtain ⟨stamp, -, hStanding⟩ := h.standing hKeeps
  cases hStanding with
  | @own held hRow' hOwner hTime hPast =>
      obtain rfl : row = held := Option.some.inj (hRow.symm.trans hRow')
      exact ⟨hIdentity, hTime ▸ hPast⟩
  | @lapsed held hRow' hOwner hOver =>
      obtain rfl : row = held := Option.some.inj (hRow.symm.trans hRow')
      exact absurd hOwner hNotRival
  | @settled held time hRow' hOwner hTime hStamp hSettled =>
      obtain rfl : row = held := Option.some.inj (hRow.symm.trans hRow')
      exact absurd hOwner hNotRival

/-- An attempt that has looked at the row of its name knows what it needs to know. -/
theorem knows_looked (h : fleet.Rivals holder rival name lease stamp?) {attempt : Attempt}
    (hClaimant : fleet.identity? rival = some attempt.claimant.identity) {call : Call}
    (hRequest : attempt.request? = some (.call call)) :
    fleet.Knows holder name lease (attempt.stageAfter (fleet.lockRow? name)) := by
  cases hStage : attempt.stage with
  | searching =>
      cases hRow : fleet.lockRow? name with
      | none =>
          simp only [Attempt.stageAfter, hStage]
          trivial
      | some row =>
          simp only [Attempt.stageAfter, hStage]
          split
          · next hOwn =>
            -- The row of the rival is not owned by the holder.
            refine .claim ⟨row, hRow, Int.le_refl _, fun _ hOwns => ?_⟩
            have hSelf : row.owner = attempt.claimant.identity := by
              rw [LockRow.isOwnedBy, beq_iff_eq] at hOwn
              exact hOwn
            have hHolder := (h.past_of_owns hOwns hRow).1
            rw [hSelf, ← hClaimant] at hHolder
            exact absurd hHolder h.apart
          · exact ⟨row, hRow, Int.le_refl _, fun _ hOwns => h.past_of_owns hOwns hRow⟩
  | counting =>
      simp only [Attempt.stageAfter, hStage]
      cases fleet.lockRow? name <;> trivial
  | inserting now =>
      simp only [Attempt.stageAfter, hStage]
      cases fleet.lockRow? name <;> trivial
  | replacing read now =>
      simp only [Attempt.stageAfter, hStage]
      cases fleet.lockRow? name <;> trivial
  | _ => simp [Attempt.request?, hStage] at hRequest

/-- **Quiet moves of an attempt leave it with what it knows.** -/
theorem knows_quiet (h : fleet.Rivals holder rival name lease stamp?) (hLegal : fleet.Legal)
    {id : Nat} {manager : Manager} {cycle : Cycle} {attempt : Attempt}
    (hCycle : fleet.cycle? rival id = some (manager.options, cycle)) (hName : cycle.name = name)
    (hQuiet : fleet.Quiet manager cycle cycle.phase (.attempting attempt)) :
    fleet.Knows holder name lease attempt.stage := by
  generalize hPhase : cycle.phase = phase at hQuiet
  cases hQuiet with
  | turned hMove =>
      cases hMove with
      | attempt hFlag => trivial
  | expired hNeed hDue hMove => cases hMove
  | woken hMove => cases hMove
  | @timed earlier reading hRequest hReading =>
      have hLease : earlier.lease = lease :=
        (hLegal.attempts rival id _ cycle earlier hCycle hPhase).2.trans
          (h.leases rival id _ cycle hCycle hName)
      exact (h.knows id _ cycle earlier hCycle hName hPhase).timed hLease hRequest hReading
  | @looked earlier call hRequest hLost =>
      obtain ⟨hClaimant, -⟩ := hLegal.attempts rival id _ cycle earlier hCycle hPhase
      rw [hName]
      refine h.knows_looked ?_ hRequest
      rw [identity?_of_cycle? hCycle, hClaimant]
  | @failed earlier call error hRequest =>
      cases hStage : earlier.stage with
      | counting => simp only [Attempt.nextStage, hStage]; trivial
      | inserting now => simp only [Attempt.nextStage, hStage]; trivial
      | searching => simp only [Attempt.nextStage, hStage]; trivial
      | replacing read now => simp only [Attempt.nextStage, hStage]; trivial
      | _ => simp [Attempt.request?, hStage] at hRequest

/-- The rival is another node. -/
theorem ne (h : fleet.Rivals holder rival name lease stamp?) : holder ≠ rival := by
  rintro rfl
  exact h.apart rfl

/-- Every event leaves the attempts of the rival with what they know. -/
theorem step_knows (h : fleet.Rivals holder rival name lease stamp?) (hLegal : fleet.Legal)
    (hStep : fleet.step? event = some next) (hNow : next.now = fleet.now) :
    ∀ id options cycle attempt, next.cycle? rival id = some (options, cycle) →
      cycle.name = name → cycle.phase = .attempting attempt →
      next.Knows holder name lease attempt.stage := by
  intro id options cycle attempt hCycle hName hPhase
  rcases (hLegal.change_of_step (step_of_step? hStep)).cycle_cases hCycle with
    hSame | ⟨hRetrying, -⟩ | ⟨manager, old, rfl, hOld, hOldName, -, hEffect⟩
  · exact (h.knows id options cycle attempt hSame hName hPhase).kept hLegal hStep hNow
  · rw [hRetrying] at hPhase
    cases hPhase
  · rw [hPhase] at hEffect
    cases hEffect with
    | quiet hRows hWrites hQuiet =>
        exact (h.knows_quiet hLegal hOld (hOldName.symm.trans hName) hQuiet).kept hLegal hStep hNow
    | won hAttempt hStage hRow hOwner hTime hOther hWrites hNext =>
        rw [Cycle.Phase.attempting.inj hNext]
        trivial
    | renewed hRenewing hStage hOldRow hRow hOwner hOther hWrites hNext => cases hNext

/-- A manager that comes back late still does after an event, or the lease is over. -/
theorem settled_step (h : fleet.Rivals holder rival name lease stamp?)
    (hStep : fleet.step? event = some next) (hNow : next.now = fleet.now) {time : Nat}
    (hTime : time ≤ fleet.now) (hSettled : fleet.Settled rival name lease time) :
    next.Settled rival name lease time ∨ time + lease.nanos < fleet.now := by
  obtain ⟨manager, hManager, hLate⟩ := hSettled
  obtain ⟨after, hAfter, -⟩ :=
    exists_manager_of_options (step_of_step? hStep).options.symm hManager
  obtain ⟨found, hFound, hLives⟩ := exists_lives hStep hAfter
  obtain rfl : manager = found := Option.some.inj (hManager.symm.trans hFound)
  have hOptions : manager.options ∈ fleet.managers.map Manager.options :=
    List.mem_map_of_mem (List.mem_of_getElem? hManager)
  refine (hLate.lives hLives (fun id cycle hCycle hName => ?_) (fun interval => ?_) hTime).imp_left
    fun hAfterLate => ⟨after, hAfter, hNow ▸ hAfterLate⟩
  · exact h.leases rival id _ cycle (Legal.cycle? hManager hCycle) hName
  · exact (h.accepted _ hOptions interval).1

/-- A node whose attempt has just got the lock comes back late. -/
theorem settled_of_won {id : Nat} {options : Manager.Options} {moved : Cycle} {attempt : Attempt}
    {version : Int} (hLegal : next.Legal) (hMoved : next.cycle? rival id = some (options, moved))
    (hName : moved.name = name)
    (hNext : moved.phase
      = .attempting { attempt with stage := .finished (.ok (.acquired version)) })
    (time : Nat) : next.Settled rival name lease time := by
  obtain ⟨manager, hManager, -, hCycle⟩ := cycle?_eq_some_iff.mp hMoved
  have hCoherent := hLegal.coherent manager (List.mem_of_getElem? hManager)
  have hLive : moved.phase.isLive = true := by rw [hNext]; rfl
  refine ⟨manager, hManager, fun number cycle hOther hSame => ?_, .inr ?_⟩
  · cases hOtherLive : cycle.phase.isLive with
    | true =>
        obtain rfl := hCoherent.unique number id cycle moved hOther hCycle (hSame.trans hName.symm)
          hOtherLive hLive
        obtain rfl : cycle = moved := Option.some.inj (hOther.symm.trans hCycle)
        rw [hNext]
        rfl
    | false =>
        cases hPhase : cycle.phase with
        | «over» => trivial
        | _ => rw [hPhase] at hOtherLive; cases hOtherLive
  · obtain ⟨registration, hGet, -⟩ := hCoherent.shown id moved hCycle hLive
    rw [← hName, OrderedMap.contains, hGet, Option.isSome_some]

/-- **A lock that the rival gets** while the holder has it: the row that its attempt has read was
the row of the holder, and is more than a lease old when the attempt writes. -/
theorem over_of_won (h : fleet.Rivals holder rival name lease stamp?) {id : Nat}
    {options : Manager.Options} {cycle : Cycle} {attempt : Attempt} {now : Instant}
    {row row' : LockRow} (hCycle : fleet.cycle? rival id = some (options, cycle))
    (hName : cycle.name = name) (hPhase : cycle.phase = .attempting attempt)
    (hStage : attempt.stage = .inserting now ∧ fleet.lockRow? name = none ∨
      ∃ read row, attempt.stage = .replacing read now ∧ fleet.lockRow? name = some row ∧
        row.version = read.version ∧ row.version < row'.version)
    (hKeeps : fleet.Keeps holder name) (hRow : fleet.lockRow? name = some row)
    (hOwner : fleet.identity? holder = some row.owner) :
    ∃ read, attempt.stage = .replacing read now ∧ read.version = row.version ∧
      read.owner = row.owner ∧ fleet.Over lease read.updateTime := by
  rcases hStage with ⟨-, hFree⟩ | ⟨read, held, hReplacing, hHeld, hVersion, -⟩
  · rw [hFree] at hRow
    cases hRow
  · obtain rfl : row = held := Option.some.inj (hRow.symm.trans hHeld)
    have hKnows := h.knows id options cycle attempt hCycle hName hPhase
    rw [hReplacing] at hKnows
    obtain ⟨found, hFound, -, hFact⟩ := hKnows
    obtain rfl : row = found := Option.some.inj (hRow.symm.trans hFound)
    obtain ⟨hIdentity, hOver⟩ := hFact hVersion.symm ⟨hKeeps, row, hRow, hOwner⟩
    exact ⟨read, hReplacing, hVersion.symm, Option.some.inj (hIdentity.symm.trans hOwner), hOver⟩

/-- An attempt that is about to get a lock is not one of a manager that comes back late. -/
theorem not_settled_of_won {id : Nat} {options : Manager.Options} {cycle : Cycle}
    {attempt : Attempt} {now : Instant} {version : Int} {time : Nat}
    (hCycle : fleet.cycle? rival id = some (options, cycle)) (hName : cycle.name = name)
    (hPhase : cycle.phase = .attempting attempt)
    (hStage : attempt.stage = .inserting now ∧ fleet.lockRow? name = none ∨
      ∃ read row, attempt.stage = .replacing read now ∧ fleet.lockRow? name = some row ∧
        row.version = read.version ∧ row.version < version) :
    ¬ fleet.Settled rival name lease time := by
  rintro ⟨manager, hManager, hLate⟩
  obtain ⟨found, hFound, -, hGet⟩ := cycle?_eq_some_iff.mp hCycle
  obtain rfl : manager = found := Option.some.inj (hManager.symm.trans hFound)
  have hSettles := hLate.cycles id cycle hGet hName
  rw [hPhase] at hSettles
  have hWon : attempt.stage.hasWon = true := hSettles
  rcases hStage with ⟨hInserting, -⟩ | ⟨read, row, hReplacing, -⟩
  · rw [hInserting] at hWon
    cases hWon
  · rw [hReplacing] at hWon
    cases hWon

/-- A lock whose row keeps its owner stands where it stood, or the lease is over. -/
theorem standing_carried (h : fleet.Rivals holder rival name lease stamp?)
    (hStep : fleet.step? event = some next) (hNow : next.now = fleet.now) {stamp : Instant}
    (hStanding : fleet.Standing holder rival name lease stamp) {row row' : LockRow}
    (hOld : fleet.lockRow? name = some row) (hRow : next.lockRow? name = some row')
    (hOwner : row'.owner = row.owner)
    (hSame : fleet.identity? holder = some row.owner → row'.updateTime = row.updateTime) :
    next.Standing holder rival name lease stamp := by
  have hBase := (step_of_step? hStep).frame.1
  have hIdentity := identity?_of_options (step_of_step? hStep).options
  have hLE := Nat.le_of_eq hNow.symm
  cases hStanding with
  | @own held hHeld hHolder hTime hPast =>
      obtain rfl : row = held := Option.some.inj (hOld.symm.trans hHeld)
      refine .own hRow ?_ ((hSame hHolder).trans hTime) (hPast.later hBase hLE)
      rw [hIdentity, hOwner]
      exact hHolder
  | @lapsed held hHeld hRival hOver =>
      obtain rfl : row = held := Option.some.inj (hOld.symm.trans hHeld)
      refine .lapsed hRow ?_ (hOver.later hBase hLE)
      rw [hIdentity, hOwner]
      exact hRival
  | @settled held time hHeld hRival hTime hReading hSettled =>
      obtain rfl : row = held := Option.some.inj (hOld.symm.trans hHeld)
      have hTaker : next.identity? rival = some row'.owner := by
        rw [hIdentity, hOwner]
        exact hRival
      rcases h.settled_step hStep hNow hTime hSettled with hLate | hOver
      · exact .settled hRow hTaker (hNow ▸ hTime) (hBase ▸ hReading) hLate
      · exact .lapsed hRow hTaker (Over.later ⟨_, hOver, hReading⟩ hBase hLE)

/-- A lock that the rival has just got: the last write of the holder is more than a lease ago, or
the rival comes back late. -/
theorem standing_of_won (h : fleet.Rivals holder rival name lease stamp?) (hLegal : fleet.Legal)
    (hStep : fleet.step? event = some next) (hNow : next.now = fleet.now) {stamp : Instant}
    (hKeeps : fleet.Keeps holder name) (hStanding : fleet.Standing holder rival name lease stamp)
    {id : Nat} {options : Manager.Options} {cycle moved : Cycle} {attempt : Attempt}
    {now : Instant} {row' : LockRow} (hCycle : fleet.cycle? rival id = some (options, cycle))
    (hName : cycle.name = name) (hPhase : cycle.phase = .attempting attempt)
    (hStage : attempt.stage = .inserting now ∧ fleet.lockRow? name = none ∨
      ∃ read row, attempt.stage = .replacing read now ∧ fleet.lockRow? name = some row ∧
        row.version = read.version ∧ row.version < row'.version)
    (hRow : next.lockRow? name = some row') (hOwner : row'.owner = options.identity)
    (hMoved : next.cycle? rival id = some (options, moved)) (hMovedName : moved.name = name)
    (hNext : moved.phase
      = .attempting { attempt with stage := .finished (.ok (.acquired row'.version)) }) :
    next.Standing holder rival name lease stamp := by
  have hBase := (step_of_step? hStep).frame.1
  have hLE := Nat.le_of_eq hNow.symm
  have hTaker : next.identity? rival = some row'.owner := by
    rw [identity?_of_options (step_of_step? hStep).options, identity?_of_cycle? hCycle, hOwner]
  cases hStanding with
  | @own row hHeld hHolder hTime hPast =>
      obtain ⟨read, -, -, -, hOver⟩ :=
        h.over_of_won hCycle hName hPhase hStage hKeeps hHeld hHolder
      by_cases hSame : read.updateTime = row.updateTime
      · rw [hSame, hTime] at hOver
        exact .lapsed hRow hTaker (hOver.later hBase hLE)
      · -- The holder has renewed the row since the attempt has read it.
        obtain ⟨time, hPastTime, hReading⟩ := hPast
        exact .settled hRow hTaker (hNow ▸ hPastTime) (hBase ▸ hReading)
          (settled_of_won (hLegal.step (step_of_step? hStep)) hMoved hMovedName hNext time)
  | lapsed hHeld hHolder hOver => exact .lapsed hRow hTaker (hOver.later hBase hLE)
  | settled hHeld hHolder hPastTime hReading hSettled =>
      exact absurd hSettled (not_settled_of_won hCycle hName hPhase hStage)

/-- A lock whose row the holder has just written stands as it has written it. -/
theorem standing_of_written (hDated : fleet.Dated) (hStep : fleet.step? event = some next)
    (hNow : next.now = fleet.now) {id : Nat} {options : Manager.Options} {cycle : Cycle}
    {now : Instant} {row' : LockRow} (hCycle : fleet.cycle? holder id = some (options, cycle))
    (hStamp : cycle.phase.stamp? = some now) (hRow : next.lockRow? name = some row')
    (hOwner : row'.owner = options.identity) (hTime : row'.updateTime = now)
    (hWrites : next.writes = fleet.writes ++ [⟨holder, name, fleet.now⟩]) :
    ∃ stamp, (written? holder name fleet next).or stamp? = some stamp ∧
      next.Standing holder rival name lease stamp := by
  refine ⟨row'.updateTime, ?_, .own hRow ?_ rfl ?_⟩
  · rw [written?_of_writes (hNow.symm ▸ hWrites) hRow, Option.some_or]
  · rw [identity?_of_options (step_of_step? hStep).options, identity?_of_cycle? hCycle, hOwner]
  · rw [hTime]
    exact (hDated holder id options cycle now hCycle hStamp).later (step_of_step? hStep).frame.1
      (Nat.le_of_eq hNow.symm)

/-- The write of one node is not that of the other. -/
theorem writes_ne (h : fleet.Rivals holder rival name lease stamp?)
    (hWrites : next.writes = fleet.writes ++ [⟨rival, name, fleet.now⟩]) (time : Nat) :
    next.writes ≠ fleet.writes ++ [⟨holder, name, time⟩] := by
  intro hSame
  have hWrite := List.singleton_inj.mp (List.append_cancel_left (hWrites.symm.trans hSame))
  exact h.ne (congrArg Write.node hWrite).symm

/-- **Every event leaves the lock where it stands**, or moves it on. -/
theorem step_standing (h : fleet.Rivals holder rival name lease stamp?) (hLegal : fleet.Legal)
    (hDated : fleet.Dated) (hStep : fleet.step? event = some next) (hNow : next.now = fleet.now)
    (hKeeps : next.Keeps holder name) :
    ∃ stamp, (written? holder name fleet next).or stamp? = some stamp ∧
      next.Standing holder rival name lease stamp := by
  -- The writer of the row is the holder or the rival.
  have hWriter : ∀ {node id : Nat} {options : Manager.Options} {cycle : Cycle},
      fleet.cycle? node id = some (options, cycle) → node = holder ∨ node = rival := by
    intro node id options cycle hCycle
    obtain ⟨manager, hManager, -⟩ := cycle?_eq_some_iff.mp hCycle
    exact h.two node manager hManager
  have hUnwritten : (∀ time, next.writes ≠ fleet.writes ++ [⟨holder, name, time⟩]) →
      fleet.Keeps holder name ∧ ∃ stamp, (written? holder name fleet next).or stamp? = some stamp ∧
        fleet.Standing holder rival name lease stamp := by
    intro hWrites
    have hBefore := (hKeeps.before hLegal hStep).resolve_right (hWrites _)
    rw [written?_of_ne hWrites, Option.none_or]
    exact ⟨hBefore, h.standing hBefore⟩
  cases hLegal.touch hStep name with
  | none hSame hWrites =>
      obtain ⟨-, stamp, hStamp, hStanding⟩ := hUnwritten (hWrites holder)
      obtain ⟨row, hRow⟩ : ∃ row, fleet.lockRow? name = some row := by
        cases hStanding with
        | own hRow _ _ _ => exact ⟨_, hRow⟩
        | lapsed hRow _ _ => exact ⟨_, hRow⟩
        | settled hRow _ _ _ _ => exact ⟨_, hRow⟩
      exact ⟨stamp, hStamp, h.standing_carried hStep hNow hStanding hRow (hSame.trans hRow) rfl
        fun _ => rfl⟩
  | @won node id options cycle moved attempt now row' hCycle hName hPhase hStage hRow hOwner hTime
      hWrites hMoved hMovedName hNext =>
      rcases hWriter hCycle with rfl | rfl
      · refine standing_of_written hDated hStep hNow hCycle ?_ hRow hOwner hTime hWrites
        rw [hPhase, Cycle.Phase.stamp?]
        rcases hStage with ⟨hInserting, -⟩ | ⟨read, row, hReplacing, -⟩
        · rw [hInserting]
          rfl
        · rw [hReplacing]
          rfl
      · obtain ⟨hBefore, stamp, hStamp, hStanding⟩ := hUnwritten (h.writes_ne hWrites)
        exact ⟨stamp, hStamp, h.standing_of_won hLegal hStep hNow hBefore hStanding hCycle hName
          hPhase hStage hRow hOwner hMoved hMovedName hNext⟩
  | @renewed node id options cycle beat renewal signal now row hCycle hName hPhase hStage hOld hRow
      hOwner hWrites =>
      rcases hWriter hCycle with rfl | rfl
      · refine standing_of_written hDated hStep hNow hCycle ?_ hRow hOwner rfl hWrites
        simp only [hPhase, Cycle.Phase.stamp?, hStage]
        rfl
      · obtain ⟨-, stamp, hStamp, hStanding⟩ := hUnwritten (h.writes_ne hWrites)
        refine ⟨stamp, hStamp,
          h.standing_carried hStep hNow hStanding hOld hRow rfl fun hHolder => ?_⟩
        rw [hOwner, ← identity?_of_cycle? hCycle] at hHolder
        exact absurd hHolder h.apart

/-- Time that passes leaves everything where it stands. -/
theorem passed (h : fleet.Rivals holder rival name lease stamp?) (nanos : Nat) :
    Rivals { fleet with now := fleet.now + nanos } holder rival name lease stamp? := by
  have hLE : fleet.now ≤ fleet.now + nanos := Nat.le_add_right _ _
  refine ⟨h.apart, h.two, h.accepted, h.leases, ?_, ?_⟩
  · intro id options cycle attempt hCycle hName hPhase
    exact (h.knows id options cycle attempt hCycle hName hPhase).passed nanos
  · intro hKeeps
    obtain ⟨stamp, hStamp, hStanding⟩ := h.standing hKeeps
    refine ⟨stamp, hStamp, ?_⟩
    cases hStanding with
    | own hRow hOwner hTime hPast => exact .own hRow hOwner hTime (hPast.later rfl hLE)
    | lapsed hRow hOwner hOver => exact .lapsed hRow hOwner (hOver.later rfl hLE)
    | settled hRow hOwner hTime hReading hSettled =>
        obtain ⟨manager, hManager, hLate⟩ := hSettled
        refine .settled hRow hOwner (Nat.le_trans hTime hLE) hReading ⟨manager, hManager, ?_⟩
        exact ⟨fun id cycle hCycle hName => (hLate.cycles id cycle hCycle hName).later hLE,
          hLate.closed⟩

/-- **Every event keeps the invariant**, if the name is registered for its lease only. -/
theorem step (h : fleet.Rivals holder rival name lease stamp?) (hLegal : fleet.Legal)
    (hDated : fleet.Dated) (hStep : fleet.stepFreely? event = some next)
    (hLease : ∀ node interval manager, event = .register node name interval →
      next.managers[node]? = some manager →
      (manager.options.policies.get interval).lease = lease) :
    next.Rivals holder rival name lease ((written? holder name fleet next).or stamp?) := by
  cases passage_of_stepFreely? hLegal hStep with
  | passed nanos hNext =>
      have hNone : written? holder name fleet next = none :=
        written?_of_ne fun _ => writes_ne_append (by rw [hNext]) _
      rw [hNone, Option.none_or, hNext]
      exact h.passed nanos
  | happened hStep hNow =>
      have hIdentity := identity?_of_options (step_of_step? hStep).options
      constructor
      case apart =>
        rw [hIdentity, hIdentity]
        exact h.apart
      case two =>
        intro node manager hManager
        obtain ⟨before, hBefore, -⟩ := exists_lives hStep hManager
        exact h.two node before hBefore
      case accepted =>
        rw [(step_of_step? hStep).options]
        exact h.accepted
      case leases =>
        intro node id options cycle hCycle hName
        rcases (hLegal.change_of_step (step_of_step? hStep)).cycle_cases hCycle with
          hSame | ⟨-, hEvent⟩ | ⟨manager, old, rfl, hOld, hOldName, hInterval, -⟩
        · exact h.leases node id options cycle hSame hName
        · obtain ⟨manager, hManager, rfl, -⟩ := cycle?_eq_some_iff.mp hCycle
          exact hLease node cycle.interval manager (hName ▸ hEvent) hManager
        · rw [hInterval]
          exact h.leases node id _ old hOld (hOldName.symm.trans hName)
      case knows => exact h.step_knows hLegal hStep hNow
      case standing => exact h.step_standing hLegal hDated hStep hNow

/-- Two new managers with distinct identities. -/
theorem around {database table : String} {base : Instant} {memory : Memory}
    {first second : Manager} {space : Space} (hFirst : first.IsNew space)
    (hSecond : second.IsNew space) (hDistinct : first.options.identity ≠ second.options.identity)
    (hNodes : holder ≠ rival) {one other : Manager}
    (hHolder : [first, second][holder]? = some one) (hRival : [first, second][rival]? = some other)
    (name : String) (lease : Span) :
    (Fleet.around database table base memory [first, second]).Rivals holder rival name lease
      none := by
  have hNew : ∀ manager ∈ [first, second], manager.IsNew space := by
    simp only [List.mem_cons, List.not_mem_nil, or_false]
    rintro manager (rfl | rfl)
    · exact hFirst
    · exact hSecond
  have hNodeCases : ∀ {node : Nat} {manager : Manager}, [first, second][node]? = some manager →
      node = 0 ∧ manager = first ∨ node = 1 ∧ manager = second := by
    intro node manager hManager
    match node with
    | 0 => exact .inl ⟨rfl, (Option.some.inj hManager).symm⟩
    | 1 => exact .inr ⟨rfl, (Option.some.inj hManager).symm⟩
  constructor
  case apart =>
    intro hSame
    have hIdentities : one.options.identity = other.options.identity := by
      rw [identity?, identity?, Fleet.around, hHolder, hRival, Option.map_some, Option.map_some]
        at hSame
      exact Option.some.inj hSame
    rcases hNodeCases hHolder with ⟨rfl, rfl⟩ | ⟨rfl, rfl⟩ <;>
      rcases hNodeCases hRival with ⟨rfl, rfl⟩ | ⟨rfl, rfl⟩
    · exact hNodes rfl
    · exact hDistinct hIdentities
    · exact hDistinct hIdentities.symm
    · exact hNodes rfl
  case two =>
    intro node manager hManager
    have hNode := hNodeCases hManager
    have hHolder := hNodeCases hHolder
    have hRival := hNodeCases hRival
    omega
  case accepted =>
    intro options hOptions interval
    obtain ⟨manager, hManager, rfl⟩ := List.mem_map.mp hOptions
    obtain ⟨-, capacity, hMade⟩ := hNew manager hManager
    exact (Manager.Options.of_validate (Manager.eq_of_new hMade).1).2 interval
  case leases =>
    intro node id options cycle hCycle
    rw [cycle?_around hNew] at hCycle
    cases hCycle
  case knows =>
    intro id options cycle attempt hCycle
    rw [cycle?_around hNew] at hCycle
    cases hCycle
  case standing =>
    rintro ⟨manager, hManager, hKept⟩
    obtain ⟨-, capacity, hMade⟩ := hNew manager (List.mem_of_getElem? hManager)
    rcases hKept with hHeld | ⟨id, cycle, hCycle, -⟩
    · rw [(Manager.eq_of_new hMade).2] at hHeld
      cases hHeld
    · rw [Manager.cycles_of_new hMade] at hCycle
      cases hCycle

/-- **Every run keeps the invariant**, if the name is registered for its lease only. -/
theorem run {start : Fleet} {events : List Event} (h : start.Rivals holder rival name lease none)
    (hLegal : start.Legal) (hDated : start.Dated)
    (hLease : ∀ node interval manager, .register node name interval ∈ events →
      start.managers[node]? = some manager →
      (manager.options.policies.get interval).lease = lease)
    (hRun : start.runFreely? events = some fleet) :
    fleet.Rivals holder rival name lease (lastStamp? holder name start events) := by
  refine runs?_induction (motive := fun events fleet =>
    (∀ node interval manager, .register node name interval ∈ events →
      start.managers[node]? = some manager →
      (manager.options.policies.get interval).lease = lease) →
    fleet.Rivals holder rival name lease (lastStamp? holder name start events))
    (fun _ => h) ?_ hRun hLease
  intro done before event next hDone hRivals hStep hAll
  rw [lastStamp?_snoc hDone hStep]
  refine (hRivals fun node interval manager hEvent =>
    hAll node interval manager (List.mem_append_left _ hEvent)).step (hLegal.runFreely hDone)
      (hDated.run hLegal hDone) hStep ?_
  rintro node interval manager rfl hManager
  have hOptions := (options_of_stepFreely? (hLegal.runFreely hDone) hStep).trans
    (options_of_runFreely? hLegal hDone)
  obtain ⟨first, hFirst, hSame⟩ := exists_manager_of_options hOptions hManager
  rw [← hSame]
  exact hAll node interval first (List.mem_append_right _ (List.mem_singleton_self _)) hFirst

end Rivals

/-! ## When a lock changes hands -/

/-- **An attempt gets its lock** with an event: it was under way before, and ends as `acquired`. -/
structure Gets (before after : Fleet) (node id : Nat) (name : String) (attempt : Attempt) :
    Prop where
  pending : ∃ options cycle, before.cycle? node id = some (options, cycle) ∧ cycle.name = name ∧
    cycle.phase = .attempting attempt ∧ attempt.result? = none
  got : ∃ options cycle version, after.cycle? node id = some (options, cycle) ∧
    cycle.phase = .attempting { attempt with stage := .finished (.ok (.acquired version)) }

/-- A name is held in the registry of a node. -/
def IsHeld (fleet : Fleet) (node : Nat) (name : String) : Prop :=
  ∃ manager, fleet.managers[node]? = some manager ∧ manager.state name = .held

/-- **A renewal that comes too late for an attempt**: the attempt is about to write over a row that
it has read with the time of an earlier write, which is more than a lease ago by now, and whose
owner has renewed it since. -/
def RenewedSince (fleet : Fleet) (holder : Nat) (name : String) (lease : Span) (attempt : Attempt)
    (stamp : Instant) : Prop :=
  ∃ read now row, attempt.stage = .replacing read now ∧ fleet.lockRow? name = some row ∧
    fleet.identity? holder = some row.owner ∧ row.updateTime = stamp ∧
    read.version = row.version ∧ read.owner = row.owner ∧ read.updateTime ≠ stamp ∧
    fleet.Over lease read.updateTime

/-- An attempt that gets its lock writes the row, the first one or the one that it has read. -/
theorem Gets.exists_stage {id : Nat} {attempt : Attempt} (h : Gets fleet next node id name attempt)
    (hLegal : fleet.Legal) (hStep : fleet.stepFreely? event = some next) :
    ∃ (options : Manager.Options) (cycle : Cycle) (now : Instant) (row' : LockRow),
      fleet.cycle? node id = some (options, cycle) ∧ cycle.name = name ∧
      cycle.phase = .attempting attempt ∧
      (attempt.stage = .inserting now ∧ fleet.lockRow? name = none ∨
        ∃ read row, attempt.stage = .replacing read now ∧ fleet.lockRow? name = some row ∧
          row.version = read.version ∧ row.version < row'.version) := by
  obtain ⟨options, cycle, hCycle, hName, hPhase, hPending⟩ := h.pending
  obtain ⟨owner, moved, version, hMoved, hGot⟩ := h.got
  have hUnended : attempt.stage ≠ .finished (.ok (.acquired version)) := by
    intro hStage
    rw [Attempt.result?, hStage] at hPending
    cases hPending
  have hUnmoved : fleet.cycle? node id ≠ some (owner, moved) := by
    intro hSame
    obtain ⟨-, rfl⟩ := Prod.mk.inj (Option.some.inj (hCycle.symm.trans hSame))
    exact hUnended (congrArg Attempt.stage (Cycle.Phase.attempting.inj (hPhase.symm.trans hGot)))
  cases passage_of_stepFreely? hLegal hStep with
  | passed nanos hNext =>
      subst hNext
      exact absurd hMoved hUnmoved
  | happened hStep hNow =>
      rcases (hLegal.change_of_step (step_of_step? hStep)).cycle_cases hMoved with
        hSame | ⟨hRetrying, -⟩ | ⟨manager, old, -, hOld, -, -, hEffect⟩
      · exact absurd hSame hUnmoved
      · rw [hRetrying] at hGot
        cases hGot
      · obtain ⟨-, rfl⟩ := Prod.mk.inj (Option.some.inj (hCycle.symm.trans hOld))
        cases hEffect with
        | quiet hRows hWrites hQuiet =>
            have hWon := hQuiet.isGranted (by rw [hGot]; rfl)
            rw [hPhase, Cycle.Phase.isGranted] at hWon
            have hLost : attempt.stage.hasWon = false := by
              refine Attempt.hasWon_eq_false fun version hResult => ?_
              rw [hPending] at hResult
              cases hResult
            rw [hLost] at hWon
            cases hWon
        | @won earlier now row' hEarlier hStage hRow hOwner hTime hOther hWrites hNext =>
            obtain rfl := Cycle.Phase.attempting.inj (hPhase.symm.trans hEarlier)
            rw [hName] at hStage
            exact ⟨options, cycle, now, row', hCycle, hName, hPhase, hStage⟩
        | renewed hRenewing hStage hOldRow hRow hOwner hOther hWrites hNext =>
            rw [hGot] at hNext
            cases hNext

/-- **No lease is cut short.**  Two new managers with distinct identities share a lock table and a
clock, and register a name for one lease; their calls take what time they take.  When an attempt of
one of them gets the lock while the other holds the name, the time of the last write of the holder
is more than a lease ago; or the holder has renewed the row after the attempt has read it, and then
the time with which the row was read is more than a lease ago at the write of the attempt. -/
theorem lease_over_of_takeover {database table : String} {base : Instant} {memory : Memory}
    {first second : Manager} {events : List Event} {id : Nat} {attempt : Attempt}
    (hLocks : memory.HoldsLocks (lockSpace database table))
    (hFirst : first.IsNew (lockSpace database table))
    (hSecond : second.IsNew (lockSpace database table))
    (hDistinct : first.options.identity ≠ second.options.identity)
    (hLease : ∀ node interval manager, .register node name interval ∈ events →
      [first, second][node]? = some manager →
      (manager.options.policies.get interval).lease = lease)
    (hRun : (Fleet.around database table base memory [first, second]).runFreely? events
      = some fleet)
    (hStep : fleet.stepFreely? event = some next) (hGets : Gets fleet next rival id name attempt)
    (hNodes : holder ≠ rival) (hHeld : fleet.IsHeld holder name) :
    ∃ stamp, lastStamp? holder name
        (Fleet.around database table base memory [first, second]) events = some stamp ∧
      (fleet.Over lease stamp ∨ fleet.RenewedSince holder name lease attempt stamp) := by
  have hNew : ∀ manager ∈ [first, second], manager.IsNew (lockSpace database table) := by
    simp only [List.mem_cons, List.not_mem_nil, or_false]
    rintro manager (rfl | rfl)
    · exact hFirst
    · exact hSecond
  have hStart : (Fleet.around database table base memory [first, second]).Legal :=
    .around hLocks hNew
  obtain ⟨options, cycle, now, row', hCycle, hName, hPhase, hStage⟩ :=
    hGets.exists_stage (hStart.runFreely hRun) hStep
  -- Both nodes were there from the start, so that the invariant holds of them.
  have hOptions := (options_of_runFreely? hStart hRun).symm
  obtain ⟨keeper, hKeeper, hState⟩ := hHeld
  obtain ⟨taker, hTaker, -⟩ := cycle?_eq_some_iff.mp hCycle
  obtain ⟨one, hOne, -⟩ := exists_manager_of_options hOptions.symm hKeeper
  obtain ⟨other, hOther, -⟩ := exists_manager_of_options hOptions.symm hTaker
  have hRivals := (Rivals.around hFirst hSecond hDistinct hNodes hOne hOther name lease).run hStart
    (Dated.around hNew) hLease hRun
  have hKeeps : fleet.Keeps holder name := ⟨keeper, hKeeper, .inl hState⟩
  obtain ⟨stamp, hStamp, hStanding⟩ := hRivals.standing hKeeps
  refine ⟨stamp, hStamp, ?_⟩
  cases hStanding with
  | lapsed hRow hOwner hOver => exact .inl hOver
  | settled hRow hOwner hTime hReading hSettled =>
      exact absurd hSettled (Rivals.not_settled_of_won hCycle hName hPhase hStage)
  | @own row hRow hOwner hTime hPast =>
      obtain ⟨read, hReplacing, hVersion, hSameOwner, hOver⟩ :=
        hRivals.over_of_won hCycle hName hPhase hStage hKeeps hRow hOwner
      by_cases hSame : read.updateTime = stamp
      · exact .inl (hSame ▸ hOver)
      · exact .inr ⟨read, now, row, hReplacing, hRow, hOwner, hTime, hVersion, hSameOwner, hSame,
          hOver⟩

/-- A node gets a first row, and does not come to its heartbeats for more than a lease; another
node reads the row and is about to take it over. -/
def neglected : List Event :=
  [.register 0 "job" .short, .move 0 0 (.turn 0), .move 0 0 .serve, .move 0 0 .read,
    .move 0 0 .serve, .move 0 0 (.turn 0), .move 0 0 (.turn 0), .move 0 0 (.turn 0),
    .move 0 0 (.turn 0), .pass 601000000000, .register 1 "job" .short, .move 1 0 (.turn 0),
    .move 1 0 .serve, .move 1 0 .serve, .move 1 0 .read, .move 1 0 .read]

/-- Whether an event registers a short job, if it registers one. -/
def Event.isShort : Event → Bool
  | .register _ _ interval => interval = .short
  | _ => true

/-- The lease of the short jobs of managers with standard options. -/
theorem leases_of_isShort {events : List Event} (first second : String)
    (hShort : events.all Event.isShort = true) :
    ∀ node interval manager, .register node "job" interval ∈ events →
      [Manager.fresh (.ofIdentity first), Manager.fresh (.ofIdentity second)][node]?
        = some manager →
      (manager.options.policies.get interval).lease = .ofSeconds 600 := by
  intro node interval manager hEvent hManager
  obtain rfl : interval = .short := of_decide_eq_true (List.all_eq_true.mp hShort _ hEvent)
  match node with
  | 0 => rw [← Option.some.inj hManager]; rfl
  | 1 => rw [← Option.some.inj hManager]; rfl

/-- The lease over which the row of `neglected` is taken. -/
theorem lease_over_of_neglected :
    ∃ fleet next attempt stamp, standardPair.runFreely? neglected = some fleet ∧
      fleet.stepFreely? (.move 1 0 .serve) = some next ∧ Gets fleet next 1 0 "job" attempt ∧
      fleet.IsHeld 0 "job" ∧ lastStamp? 0 "job" standardPair neglected = some stamp ∧
      (fleet.Over (.ofSeconds 600) stamp ∨
        fleet.RenewedSince 0 "job" (.ofSeconds 600) attempt stamp) := by
  obtain ⟨fleet, next, attempt, hRun, hStep, hGets, hHeld⟩ : ∃ fleet next attempt,
      standardPair.runFreely? neglected = some fleet ∧
      fleet.stepFreely? (.move 1 0 .serve) = some next ∧ Gets fleet next 1 0 "job" attempt ∧
      fleet.IsHeld 0 "job" :=
    ⟨_, _, _, rfl, rfl, ⟨⟨_, _, rfl, rfl, rfl, rfl⟩, ⟨_, _, _, rfl, rfl⟩⟩, ⟨_, rfl, rfl⟩⟩
  obtain ⟨stamp, hStamp, hOver⟩ := lease_over_of_takeover
    (Memory.holdsLocks_ofLocks List.Pairwise.nil) (Manager.isNew_fresh (by decide))
    (Manager.isNew_fresh (by decide)) (by decide)
    (leases_of_isShort "a" "b" rfl) hRun hStep hGets (by decide) hHeld
  exact ⟨fleet, next, attempt, stamp, hRun, hStep, hGets, hHeld, hStamp, hOver⟩

/-! ## When nothing is known of the identities -/

/-- **The nodes of a fleet exclude each other**: as long as the last write of a node that holds a
name is at most a lease ago, no attempt of another node gets the lock. -/
def Excludes (start : Fleet) (name : String) (lease : Span) : Prop :=
  ∀ events event fleet next holder rival id attempt stamp,
    (∀ node interval manager, .register node name interval ∈ events →
      start.managers[node]? = some manager →
      (manager.options.policies.get interval).lease = lease) →
    start.runFreely? events = some fleet → fleet.stepFreely? event = some next →
    Gets fleet next rival id name attempt → holder ≠ rival → fleet.IsHeld holder name →
    lastStamp? holder name start events = some stamp → fleet.Over lease stamp

/-- Two nodes with one identity around an empty lock table. -/
def twins : Fleet :=
  around Lock.standardDatabase Lock.standardTable ⟨0, 0⟩ (.ofLocks standardLockSpace [])
    [.fresh (.ofIdentity "a"), .fresh (.ofIdentity "a")]

/-- A node gets a first row, and another one finds it. -/
def found : List Event :=
  [.register 0 "job" .short, .move 0 0 (.turn 0), .move 0 0 .serve, .move 0 0 .read,
    .move 0 0 .serve, .move 0 0 (.turn 0), .move 0 0 (.turn 0), .move 0 0 (.turn 0),
    .move 0 0 (.turn 0), .register 1 "job" .short, .move 1 0 (.turn 0), .move 1 0 .serve,
    .move 1 0 .serve, .move 1 0 .read]

/-- The holder of `neglected` comes to its heartbeat before the other node writes. -/
def belated : List Event :=
  neglected ++ [.move 0 0 .expire, .move 0 0 .read, .move 0 0 .serve]

/-- A node takes the row of another one with its own identity at once. -/
theorem not_excludes_twins : ¬ twins.Excludes "job" (.ofSeconds 600) := by
  intro hTwins
  obtain ⟨fleet, next, attempt, stamp, hRun, hStep, hGets, hHeld, hStamp, hNow⟩ :
      ∃ fleet next attempt stamp, twins.runFreely? found = some fleet ∧
        fleet.stepFreely? (.move 1 0 .serve) = some next ∧ Gets fleet next 1 0 "job" attempt ∧
        fleet.IsHeld 0 "job" ∧ lastStamp? 0 "job" twins found = some stamp ∧ fleet.now = 0 :=
    ⟨_, _, _, _, rfl, rfl, ⟨⟨_, _, rfl, rfl, rfl, rfl⟩, ⟨_, _, _, rfl, rfl⟩⟩, ⟨_, rfl, rfl⟩, rfl,
      rfl⟩
  obtain ⟨time, hTime, -⟩ := hTwins found _ fleet next 0 1 0 attempt stamp
    (leases_of_isShort "a" "a" rfl) hRun hStep hGets (by decide) hHeld hStamp
  omega

/-- A node that has judged a row takes it though it was renewed. -/
theorem not_excludes_standardPair : ¬ standardPair.Excludes "job" (.ofSeconds 600) := by
  intro hPair
  obtain ⟨fleet, next, attempt, hRun, hStep, hGets, hHeld, hStamp, hBase, hNow⟩ :
      ∃ fleet next attempt, standardPair.runFreely? belated = some fleet ∧
        fleet.stepFreely? (.move 1 0 .serve) = some next ∧ Gets fleet next 1 0 "job" attempt ∧
        fleet.IsHeld 0 "job" ∧ lastStamp? 0 "job" standardPair belated = some ⟨601, 0⟩ ∧
        fleet.base = ⟨0, 0⟩ ∧ fleet.now = 601000000000 :=
    ⟨_, _, _, rfl, rfl, ⟨⟨_, _, rfl, rfl, rfl, rfl⟩, ⟨_, _, _, rfl, rfl⟩⟩, ⟨_, rfl, rfl⟩, rfl,
      rfl, rfl⟩
  have hOver := hPair belated _ fleet next 0 1 0 attempt ⟨601, 0⟩
    (leases_of_isShort "a" "b" rfl) hRun hStep hGets (by decide) hHeld hStamp
  have hReading : fleet.base.after? fleet.now = some ⟨601, 0⟩ := by
    rw [hBase, hNow]
    decide
  rw [over_iff (by rw [hBase]; decide) (by rw [hBase]; decide) hReading] at hOver
  omega

/-- Managers with standard options are new when their identities are not empty. -/
theorem isNew_of_identities (identities : List String)
    (h : ∀ identity ∈ identities, (Manager.Options.ofIdentity identity).validate = .ok ()) :
    ∀ manager ∈ identities.map fun identity => Manager.fresh (.ofIdentity identity),
      manager.IsNew standardLockSpace := by
  intro manager hManager
  obtain ⟨identity, hIdentity, rfl⟩ := List.mem_map.mp hManager
  exact Manager.isNew_fresh (h identity hIdentity)

/-- **Equal identities exclude nobody**: a node takes the row of another one with its own identity
whatever its age.  Nor do distinct identities exclude a node that has judged the row before it was
renewed. -/
theorem shared_by_twins :
    ((∀ manager ∈ twins.managers, manager.IsNew standardLockSpace) ∧
      ¬ twins.Excludes "job" (.ofSeconds 600)) ∧
    ((∀ manager ∈ standardPair.managers, manager.IsNew standardLockSpace) ∧
      ¬ standardPair.Excludes "job" (.ofSeconds 600)) := by
  refine ⟨⟨?_, not_excludes_twins⟩, ⟨?_, not_excludes_standardPair⟩⟩
  · exact isNew_of_identities ["a", "a"] (by decide)
  · exact isNew_of_identities ["a", "b"] (by decide)

end Fleet
end Leasehold
