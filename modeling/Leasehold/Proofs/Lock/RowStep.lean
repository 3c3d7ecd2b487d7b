import Leasehold.Proofs.Lock.Table

/-!
# Operations as steps on one row

An attempt and a renewal touch a lock table only through calls on the row of their own
name.  This module says, stage by stage, what the call that an operation waits for does
to that row and where the operation stands afterwards, without a table and without a
reply in sight.

* `Memory.ChangesRow`: one table is another with one row changed.
* `Attempt.rowAfter`, `Attempt.stageAfter`: the row and the stage after the call of an
  attempt.
* `Renewal.rowAfter`, `Renewal.stageAfter`: the same for a renewal.
* `Attempt.perform_eq`, `Renewal.perform_eq`: a memory store does exactly this.
* `Attempt.Stage.stamp?`: the time that an attempt is about to write.
* `Call.wrote`: whether a call has written, as its reply says.
* `Memory.rows_perform_of_not_wrote`: a call that has not written leaves every table alone.
-/

namespace Leasehold

/-- Whether a call has written: an insertion or an update that affected a row. -/
def Call.wrote : Call → Reply → Bool
  | .insert _ _, .ok answer => decide (0 < answer.count)
  | .update _ _ _, .ok answer => decide (0 < answer.count)
  | _, _ => false

namespace Memory

/-- An insertion that affects no row changes no table. -/
theorem rows_insert_of_not_wrote (memory : Memory) (space : Space) (record : Record)
    (h : (memory.insert space record).1 ≠ .ok 1) (other : Space) :
    (memory.insert space record).2.rows other = memory.rows other := by
  unfold insert at h ⊢
  split at h
  · rfl
  · next key hAdmit =>
    simp only at h ⊢
    split at h
    · next hTaken => rw [if_pos hTaken]
    · exact absurd rfl h

/-- An update of a table that affects no row gives the table back. -/
theorem updateTable_of_zero {table : Table} {key? : Option Value} {condition : Condition}
    {fields : Record} (h : (updateTable table key? condition fields).1 = 0) :
    (updateTable table key? condition fields).2 = table := by
  unfold updateTable at h ⊢
  split at h
  · next key =>
    split at h
    · next row hRow =>
      split at h
      · cases h
      · next hFails => simp only [if_neg hFails]
    · rfl
  · -- No row satisfies the condition, so that the scan meets none that it changes.
    have hNone : ∀ entry ∈ table.entries, condition.holds entry.2 = false := by
      intro entry hEntry
      have hEmpty := List.filter_eq_nil_iff.mp (List.eq_nil_of_length_eq_zero h)
      exact Bool.eq_false_iff.mpr (hEmpty entry.2 (List.mem_map.mpr ⟨entry, hEntry, rfl⟩))
    have hSame : table.entries.map (fun (key, value) =>
        (key, if condition.holds value then value.merge fields else value)) = table.entries := by
      refine (List.map_congr_left fun entry hEntry => ?_).trans (List.map_id _)
      simp [hNone entry hEntry]
    simp only [OrderedMap.mapWhere, hSame]

/-- An update that affects no row changes no table. -/
theorem rows_update_of_not_wrote (memory : Memory) (space : Space) (condition : Condition)
    (fields : Record) (h : ∀ n, (memory.update space condition fields).1 ≠ .ok (n + 1))
    (other : Space) :
    (memory.update space condition fields).2.rows other = memory.rows other := by
  unfold update at h ⊢
  split at h
  · rfl
  · split at h
    · rfl
    · next table hTable =>
      refine rows_withTable_rows memory ((rows_of_table? hTable).trans ?_) other
      refine (updateTable_of_zero ?_).symm
      cases hAffected : (updateTable table (condition.value? space.key) condition fields).1 with
      | zero => rfl
      | succ n => exact absurd (by simp only [hAffected]) (h n)

/-- **A call that has not written leaves every table alone.** -/
theorem rows_perform_of_not_wrote (memory : Memory) (call : Call)
    (h : call.wrote (memory.perform call).1 = false) (other : Space) :
    (memory.perform call).2.rows other = memory.rows other := by
  cases call with
  | mode => rfl
  | health => rfl
  | ensure space => exact rows_ensure memory space other
  | count space condition => rfl
  | search space condition => rfl
  | insert space record =>
      refine rows_insert_of_not_wrote memory space record (fun hOne => ?_) other
      simp [perform, Call.wrote, Except.map, hOne, Answer.count] at h
  | update space condition fields =>
      refine rows_update_of_not_wrote memory space condition fields (fun n hSome => ?_) other
      simp [perform, Call.wrote, Except.map, hSome, Answer.count] at h

/-- **One row changed.**  The table of a space holds locks again, and its rows are those of
the earlier table but for the row of one name. -/
structure ChangesRow (memory memory' : Memory) (space : Space) (name : String)
    (row? : Option LockRow) : Prop where
  locks : memory'.HoldsLocks space
  lockRow?_eq : ∀ other,
    memory'.lockRow? space other = if other = name then row? else memory.lockRow? space other

namespace ChangesRow

variable {memory memory' : Memory} {space : Space} {name : String} {row? : Option LockRow}

theorem lockRow?_self (h : memory.ChangesRow memory' space name row?) :
    memory'.lockRow? space name = row? := by
  simp [h.lockRow?_eq]

theorem lockRow?_of_ne (h : memory.ChangesRow memory' space name row?) {other : String}
    (hOther : other ≠ name) : memory'.lockRow? space other = memory.lockRow? space other := by
  simp [h.lockRow?_eq, hOther]

/-- A call that leaves the rows of the table alone changes the row into itself. -/
theorem of_rows_eq (hLocks : memory.HoldsLocks space)
    (h : memory'.rows space = memory.rows space) (hRow : memory.lockRow? space name = row?) :
    memory.ChangesRow memory' space name row? := by
  refine ⟨hLocks.of_rows_eq h, fun other => ?_⟩
  rw [lockRow?_eq_of_rows_eq h]
  split
  · next hOther => rw [hOther, hRow]
  · rfl

end ChangesRow

/-! ## The five calls -/

section

variable {memory : Memory} {database table : String} {claimant : Claimant} {row? : Option LockRow}
  (hLocks : memory.HoldsLocks (lockSpace database table))
  (hRow : memory.lockRow? (lockSpace database table) claimant.name = row?)

include hLocks hRow

theorem perform_count :
    memory.perform (.count (lockSpace database table) claimant.byName)
      = (.ok (.number (if row?.isSome then 1 else 0)), memory) := by
  rw [perform, hLocks.count_byName, hRow]

theorem perform_search :
    memory.perform (.search (lockSpace database table) claimant.byName)
      = (.ok (.records (row?.map LockRow.toRecord).toList), memory) := by
  rw [perform, hLocks.search_byName, hRow]

/-- A first row is written unless the name has a row. -/
theorem perform_first (now : Instant) :
    ∃ memory' : Memory,
      memory.perform (.insert (lockSpace database table)
          (LockRow.first claimant.name claimant.identity now).toRecord)
        = (.ok (.number (if row?.isSome then 0 else 1)), memory') ∧
      memory.ChangesRow memory' (lockSpace database table) claimant.name
        (row?.or (some (LockRow.first claimant.name claimant.identity now))) := by
  cases row? with
  | none =>
      obtain ⟨memory', hInsert, hNew, hRows⟩ := hLocks.insert_toRecord_of_none
        (LockRow.first claimant.name claimant.identity now) hRow
      refine ⟨memory', ?_, hNew, hRows⟩
      simp [perform, hInsert, Except.map]
  | some old =>
      have hInsert := hLocks.insert_toRecord_of_some
        (LockRow.first claimant.name claimant.identity now) hRow
      refine ⟨memory, ?_, .of_rows_eq hLocks rfl hRow⟩
      simp [perform, hInsert, Except.map]

/-- A write on the row of a name reaches the row if the row passes the test that the
condition makes. -/
theorem perform_write {condition : Condition} {fields : Record} {test : LockRow → Bool}
    {change : LockRow → LockRow}
    (hKey : condition.value? Lock.nameColumn = some (.text claimant.name))
    (hAdmit : admitUpdate (lockSpace database table) fields = .ok ())
    (hTest : ∀ row : LockRow, row.name = claimant.name →
      condition.holds row.toRecord = test row)
    (hName : ∀ row, (change row).name = row.name)
    (hMerge : ∀ row : LockRow, row.toRecord.merge fields = (change row).toRecord) :
    ∃ memory' : Memory,
      memory.perform (.update (lockSpace database table) condition fields)
        = (.ok (.number (if row?.any test then 1 else 0)), memory') ∧
      memory.ChangesRow memory' (lockSpace database table) claimant.name
        (row?.map fun row => if test row then change row else row) := by
  cases row? with
  | none =>
      obtain ⟨memory', hUpdate, hRows⟩ := hLocks.update_of_unmatched hKey hAdmit (by simp [hRow])
      exact ⟨memory', by simp [perform, hUpdate, Except.map], .of_rows_eq hLocks hRows hRow⟩
  | some old =>
      have hOldName : old.name = claimant.name := hLocks.name_eq hRow
      have hHolds := hTest old hOldName
      cases hPass : test old with
      | true =>
          obtain ⟨memory', hUpdate, hNew, hRows⟩ := hLocks.update_of_holds hKey hAdmit hRow
            (hHolds.trans hPass) ((hName old).trans hOldName) (hMerge old)
          refine ⟨memory', by simp [perform, hUpdate, Except.map, hPass], hNew, ?_⟩
          simpa [hPass] using hRows
      | false =>
          have hFails : ∀ row, memory.lockRow? (lockSpace database table) claimant.name = some row →
              condition.holds row.toRecord = false := by
            intro row hSome
            obtain rfl : old = row := Option.some.inj (hRow.symm.trans hSome)
            exact hHolds.trans hPass
          obtain ⟨memory', hUpdate, hRows⟩ := hLocks.update_of_unmatched hKey hAdmit hFails
          refine ⟨memory', by simp [perform, hUpdate, Except.map, hPass], ?_⟩
          exact .of_rows_eq hLocks hRows (by simp [hRow, hPass])

/-- A takeover is written if the row is still at the version that was read. -/
theorem perform_takeover (read : LockRow) (now : Instant) :
    ∃ memory' : Memory,
      memory.perform (.update (lockSpace database table) (claimant.byVersion read.version)
          (claimant.takeover read now))
        = (.ok (.number (if row?.any fun row => decide (row.version = read.version) then 1 else 0)),
            memory') ∧
      memory.ChangesRow memory' (lockSpace database table) claimant.name
        (row?.map fun row =>
          if decide (row.version = read.version) then row.takenBy claimant read.version now
          else row) := by
  refine perform_write hLocks hRow rfl (admitUpdate_takeover claimant read now) ?_
    (fun _ => rfl) (fun row => LockRow.merge_takeover claimant read row now)
  intro row hName
  simp [Claimant.holds_byVersion, hName]

/-- A renewal is written if the row is still the claimant's. -/
theorem perform_refresh (now : Instant) :
    ∃ memory' : Memory,
      memory.perform (.update (lockSpace database table) claimant.byOwner (Claimant.refresh now))
        = (.ok (.number (if row?.any fun row => decide (row.owner = claimant.identity) then 1
            else 0)), memory') ∧
      memory.ChangesRow memory' (lockSpace database table) claimant.name
        (row?.map fun row =>
          if decide (row.owner = claimant.identity) then row.renewedAt now else row) := by
  refine perform_write hLocks hRow rfl (admitUpdate_refresh now) ?_
    (fun _ => rfl) (fun row => LockRow.merge_refresh row now)
  intro row hName
  simp [Claimant.holds_byOwner, hName]

end

end Memory

/-! ## Attempts -/

namespace Attempt

/-- The row of the lock after the call that the attempt waits for. -/
def rowAfter (attempt : Attempt) (row? : Option LockRow) : Option LockRow :=
  match attempt.stage with
  | .inserting now =>
    row?.or (some (LockRow.first attempt.claimant.name attempt.claimant.identity now))
  | .replacing read now =>
    row?.map fun row =>
      if row.version = read.version then row.takenBy attempt.claimant read.version now else row
  | _ => row?

/-- The stage of the attempt after the call that it waits for, given the row that the
call met. -/
def stageAfter (attempt : Attempt) (row? : Option LockRow) : Stage :=
  match attempt.stage, row? with
  | .counting, none => .stamping
  | .counting, some _ => .searching
  | .inserting _, none => .finished (.ok (.acquired 0))
  | .inserting _, some _ => .finished (.ok .lostRace)
  | .searching, none => .finished (.ok .lostRace)
  | .searching, some row =>
    if row.isOwnedBy attempt.claimant.identity then claim row else .judging row
  | .replacing _ _, none => .finished (.ok .lostRace)
  | .replacing read _, some row =>
    .finished (.ok
      (if row.version = read.version then .acquired (read.version + 1) else .lostRace))
  | stage, _ => stage

/-- Whether a stage is the end of an attempt that has got the lock. -/
def Stage.hasWon : Stage → Bool
  | .finished (.ok outcome) => outcome.isAcquired
  | _ => false

/-- A row that is claimed is not had yet. -/
@[simp]
theorem hasWon_claim (row : LockRow) : (claim row).hasWon = false := by
  rcases claim_cases row with ⟨-, hClaim⟩ | ⟨-, hClaim⟩ <;> rw [hClaim] <;> rfl

/-- **The call of an attempt.**  A memory store changes the row of the lock as `rowAfter`
says and no other row, moves the attempt as `stageAfter` says, and writes exactly when
the attempt gets the lock. -/
theorem perform_eq {memory : Memory} {attempt : Attempt} {database table : String} {call : Call}
    {row? : Option LockRow}
    (hSpace : attempt.claimant.space = lockSpace database table)
    (hLocks : memory.HoldsLocks (lockSpace database table))
    (hRow : memory.lockRow? (lockSpace database table) attempt.claimant.name = row?)
    (hCall : attempt.request? = some (.call call)) :
    ∃ reply memory',
      memory.perform call = (reply, memory') ∧
      memory.ChangesRow memory' (lockSpace database table) attempt.claimant.name
        (attempt.rowAfter row?) ∧
      attempt.nextStage (.reply reply) = attempt.stageAfter row? ∧
      call.wrote reply = (attempt.stageAfter row?).hasWon := by
  cases hStage : attempt.stage with
  | counting =>
      simp only [request?, hStage, hSpace, Option.some.injEq, Request.call.injEq] at hCall
      subst hCall
      refine ⟨_, _, Memory.perform_count hLocks hRow, ?_, ?_, ?_⟩
      · simpa only [rowAfter, hStage] using .of_rows_eq hLocks rfl hRow
      · cases row? <;> simp [nextStage, stageAfter, hStage, afterCount, Answer.count]
      · cases row? <;> simp [Call.wrote, stageAfter, hStage, Stage.hasWon]
  | inserting now =>
      simp only [request?, hStage, hSpace, Option.some.injEq, Request.call.injEq] at hCall
      subst hCall
      obtain ⟨memory', hPerform, hChange⟩ := Memory.perform_first hLocks hRow now
      refine ⟨_, memory', hPerform, ?_, ?_, ?_⟩
      · simpa only [rowAfter, hStage] using hChange
      · cases row? <;> simp [nextStage, stageAfter, hStage, afterInsert, Answer.count]
      · cases row? <;>
          simp [Call.wrote, stageAfter, hStage, Stage.hasWon, Answer.count, Outcome.isAcquired]
  | searching =>
      simp only [request?, hStage, hSpace, Option.some.injEq, Request.call.injEq] at hCall
      subst hCall
      refine ⟨_, _, Memory.perform_search hLocks hRow, ?_, ?_, ?_⟩
      · simpa only [rowAfter, hStage] using .of_rows_eq hLocks rfl hRow
      · cases row? <;> simp [nextStage, stageAfter, hStage, afterSearch, Answer.rows]
      · cases row? with
        | none => simp [Call.wrote, stageAfter, hStage, Stage.hasWon, Outcome.isAcquired]
        | some row =>
            simp only [Call.wrote, stageAfter, hStage]
            split
            · exact (hasWon_claim row).symm
            · rfl
  | replacing read now =>
      simp only [request?, hStage, hSpace, Option.some.injEq, Request.call.injEq] at hCall
      subst hCall
      obtain ⟨memory', hPerform, hChange⟩ := Memory.perform_takeover hLocks hRow read now
      refine ⟨_, memory', hPerform, ?_, ?_, ?_⟩
      · simpa only [rowAfter, hStage, decide_eq_true_eq] using hChange
      · cases row? <;> simp [nextStage, stageAfter, hStage, afterReplace, Answer.count]
      · cases row? with
        | none =>
            simp [Call.wrote, stageAfter, hStage, Stage.hasWon, Answer.count, Outcome.isAcquired]
        | some row =>
            by_cases hVersion : row.version = read.version <;>
              simp [Call.wrote, stageAfter, hStage, Stage.hasWon, Answer.count, hVersion,
                Outcome.isAcquired]
  | stamping => simp [request?, hStage] at hCall
  | judging row => simp [request?, hStage] at hCall
  | claiming row => simp [request?, hStage] at hCall
  | finished result => simp [request?, hStage] at hCall

/-- **How a lock is had.**  The call of an attempt gets the lock in two ways: it writes the
first row, or it takes the row at the version that the attempt has read. -/
theorem hasWon_cases {attempt : Attempt} {row? : Option LockRow} {call : Call}
    (hCall : attempt.request? = some (.call call))
    (h : (attempt.stageAfter row?).hasWon = true) :
    (∃ now, attempt.stage = .inserting now ∧ row? = none ∧
      attempt.stageAfter row? = .finished (.ok (.acquired 0))) ∨
    ∃ read now row, attempt.stage = .replacing read now ∧ row? = some row ∧
      row.version = read.version ∧
      attempt.stageAfter row? = .finished (.ok (.acquired (read.version + 1))) := by
  cases hStage : attempt.stage with
  | inserting now =>
      cases row? with
      | none => exact .inl ⟨now, rfl, rfl, by simp [stageAfter, hStage]⟩
      | some row => simp [stageAfter, hStage, Stage.hasWon, Outcome.isAcquired] at h
  | replacing read now =>
      cases row? with
      | none => simp [stageAfter, hStage, Stage.hasWon, Outcome.isAcquired] at h
      | some row =>
          by_cases hVersion : row.version = read.version
          · exact .inr ⟨read, now, row, rfl, rfl, hVersion, by simp [stageAfter, hStage, hVersion]⟩
          · simp [stageAfter, hStage, hVersion, Stage.hasWon, Outcome.isAcquired] at h
  | searching =>
      cases row? with
      | none => simp [stageAfter, hStage, Stage.hasWon, Outcome.isAcquired] at h
      | some row =>
          simp only [stageAfter, hStage] at h
          split at h
          · rw [hasWon_claim] at h
            cases h
          · cases h
  | counting => cases row? <;> simp [stageAfter, hStage, Stage.hasWon] at h
  | stamping => simp [request?, hStage] at hCall
  | judging row => simp [request?, hStage] at hCall
  | claiming row => simp [request?, hStage] at hCall
  | finished result => simp [request?, hStage] at hCall

/-- An attempt that does not get its lock leaves the row as it is. -/
theorem rowAfter_eq_self {attempt : Attempt} {row? : Option LockRow}
    (h : (attempt.stageAfter row?).hasWon = false) : attempt.rowAfter row? = row? := by
  unfold rowAfter
  split
  · next now hStage =>
    cases row? with
    | none => simp [stageAfter, hStage, Stage.hasWon, Outcome.isAcquired] at h
    | some row => rfl
  · next read now hStage =>
    cases row? with
    | none => rfl
    | some row =>
        have hVersion : row.version ≠ read.version := by
          intro hVersion
          simp [stageAfter, hStage, hVersion, Stage.hasWon, Outcome.isAcquired] at h
        simp [hVersion]
  · rfl

/-! ## The time that an attempt writes -/

/-- The time that an attempt is about to write. -/
def Stage.stamp? : Stage → Option Instant
  | .inserting now => some now
  | .replacing _ now => some now
  | _ => none

variable {attempt : Attempt}

/-- Nothing is written as soon as a row is claimed. -/
@[simp]
theorem stamp?_claim (row : LockRow) : (claim row).stamp? = none := by
  rcases claim_cases row with ⟨-, hClaim⟩ | ⟨-, hClaim⟩ <;> rw [hClaim] <;> rfl

/-- A look at the clock is what an attempt writes next, or it writes nothing. -/
theorem stamp?_time {reading stamp : Instant} (hRequest : attempt.request? = some .time)
    (h : (attempt.nextStage (.time reading)).stamp? = some stamp) : reading = stamp := by
  cases hStage : attempt.stage with
  | stamping => simpa [nextStage, hStage, Stage.stamp?] using h
  | judging row =>
      simp only [nextStage, hStage, afterJudgement] at h
      split at h
      · rw [stamp?_claim] at h
        cases h
      · cases h
  | claiming row => simpa [nextStage, hStage, Stage.stamp?] using h
  | _ => simp [request?, hStage] at hRequest

theorem stamp?_afterSearch (identity : String) (reply : Reply) :
    (afterSearch identity reply).stamp? = none := by
  unfold afterSearch
  split
  · rfl
  · split
    · rfl
    · split
      · rfl
      · split
        · exact stamp?_claim _
        · rfl

/-- After a call an attempt looks at the clock again before it writes, whatever it is told. -/
theorem stamp?_reply {call : Call} (reply : Reply)
    (hRequest : attempt.request? = some (.call call)) :
    (attempt.nextStage (.reply reply)).stamp? = none := by
  cases hStage : attempt.stage with
  | counting =>
      simp only [nextStage, hStage, afterCount]
      split
      · rfl
      · split <;> rfl
  | searching =>
      simp only [nextStage, hStage]
      exact stamp?_afterSearch _ reply
  | inserting now =>
      simp only [nextStage, hStage]
      cases reply <;> rfl
  | replacing row now =>
      simp only [nextStage, hStage]
      cases reply <;> rfl
  | _ => simp [request?, hStage] at hRequest

/-- The same of what is told of the row that the call met. -/
theorem stamp?_stageAfter {call : Call} (hRequest : attempt.request? = some (.call call))
    (row? : Option LockRow) : (attempt.stageAfter row?).stamp? = none := by
  cases hStage : attempt.stage with
  | searching =>
      cases row? with
      | none => simp only [stageAfter, hStage, Stage.stamp?]
      | some row =>
          simp only [stageAfter, hStage]
          split
          · exact stamp?_claim row
          · rfl
  | counting => cases row? <;> simp only [stageAfter, hStage, Stage.stamp?]
  | inserting now => cases row? <;> simp only [stageAfter, hStage, Stage.stamp?]
  | replacing read now => cases row? <;> simp only [stageAfter, hStage, Stage.stamp?]
  | _ => simp [request?, hStage] at hRequest

end Attempt

/-! ## Renewals -/

namespace Renewal

/-- The row of the lock after the call that the renewal waits for. -/
def rowAfter (renewal : Renewal) (row? : Option LockRow) : Option LockRow :=
  match renewal.stage with
  | .writing now =>
    row?.map fun row => if row.owner = renewal.claimant.identity then row.renewedAt now else row
  | _ => row?

/-- The stage of the renewal after the call that it waits for, given the row that the call
met. -/
def stageAfter (renewal : Renewal) (row? : Option LockRow) : Stage :=
  match renewal.stage with
  | .writing _ =>
    .finished (.ok (row?.any fun row => decide (row.owner = renewal.claimant.identity)))
  | stage => stage

/-- Whether a stage is the end of a renewal that has renewed the lock. -/
def Stage.hasRenewed : Stage → Bool
  | .finished (.ok renewed) => renewed
  | _ => false

/-- **The call of a renewal.**  A memory store changes the row of the lock as `rowAfter`
says and no other row, moves the renewal as `stageAfter` says, and writes exactly when
the lock is renewed. -/
theorem perform_eq {memory : Memory} {renewal : Renewal} {database table : String} {call : Call}
    {row? : Option LockRow}
    (hSpace : renewal.claimant.space = lockSpace database table)
    (hLocks : memory.HoldsLocks (lockSpace database table))
    (hRow : memory.lockRow? (lockSpace database table) renewal.claimant.name = row?)
    (hCall : renewal.request? = some (.call call)) :
    ∃ reply memory',
      memory.perform call = (reply, memory') ∧
      memory.ChangesRow memory' (lockSpace database table) renewal.claimant.name
        (renewal.rowAfter row?) ∧
      renewal.resume (.reply reply) = { renewal with stage := renewal.stageAfter row? } ∧
      call.wrote reply = (renewal.stageAfter row?).hasRenewed := by
  cases hStage : renewal.stage with
  | stamping => simp [request?, hStage] at hCall
  | writing now =>
      simp only [request?, hStage, hSpace, Option.some.injEq, Request.call.injEq] at hCall
      subst hCall
      obtain ⟨memory', hPerform, hChange⟩ := Memory.perform_refresh hLocks hRow now
      refine ⟨_, memory', hPerform, ?_, ?_, ?_⟩
      · simpa only [rowAfter, hStage, decide_eq_true_eq] using hChange
      · simp only [resume, stageAfter, hStage, afterWrite, Answer.count]
        split <;> simp_all
      · simp only [Call.wrote, stageAfter, hStage, Stage.hasRenewed, Answer.count]
        split <;> simp_all
  | finished result => simp [request?, hStage] at hCall

/-- **How a lock is renewed.**  The call of a renewal succeeds if it finds a row of its
claimant. -/
theorem hasRenewed_cases {renewal : Renewal} {row? : Option LockRow} {call : Call}
    (hCall : renewal.request? = some (.call call))
    (h : (renewal.stageAfter row?).hasRenewed = true) :
    ∃ now row, renewal.stage = .writing now ∧ row? = some row ∧
      row.owner = renewal.claimant.identity ∧
      renewal.stageAfter row? = .finished (.ok true) ∧
      renewal.rowAfter row? = some (row.renewedAt now) := by
  cases hStage : renewal.stage with
  | writing now =>
      cases row? with
      | none => simp [stageAfter, hStage, Stage.hasRenewed] at h
      | some row =>
          have hOwner : row.owner = renewal.claimant.identity := by
            simpa [stageAfter, hStage, Stage.hasRenewed] using h
          exact ⟨now, row, rfl, rfl, hOwner, by simp [stageAfter, hStage, hOwner],
            by simp [rowAfter, hStage, hOwner]⟩
  | stamping => simp [request?, hStage] at hCall
  | finished result => simp [request?, hStage] at hCall

/-- A renewal that does not succeed leaves the row as it is. -/
theorem rowAfter_eq_self {renewal : Renewal} {row? : Option LockRow}
    (h : (renewal.stageAfter row?).hasRenewed = false) : renewal.rowAfter row? = row? := by
  unfold rowAfter
  split
  · next now hStage =>
    cases row? with
    | none => rfl
    | some row =>
        have hOwner : row.owner ≠ renewal.claimant.identity := by
          simpa [stageAfter, hStage, Stage.hasRenewed] using h
        simp [hOwner]
  · rfl

end Renewal
end Leasehold
