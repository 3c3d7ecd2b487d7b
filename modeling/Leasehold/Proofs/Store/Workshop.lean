import Leasehold.Proofs.Lock.Contest
import Leasehold.Proofs.Store.Agreement

/-!
# Errands on either store

Attempts, renewals and lookups ask for few things: the row of a name, and writes on it.  Those
calls fit the columns of a lock table, and a search among them finds one row at most, so that
a memory store and a SQLite database give the same answers to them in the same order.  An
errand is told the same by both, and ends in the same way.

* `Claimant.Asks`: the calls of errands; `Errand.asks_of_request?` shows that there are no others.
* `Workshop`: a store of either kind and the errands that work on it; `run?_ofContest` shows
  that on a memory store its runs are those of a contest.
* `Workshop.Alike`: two workshops with the same errands, on stores with the same rows.
* `Workshop.Alike.step`, `Workshop.Alike.run`: an event and a run have the same outcomes.
* `Workshop.stores_agree`: the two stores side by side, from empty.
-/

namespace Leasehold

/-! ## What errands ask for -/

/-- **The calls of errands.** -/
inductive Claimant.Asks (claimant : Claimant) : Call → Prop where
  | count : Asks claimant (.count claimant.space claimant.byName)
  | search : Asks claimant (.search claimant.space claimant.byName)
  | first (now : Instant) : Asks claimant
      (.insert claimant.space (LockRow.first claimant.name claimant.identity now).toRecord)
  | takeover (row : LockRow) (now : Instant) : Asks claimant
      (.update claimant.space (claimant.byVersion row.version) (claimant.takeover row now))
  | refresh (now : Instant) : Asks claimant
      (.update claimant.space claimant.byOwner (Claimant.refresh now))

theorem Errand.asks_of_request? {errand : Errand} {call : Call}
    (h : errand.request? = some (.call call)) : errand.claimant.Asks call := by
  cases errand with
  | attempt a =>
      obtain ⟨claimant, lease, stage⟩ := a
      cases stage <;> simp only [Errand.request?, Attempt.request?, Option.some.injEq,
        Request.call.injEq, reduceCtorEq] at h
      case counting => exact h ▸ .count
      case inserting now => exact h ▸ .first now
      case searching => exact h ▸ .search
      case replacing row now => exact h ▸ .takeover row now
  | renewal r =>
      obtain ⟨claimant, stage⟩ := r
      cases stage <;> simp only [Errand.request?, Renewal.request?, Option.some.injEq,
        Request.call.injEq, reduceCtorEq] at h
      case writing now => exact h ▸ .refresh now
  | lookup l =>
      obtain ⟨claimant, result⟩ := l
      cases result <;> simp only [Errand.request?, Lookup.request?, Option.some.injEq,
        Request.call.injEq, reduceCtorEq] at h
      case none => exact h ▸ .search

/-- The answer to a write is a number. -/
theorem Memory.map_number_ne_records (result : Except StoreError Nat) (records : List Record) :
    result.map Answer.number ≠ .ok (.records records) := by
  cases result <;> simp [Except.map]

namespace Claimant

variable {database table : String} {claimant : Claimant}

theorem Asks.wellFormed (hSpace : claimant.space = lockSpace database table) {call : Call}
    (h : claimant.Asks call) : call.WellFormed (lockSpace database table) := by
  have hName : (lockSpace database table).Fits (Lock.nameColumn, .text claimant.name) :=
    ⟨_, rfl, Or.inr rfl⟩
  have hVersion : Lock.versionColumn ≠ Lock.nameColumn := by decide
  have hOwner : Lock.ownerColumn ≠ Lock.nameColumn := by decide
  have hTime : Lock.timeColumn ≠ Lock.nameColumn := by decide
  cases h with
  | count =>
      rw [hSpace]
      exact .count (List.forall_mem_singleton.mpr hName)
  | search =>
      rw [hSpace]
      exact .search (List.forall_mem_singleton.mpr hName)
  | first now =>
      rw [hSpace]
      refine .insert (OrderedMap.sorted_ofList _) fun column hColumn => ?_
      simp only [lockSpace, Space.keyed, Space.withColumn, List.cons_append, List.nil_append,
        List.mem_cons, List.not_mem_nil, or_false] at hColumn
      rcases hColumn with rfl | rfl | rfl | rfl <;> exact ⟨_, rfl, rfl⟩
  | takeover row now =>
      rw [hSpace]
      refine .update (List.forall_mem_cons.mpr ⟨hName, List.forall_mem_singleton.mpr ?_⟩) ?_ ?_
      · exact ⟨_, rfl, Or.inr rfl⟩
      · exact List.cons_ne_nil _ _
      · exact List.forall_mem_cons.mpr ⟨⟨hOwner, _, rfl, rfl⟩,
          List.forall_mem_cons.mpr ⟨⟨hTime, _, rfl, rfl⟩,
            List.forall_mem_singleton.mpr ⟨hVersion, _, rfl, rfl⟩⟩⟩
  | refresh now =>
      rw [hSpace]
      refine .update (List.forall_mem_cons.mpr ⟨hName, List.forall_mem_singleton.mpr ?_⟩) ?_ ?_
      · exact ⟨_, rfl, Or.inr rfl⟩
      · exact List.cons_ne_nil _ _
      · exact List.forall_mem_singleton.mpr ⟨hTime, _, rfl, rfl⟩

/-- A search for the row of a name finds one row at most, so its answer is read in one
order only. -/
theorem Asks.length_le_one {memory : Memory} (hMemory : memory.Conforms claimant.space)
    (hSpace : claimant.space = lockSpace database table) {call : Call} (h : claimant.Asks call)
    {records : List Record} (hReply : (memory.perform call).1 = .ok (.records records)) :
    records.length ≤ 1 := by
  cases h with
  | count => cases hReply
  | search =>
      obtain rfl : memory.search claimant.space claimant.byName = records := by
        simpa only [Memory.perform, Except.ok.injEq, Answer.records.injEq] using hReply
      have hKey : claimant.byName = .column claimant.space.key (.text claimant.name) := by
        rw [hSpace]
        rfl
      rw [hKey]
      exact hMemory.count_column_le_one _
  | first now => exact (Memory.map_number_ne_records _ records hReply).elim
  | takeover row now => exact (Memory.map_number_ne_records _ records hReply).elim
  | refresh now => exact (Memory.map_number_ne_records _ records hReply).elim

end Claimant

/-- One record is in the order of keys by itself. -/
theorem Space.eq_of_inKeyOrder_eq {space : Space} {reply other : Reply}
    (h : space.inKeyOrder reply = other)
    (hShort : ∀ records, other = .ok (.records records) → records.length ≤ 1) : reply = other := by
  unfold inKeyOrder at h
  split at h
  · next found =>
    have hPerm : (space.listed found).Perm found := List.mergeSort_perm _ _
    have hListed := hShort _ h.symm
    have hSame : found = space.listed found := by
      cases hFound : space.listed found with
      | nil => exact List.nil_perm.mp (hFound ▸ hPerm)
      | cons first rest =>
          rw [hFound] at hListed hPerm
          obtain rfl : rest = [] := List.length_eq_zero_iff.mp (by simpa using hListed)
          exact (List.singleton_perm.mp hPerm).symm
    rwa [← hSame] at h
  · exact h

/-- **An errand is told the same.**  What errands ask for is answered by both stores with
the same reply. -/
theorem SameLocks.perform_asked {database table : String} {memory : Memory}
    {sqlite : Sqlite.Database} {rows : List LockRow}
    (h : SameLocks database table memory sqlite rows) {claimant : Claimant}
    (hSpace : claimant.space = lockSpace database table) {call : Call}
    (hAsks : claimant.Asks call) :
    (∃ rows', SameLocks database table (memory.perform call).2
      (Sqlite.perform sqlite call).2 rows') ∧
      (Sqlite.perform sqlite call).1 = (memory.perform call).1 := by
  obtain ⟨rows', hSame, hReply⟩ := h.perform (hAsks.wellFormed hSpace)
  exact ⟨⟨rows', hSame⟩, Space.eq_of_inKeyOrder_eq hReply fun records hRecords =>
    hAsks.length_le_one (hSpace ▸ h.conforms) hSpace hRecords⟩

/-! ## Errands on a store -/

/-- A store of either kind, and the errands that work on one of its lock tables. -/
structure Workshop where
  space : Space
  store : RecordStore
  errands : List Errand
  deriving Repr

namespace Workshop

/-- A store before the first errand begins. -/
def around (space : Space) (store : RecordStore) : Workshop := ⟨space, store, []⟩

/-- An errand with the request that it waits for. -/
def pending? (workshop : Workshop) (id : Nat) : Option (Errand × Request) :=
  workshop.errands[id]?.bind fun errand => errand.request?.map fun request => (errand, request)

theorem pending?_eq_some {workshop : Workshop} {id : Nat} {errand : Errand} {request : Request}
    (h : workshop.pending? id = some (errand, request)) :
    workshop.errands[id]? = some errand ∧ errand.request? = some request := by
  obtain ⟨found, hFound, hRequest⟩ := Option.bind_eq_some_iff.mp h
  obtain ⟨asked, hAsked, hPair⟩ := Option.map_eq_some_iff.mp hRequest
  obtain ⟨rfl, rfl⟩ := Prod.mk.inj hPair
  exact ⟨hFound, hAsked⟩

/-- The workshop with one errand moved on. -/
def withErrand (workshop : Workshop) (id : Nat) (errand : Errand) : Workshop :=
  { workshop with errands := workshop.errands.set id errand }

/-- One event of a contest, on a store of either kind; `none` if it cannot happen. -/
def step? (workshop : Workshop) : Contest.Event → Option Workshop
  | .start identity name task =>
    some { workshop with
      errands := workshop.errands ++ [task.start ⟨workshop.space, identity, name⟩] }
  | .tell id now =>
    match workshop.pending? id with
    | some (errand, .time) => some (workshop.withErrand id (errand.resume (.time now)))
    | _ => none
  | .serve id =>
    match workshop.pending? id with
    | some (errand, .call call) =>
      let (reply, store) := workshop.store.perform call
      some { workshop.withErrand id (errand.resume (.reply reply)) with store := store }
    | _ => none
  | .fail id error =>
    match workshop.pending? id with
    | some (errand, .call _) =>
      some (workshop.withErrand id (errand.resume (.reply (.error error))))
    | _ => none

/-- A run of events. -/
def run? (workshop : Workshop) (events : List Contest.Event) : Option Workshop :=
  runs? step? workshop events

/-- A contest is a workshop on a memory store. -/
def ofContest (contest : Contest) : Workshop :=
  ⟨contest.space, .memory contest.memory, contest.errands⟩

theorem step?_ofContest (contest : Contest) (event : Contest.Event) :
    (ofContest contest).step? event = (contest.step? event).map ofContest := by
  cases event with
  | start identity name task => rfl
  | tell id _ | serve id | fail id _ =>
      have hPending : (ofContest contest).pending? id = contest.pending? id := rfl
      simp only [step?, Contest.step?, hPending]
      rcases contest.pending? id with _ | ⟨errand, _ | _⟩ <;> rfl

/-- Every run of a contest is a run of the workshop, and there are no others. -/
theorem run?_ofContest (contest : Contest) (events : List Contest.Event) :
    (ofContest contest).run? events = (contest.run? events).map ofContest := by
  induction events generalizing contest with
  | nil => rfl
  | cons event rest ih =>
      simp only [run?, Contest.run?, runs?, step?_ofContest] at ih ⊢
      cases contest.step? event with
      | none => rfl
      | some next => exact ih next

/-- **Two workshops alike.**  The same errands work in both, in one on a memory store and in
the other on a database, and the two stores hold the same lock rows. -/
structure Alike (database table : String) (onMemory onSqlite : Workshop) : Prop where
  stores : ∃ memory sqlite rows, onMemory.store = .memory memory ∧
    onSqlite.store = .sqlite sqlite ∧ SameLocks database table memory sqlite rows
  spaces : onMemory.space = lockSpace database table ∧ onSqlite.space = lockSpace database table
  errands : onSqlite.errands = onMemory.errands
  claimants : ∀ errand ∈ onMemory.errands, errand.claimant.space = lockSpace database table

namespace Alike

variable {database table : String} {onMemory onSqlite : Workshop}
  (h : Alike database table onMemory onSqlite)

include h

theorem pending?_eq (id : Nat) : onSqlite.pending? id = onMemory.pending? id := by
  unfold pending?
  rw [h.errands]

theorem claimant_space {id : Nat} {errand : Errand} {request : Request}
    (hPending : onMemory.pending? id = some (errand, request)) :
    errand.claimant.space = lockSpace database table :=
  h.claimants errand (List.mem_of_getElem? (pending?_eq_some hPending).1)

/-- An errand is moved on in both. -/
theorem withErrand {id : Nat} {errand : Errand}
    (hSpace : errand.claimant.space = lockSpace database table) :
    Alike database table (onMemory.withErrand id errand) (onSqlite.withErrand id errand) := by
  refine ⟨h.stores, h.spaces, ?_, fun other hOther => ?_⟩
  · exact congrArg (fun errands => errands.set id errand) h.errands
  · rcases List.mem_or_eq_of_mem_set hOther with hOld | rfl
    · exact h.claimants other hOld
    · exact hSpace

/-- An event is possible in both or in neither, and leaves them alike. -/
theorem step (event : Contest.Event) :
    Option.Rel (Alike database table) (onMemory.step? event) (onSqlite.step? event) := by
  cases event with
  | start identity name task =>
      refine .some ⟨h.stores, h.spaces, ?_, fun errand hErrand => ?_⟩
      · rw [h.errands, h.spaces.1, h.spaces.2]
      · rcases List.mem_append.mp hErrand with hOld | hNew
        · exact h.claimants errand hOld
        · obtain rfl := List.mem_singleton.mp hNew
          rw [h.spaces.1]
          cases task <;> rfl
  | tell id now =>
      simp only [step?, h.pending?_eq]
      split
      · next errand hPending =>
        refine .some (h.withErrand ?_)
        rw [Contest.claimant_resume]
        exact h.claimant_space hPending
      · exact .none
  | serve id =>
      simp only [step?, h.pending?_eq]
      split
      · next errand call hPending =>
        obtain ⟨memory, sqlite, rows, hMemory, hSqlite, hRows⟩ := h.stores
        have hSpace := h.claimant_space hPending
        have hAsks := Errand.asks_of_request? (pending?_eq_some hPending).2
        obtain ⟨⟨rows', hNext⟩, hReply⟩ := hRows.perform_asked hSpace hAsks
        simp only [hMemory, hSqlite, RecordStore.perform, hReply]
        have hMoved : Alike database table
            (onMemory.withErrand id (errand.resume (.reply (memory.perform call).1)))
            (onSqlite.withErrand id (errand.resume (.reply (memory.perform call).1))) := by
          refine h.withErrand ?_
          rw [Contest.claimant_resume]
          exact hSpace
        exact .some ⟨⟨_, _, rows', rfl, rfl, hNext⟩, h.spaces, hMoved.errands, hMoved.claimants⟩
      · exact .none
  | fail id error =>
      simp only [step?, h.pending?_eq]
      split
      · next errand call hPending =>
        refine .some (h.withErrand ?_)
        rw [Contest.claimant_resume]
        exact h.claimant_space hPending
      · exact .none

/-- **A run on either store.** -/
theorem run (events : List Contest.Event) :
    Option.Rel (Alike database table) (onMemory.run? events) (onSqlite.run? events) := by
  induction events generalizing onMemory onSqlite with
  | nil => exact .some h
  | cons event rest ih =>
      have hStep := h.step event
      simp only [run?, runs?]
      cases hFirst : onMemory.step? event with
      | none =>
          cases hSecond : onSqlite.step? event with
          | none => exact .none
          | some next => rw [hFirst, hSecond] at hStep; cases hStep
      | some first =>
          cases hSecond : onSqlite.step? event with
          | none => rw [hFirst, hSecond] at hStep; cases hStep
          | some second =>
              rw [hFirst, hSecond] at hStep
              cases hStep with
              | some hNext => exact ih hNext

end Alike

theorem errands_eq_of_rel {database table : String} {onMemory? onSqlite? : Option Workshop}
    (h : Option.Rel (Alike database table) onMemory? onSqlite?) :
    onSqlite?.map errands = onMemory?.map errands := by
  cases h with
  | some hAlike => exact congrArg some hAlike.errands
  | none => rfl

/-- **Both stores are the same to their users.**  A run of calls that fit, from empty stores
and with the creation of the table first, is answered alike, the rows of a search in the order
of their keys; and any errands that work on the two stores afterwards, in any order of their
steps, get on alike. -/
theorem stores_agree {database table : String} {calls : List Call}
    (hCalls : ∀ call ∈ calls, call.WellFormed (lockSpace database table)) :
    let space := lockSpace database table
    let onMemory := (RecordStore.memory .empty).performAll (.ensure space :: calls)
    let onSqlite := (RecordStore.sqlite .empty).performAll (.ensure space :: calls)
    onSqlite.1.map space.inKeyOrder = onMemory.1 ∧
      ∀ events,
        ((around space onSqlite.2).run? events).map errands
          = ((around space onMemory.2).run? events).map errands := by
  intro space onMemory onSqlite
  obtain ⟨memory, sqlite, hEmpty, hMemory, hSqlite⟩ := SameLocks.of_ensure database table
  obtain ⟨memory', sqlite', rows, hRows, hMemoryLast, hSqliteLast, hReplies⟩ :=
    hEmpty.performAll hCalls
  have hOnMemory : onMemory = (.ok .done :: ((RecordStore.memory memory).performAll calls).1,
      .memory memory') := by
    simp only [onMemory, space, RecordStore.performAll, hMemory, hMemoryLast]
  have hOnSqlite : onSqlite = (.ok .done :: ((RecordStore.sqlite sqlite).performAll calls).1,
      .sqlite sqlite') := by
    simp only [onSqlite, space, RecordStore.performAll, hSqlite, hSqliteLast]
  rw [hOnMemory, hOnSqlite]
  refine ⟨congrArg (List.cons _) hReplies, fun events => ?_⟩
  have hAlike : Alike database table (around space (.memory memory'))
      (around space (.sqlite sqlite')) :=
    ⟨⟨_, _, rows, rfl, rfl, hRows⟩, ⟨rfl, rfl⟩, rfl, fun _ hErrand => nomatch hErrand⟩
  exact errands_eq_of_rel (hAlike.run events)

/-- A lock that is inserted, inserted again by another node, taken over by it at its version and
looked for: the database answers as the memory store does. -/
theorem stores_agree_taken_over :
    let row := LockRow.first "a" "n1" ⟨0, 0⟩
    let other : Claimant := ⟨standardLockSpace, "n2", "a"⟩
    let calls : List Call :=
      [.insert standardLockSpace row.toRecord,
        .insert standardLockSpace (LockRow.first "a" "n2" ⟨1, 0⟩).toRecord,
        .update standardLockSpace (other.byVersion 0) (other.takeover row ⟨9, 0⟩),
        .count standardLockSpace (.column Lock.ownerColumn .null),
        .search standardLockSpace .always]
    (∀ call ∈ calls, call.WellFormed standardLockSpace) ∧
      ((RecordStore.sqlite .empty).performAll (.ensure standardLockSpace :: calls)).1.map
          standardLockSpace.inKeyOrder
        = [.ok .done, .ok (.number 1), .ok (.number 0), .ok (.number 1), .ok (.number 0),
            .ok (.records [(⟨"a", 1, "n2", ⟨9, 0⟩⟩ : LockRow).toRecord])] := by
  intro row other calls
  have hOwner : standardLockSpace.Fits (Lock.ownerColumn, .null) := ⟨_, rfl, Or.inl rfl⟩
  have hAsks : ∀ (claimant : Claimant) {call : Call}, claimant.space = standardLockSpace →
      claimant.Asks call → call.WellFormed standardLockSpace :=
    fun _ _ hSpace hAsks => hAsks.wellFormed hSpace
  have hCalls : ∀ call ∈ calls, call.WellFormed standardLockSpace := by
    intro call hCall
    simp only [calls, List.mem_cons, List.not_mem_nil, or_false] at hCall
    rcases hCall with rfl | rfl | rfl | rfl | rfl
    · exact hAsks ⟨standardLockSpace, "n1", "a"⟩ rfl (.first ⟨0, 0⟩)
    · exact hAsks other rfl (.first ⟨1, 0⟩)
    · exact hAsks other rfl (.takeover row ⟨9, 0⟩)
    · exact .count (List.forall_mem_singleton.mpr hOwner)
    · exact .search (fun _ hClause => nomatch hClause)
  exact ⟨hCalls, (stores_agree hCalls).1.trans (by decide)⟩

end Workshop
end Leasehold
