import Leasehold.Proofs.Sql.LockTable
import Mathlib.Data.List.Pairwise

/-!
# One lock table in two stores

A memory store keeps lock rows in the order of their names and looks a row up by its name; a
SQLite database keeps them in the order of their insertion and searches through all of them.
On calls whose values fit the columns, both give the same answers: what one of them finds, the
other finds in another order, and a search is read in the order of names.

* `Call.WellFormed`: a call on a space whose values fit its columns.
* `SameLocks`: a memory store and a database hold the same lock rows.
* `SameLocks.perform`: a call is answered alike, and the rows stay the same.
* `RecordStore.performAll`: a run of calls on a store of either kind.
* `SameLocks.performAll`: a run of calls is answered alike.
-/

namespace Leasehold

open Sql

/-! ## Calls -/

/-- **Calls that fit.**  A call on a space compares columns with values of their kinds, inserts
complete records and updates some columns other than the key.  Nothing that is written is
missing.  A record may have columns that the space does not have; it is then refused. -/
inductive Call.WellFormed (space : Space) : Call → Prop where
  | health : WellFormed space .health
  | ensure : WellFormed space (.ensure space)
  | count {condition : Condition} (h : space.Compares condition) :
      WellFormed space (.count space condition)
  | search {condition : Condition} (h : space.Compares condition) :
      WellFormed space (.search space condition)
  | insert {record : Record} (hSorted : record.Sorted) (h : space.Complete record) :
      WellFormed space (.insert space record)
  | update {condition : Condition} {fields : Record} (hCondition : space.Compares condition)
      (hSome : fields.entries ≠ []) (hFields : space.Writable fields.entries) :
      WellFormed space (.update space condition fields)

/-- An answer with the records in the order of their keys. -/
def Space.inKeyOrder (space : Space) : Reply → Reply
  | .ok (.records records) => .ok (.records (space.listed records))
  | reply => reply

theorem Space.Writable.admitUpdate {space : Space} {fields : Record}
    (h : space.Writable fields.entries) : Memory.admitUpdate space fields = .ok () := by
  rw [Memory.admitUpdate_eq_ok_iff]
  constructor
  · intro cell hCell
    obtain ⟨-, column, hColumn, hKind⟩ := h cell hCell
    exact ⟨column, hColumn, Or.inr hKind⟩
  · rw [OrderedMap.contains_eq_false_iff, Option.eq_none_iff_forall_ne_some]
    intro value hValue
    exact (h _ (OrderedMap.mem_of_get? hValue)).1 rfl

namespace Sqlite

/-- A call that needs one statement is answered by the result of this statement. -/
theorem perform_of_plan {call : Call} {statement : Statement} (sqlite : Database)
    (h : (Session.ofDialect .sqlite).plan call = .ok [statement]) :
    Sqlite.perform sqlite call
      = (Session.conclude call (run sqlite statement).1, (run sqlite statement).2) := by
  simp only [Sqlite.perform, serve, h, send, List.isEmpty_nil, Bool.or_true, if_true]

/-- A call that is refused before any statement changes nothing. -/
theorem perform_of_refused {call : Call} {error : StoreError} (sqlite : Database)
    (h : (Session.ofDialect .sqlite).plan call = .error error) :
    Sqlite.perform sqlite call = (.error error, sqlite) := by
  simp only [Sqlite.perform, serve, h]

end Sqlite

/-! ## The order of keys -/

/-- Records in the order of their keys are found again from any order, if no key is
repeated. -/
theorem Space.listed_eq_of_perm {space : Space} {found listed : List Record}
    (hPerm : found.Perm listed)
    (hLess : listed.Pairwise fun a b =>
      compare ((a.get? space.key).getD .null) ((b.get? space.key).getD .null) = .lt) :
    space.listed found = listed := by
  have hFound : (space.listed found).Perm listed := (List.mergeSort_perm _ _).trans hPerm
  -- Two records of the list with one key are the same record.
  have hInjective : ∀ a ∈ listed, ∀ b ∈ listed,
      (a.get? space.key).getD .null = (b.get? space.key).getD .null → a = b := by
    let Same (a b : Record) : Prop :=
      (a.get? space.key).getD .null = (b.get? space.key).getD .null → a = b
    have hSymm : Std.Symm Same := ⟨fun _ _ hSame hKeys => (hSame hKeys.symm).symm⟩
    refine List.Pairwise.forall_of_forall (R := Same) (fun _ _ _ => rfl) (hLess.imp ?_)
    intro a b hCompare hKeys
    rw [hKeys, Std.ReflOrd.compare_self] at hCompare
    cases hCompare
  refine List.Perm.eq_of_pairwise ?_ (List.pairwise_mergeSort ?_ ?_ found)
    (hLess.imp fun hCompare => by rw [hCompare]; rfl) hFound
  · intro a b ha hb hab hba
    exact hInjective a (hFound.mem_iff.mp ha) b hb
      (Std.LawfulEqOrd.eq_of_compare (Std.OrientedCmp.isLE_antisymm hab hba))
  · exact fun a b c => Std.TransOrd.isLE_trans
  · intro a b
    have hSwap : compare ((a.get? space.key).getD .null) ((b.get? space.key).getD .null)
        = (compare ((b.get? space.key).getD .null) ((a.get? space.key).getD .null)).swap :=
      Std.OrientedCmp.eq_swap
    rw [hSwap]
    cases compare ((b.get? space.key).getD .null) ((a.get? space.key).getD .null) <;> rfl

/-! ## The same rows -/

/-- **One table in two stores.**  A memory store and a database hold the same lock rows; the
database has them in the order in which they came. -/
structure SameLocks (database table : String) (memory : Memory) (sqlite : Sqlite.Database)
    (rows : List LockRow) : Prop where
  sorted : (memory.rows (lockSpace database table)).Sorted
  perm : (rows.map LockRow.entry).Perm (memory.rows (lockSpace database table)).entries
  sqlite_eq : sqlite = .ofLocks table rows

namespace SameLocks

variable {database table : String} {memory : Memory} {sqlite : Sqlite.Database}
  {rows : List LockRow} (h : SameLocks database table memory sqlite rows)

include h

theorem of_rows_eq {memory' : Memory}
    (hRows : memory'.rows (lockSpace database table) = memory.rows (lockSpace database table)) :
    SameLocks database table memory' sqlite rows :=
  ⟨by rw [hRows]; exact h.sorted, by rw [hRows]; exact h.perm, h.sqlite_eq⟩

theorem conforms : memory.Conforms (lockSpace database table) := by
  refine ⟨h.sorted, fun entry hEntry => ?_⟩
  obtain ⟨row, -, rfl⟩ := List.mem_map.mp (h.perm.mem_iff.mpr hEntry)
  exact ⟨⟨row.name, rfl⟩, rfl, (Space.check_eq_ok_iff _ _).mp rfl⟩

theorem nodup_names : (rows.map LockRow.name).Nodup := by
  have hKeys : ((rows.map LockRow.entry).map Prod.fst).Nodup :=
    (h.perm.map Prod.fst).nodup_iff.mpr (OrderedMap.nodup_keys h.sorted)
  rw [List.map_map] at hKeys
  refine List.Nodup.of_map Value.text ?_
  rw [List.map_map]
  exact hKeys

/-- The records that a search finds, in the order of insertion. -/
theorem search_perm (condition : Condition) :
    ((rows.filter fun row => condition.holds row.toRecord).map LockRow.toRecord).Perm
      (memory.search (lockSpace database table) condition) := by
  have hRecords : (rows.map LockRow.toRecord).Perm
      (memory.rows (lockSpace database table)).values := by
    have hValues := h.perm.map Prod.snd
    rwa [List.map_map] at hValues
  have hFound := hRecords.filter condition.holds
  rw [List.filter_map] at hFound
  exact hFound

theorem count_eq (condition : Condition) :
    (rows.filter fun row => condition.holds row.toRecord).length
      = memory.count (lockSpace database table) condition := by
  rw [Memory.count, ← (h.search_perm condition).length_eq, List.length_map]

/-- A search in the order of keys is the search of the memory store. -/
theorem listed_search (condition : Condition) :
    (lockSpace database table).listed
        ((rows.filter fun row => condition.holds row.toRecord).map LockRow.toRecord)
      = memory.search (lockSpace database table) condition := by
  refine Space.listed_eq_of_perm (h.search_perm condition) ?_
  refine (h.conforms.search_increasing condition).imp ?_
  rintro a b ⟨first, second, hFirst, hSecond, hLess⟩
  rw [hFirst, hSecond]
  exact compareOfLessAndEq_eq_lt.mpr hLess

theorem contains_name (name : String) :
    (memory.rows (lockSpace database table)).contains (.text name)
      = decide (name ∈ rows.map LockRow.name) := by
  rw [Bool.eq_iff_iff, decide_eq_true_eq, OrderedMap.contains, Option.isSome_iff_exists]
  constructor
  · rintro ⟨record, hRecord⟩
    obtain ⟨row, hRow, hEntry⟩ :=
      List.mem_map.mp (h.perm.mem_iff.mpr (OrderedMap.mem_of_get? hRecord))
    exact List.mem_map.mpr ⟨row, hRow, Value.text.inj (congrArg Prod.fst hEntry)⟩
  · intro hName
    obtain ⟨row, hRow, rfl⟩ := List.mem_map.mp hName
    exact ⟨row.toRecord, (OrderedMap.get?_eq_some_iff_mem h.sorted _ _).mpr
      (h.perm.mem_iff.mp (List.mem_map_of_mem hRow))⟩

/-! ## Calls one by one -/

theorem ensure :
    SameLocks database table (memory.ensure (lockSpace database table))
        (Sqlite.perform sqlite (.ensure (lockSpace database table))).2 rows ∧
      (Sqlite.perform sqlite (.ensure (lockSpace database table))).1 = .ok .done := by
  have hPlan : (Session.ofDialect .sqlite).plan (.ensure (lockSpace database table))
      = .ok [.createTable ⟨none, table⟩ Sqlite.lockColumns] := rfl
  have hRun : Sqlite.run sqlite (.createTable ⟨none, table⟩ Sqlite.lockColumns)
      = (.affected 0, sqlite) := by
    simp only [h.sqlite_eq, Sqlite.run, Sqlite.createTable, Sqlite.table?_ofLocks]
  rw [Sqlite.perform_of_plan sqlite hPlan, hRun]
  exact ⟨h.of_rows_eq (Memory.rows_ensure memory _ _), rfl⟩

theorem count {condition : Condition}
    (hCondition : (lockSpace database table).Compares condition) :
    Sqlite.perform sqlite (.count (lockSpace database table) condition)
      = (.ok (.number (memory.count (lockSpace database table) condition)), sqlite) := by
  have hPlan : (Session.ofDialect .sqlite).plan (.count (lockSpace database table) condition)
      = .ok [.count ⟨none, table⟩ condition] := rfl
  have hRun : Sqlite.run sqlite (.count ⟨none, table⟩ condition)
      = (.rows [.ofList [(countColumn, .int (memory.count (lockSpace database table) condition))]],
          sqlite) := by
    simp only [h.sqlite_eq, Sqlite.run, Sqlite.table?_ofLocks,
      Sqlite.filter_holds_lockTable rows hCondition, List.length_map, h.count_eq]
  rw [Sqlite.perform_of_plan sqlite hPlan, hRun]
  rfl

theorem search {condition : Condition}
    (hCondition : (lockSpace database table).Compares condition) :
    Sqlite.perform sqlite (.search (lockSpace database table) condition)
      = (.ok (.records
            ((rows.filter fun row => condition.holds row.toRecord).map LockRow.toRecord)),
          sqlite) := by
  have hPlan : (Session.ofDialect .sqlite).plan (.search (lockSpace database table) condition)
      = .ok [.select ⟨none, table⟩ ((lockSpace database table).columns.map Column.name)
          condition] := rfl
  have hRead : ∀ found : List LockRow,
      ((found.map LockRow.toRecord).map (Sqlite.project (Sqlite.lockTable table rows)
          ((lockSpace database table).columns.map Column.name))).map
        (Session.readRow (lockSpace database table)) = found.map LockRow.toRecord := by
    intro found
    rw [List.map_map, List.map_map]
    refine List.map_congr_left fun row _ => ?_
    simp only [Function.comp_apply, Sqlite.readRow_project]
  rw [Sqlite.perform_of_plan sqlite hPlan, h.sqlite_eq]
  simp only [Sqlite.run, Sqlite.table?_ofLocks, Sqlite.filter_holds_lockTable rows hCondition,
    Session.conclude, hRead]

/-- A record that is refused changes neither store; the stored form of a row is appended in
the one and put in its place in the other, unless its name is taken. -/
theorem insert {record : Record} (hSorted : record.Sorted)
    (hComplete : (lockSpace database table).Complete record) :
    ∃ rows', SameLocks database table
        (memory.insert (lockSpace database table) record).2
        (Sqlite.perform sqlite (.insert (lockSpace database table) record)).2 rows' ∧
      (Sqlite.perform sqlite (.insert (lockSpace database table) record)).1
        = (memory.insert (lockSpace database table) record).1.map .number := by
  cases hCheck : (lockSpace database table).check record with
  | error error =>
      have hPlan : (Session.ofDialect .sqlite).plan (.insert (lockSpace database table) record)
          = .error (.schema error) := by
        simp only [Session.plan, hCheck]
      have hMemory : memory.insert (lockSpace database table) record
          = (.error (.schema error), memory) := by
        simp only [Memory.insert, Memory.admitInsert, hCheck]
      rw [Sqlite.perform_of_refused sqlite hPlan, hMemory]
      exact ⟨rows, h, rfl⟩
  | ok _ =>
      obtain ⟨row, rfl⟩ := LockRow.exists_of_complete hSorted hCheck hComplete
      have hPlan : (Session.ofDialect .sqlite).plan
          (.insert (lockSpace database table) row.toRecord)
            = .ok [.insert ⟨none, table⟩ row.toRecord.entries] := rfl
      rw [Sqlite.perform_of_plan sqlite hPlan, h.sqlite_eq]
      simp only [Sqlite.run, Sqlite.insertRow_lockTable, Memory.insert,
        Memory.admitInsert_toRecord, h.contains_name]
      by_cases hTaken : row.name ∈ rows.map LockRow.name
      · simp only [hTaken, if_true, decide_true]
        exact ⟨rows, ⟨h.sorted, h.perm, rfl⟩, rfl⟩
      · simp only [hTaken, if_false, decide_false, Bool.false_eq_true]
        have hFree : (memory.rows (lockSpace database table)).contains (.text row.name)
            = false := by
          simp [h.contains_name, hTaken]
        refine ⟨rows ++ [row], ⟨?_, ?_, rfl⟩, rfl⟩
        · rw [Memory.rows_withTable]
          exact OrderedMap.sorted_insert h.sorted _ _
        · rw [Memory.rows_withTable, List.map_append]
          refine List.perm_append_comm.trans ?_
          exact (h.perm.cons row.entry).trans (OrderedMap.insert_perm _ hFree).symm

theorem update {condition : Condition} {fields : Record}
    (hCondition : (lockSpace database table).Compares condition) (hSome : fields.entries ≠ [])
    (hFields : (lockSpace database table).Writable fields.entries) :
    ∃ rows', SameLocks database table
        (memory.update (lockSpace database table) condition fields).2
        (Sqlite.perform sqlite (.update (lockSpace database table) condition fields)).2 rows' ∧
      (Sqlite.perform sqlite (.update (lockSpace database table) condition fields)).1
        = (memory.update (lockSpace database table) condition fields).1.map .number := by
  have hAdmit := hFields.admitUpdate
  have hCheck : (lockSpace database table).check fields = .ok () :=
    (Space.check_eq_ok_iff _ _).mpr
      ((Memory.admitUpdate_eq_ok_iff (lockSpace database table) fields).mp hAdmit).1
  have hNotEmpty : fields.isEmpty = false := by simpa [OrderedMap.isEmpty] using hSome
  have hPlan : (Session.ofDialect .sqlite).plan
      (.update (lockSpace database table) condition fields)
        = .ok [.update ⟨none, table⟩ fields.entries condition] := by
    simp only [Session.plan, hCheck, hNotEmpty]
    rfl
  obtain ⟨memory', hMemory, hRows⟩ := h.conforms.update_eq hAdmit condition
  rw [Sqlite.perform_of_plan sqlite hPlan, h.sqlite_eq, hMemory]
  simp only [Sqlite.run, Sqlite.update_lockTable rows hCondition hFields h.nodup_names, h.count_eq]
  refine ⟨rows.map (LockRow.updated condition fields), ⟨?_, ?_, rfl⟩, rfl⟩
  · rw [hRows]
    exact OrderedMap.sorted_mapWhere h.sorted _ _
  · -- Both updates are one map over the rows, and a map keeps a permutation.
    have hMap := h.perm.map fun entry : Value × Record =>
      (entry.1, if condition.holds entry.2 then entry.2.merge fields else entry.2)
    rw [hRows]
    refine List.Perm.trans (List.Perm.of_eq ?_) hMap
    rw [List.map_map, List.map_map]
    refine List.map_congr_left fun row _ => ?_
    simp only [Function.comp_apply, LockRow.entry, LockRow.name_updated hFields,
      LockRow.toRecord_updated hFields]
    rfl

/-- **A call in two stores.**  It is answered alike, and the stores hold the same rows
afterwards. -/
theorem perform {call : Call} (hCall : call.WellFormed (lockSpace database table)) :
    ∃ rows', SameLocks database table (memory.perform call).2 (Sqlite.perform sqlite call).2 rows' ∧
      (lockSpace database table).inKeyOrder (Sqlite.perform sqlite call).1
        = (memory.perform call).1 := by
  cases hCall with
  | health => exact ⟨rows, h, rfl⟩
  | ensure =>
      obtain ⟨hSame, hReply⟩ := h.ensure
      refine ⟨rows, hSame, ?_⟩
      rw [hReply]
      rfl
  | count hCondition =>
      rw [h.count hCondition]
      exact ⟨rows, h, rfl⟩
  | @search condition hCondition =>
      rw [h.search hCondition]
      refine ⟨rows, h, ?_⟩
      simp only [Space.inKeyOrder, h.listed_search, Memory.perform]
  | insert hSorted hComplete =>
      obtain ⟨rows', hSame, hReply⟩ := h.insert hSorted hComplete
      refine ⟨rows', hSame, ?_⟩
      rw [hReply]
      simp only [Memory.perform]
      cases (memory.insert _ _).1 <;> rfl
  | update hCondition hSome hFields =>
      obtain ⟨rows', hSame, hReply⟩ := h.update hCondition hSome hFields
      refine ⟨rows', hSame, ?_⟩
      rw [hReply]
      simp only [Memory.perform]
      cases (memory.update _ _ _).1 <;> rfl

end SameLocks

/-! ## Runs of calls -/

/-- A run of calls on a store of either kind. -/
def RecordStore.performAll (store : RecordStore) : List Call → List Reply × RecordStore
  | [] => ([], store)
  | call :: rest =>
    let (reply, store) := store.perform call
    let (replies, store) := store.performAll rest
    (reply :: replies, store)

namespace SameLocks

variable {database table : String}

theorem performAll {memory : Memory} {sqlite : Sqlite.Database} {rows : List LockRow}
    (h : SameLocks database table memory sqlite rows) {calls : List Call}
    (hCalls : ∀ call ∈ calls, call.WellFormed (lockSpace database table)) :
    ∃ memory' sqlite' rows', SameLocks database table memory' sqlite' rows' ∧
      ((RecordStore.memory memory).performAll calls).2 = .memory memory' ∧
      ((RecordStore.sqlite sqlite).performAll calls).2 = .sqlite sqlite' ∧
      ((RecordStore.sqlite sqlite).performAll calls).1.map (lockSpace database table).inKeyOrder
        = ((RecordStore.memory memory).performAll calls).1 := by
  induction calls generalizing memory sqlite rows with
  | nil => exact ⟨memory, sqlite, rows, h, rfl, rfl, rfl⟩
  | cons call rest ih =>
      obtain ⟨rows₁, hSame, hReply⟩ := h.perform (hCalls call List.mem_cons_self)
      obtain ⟨memory', sqlite', rows', hLast, hMemory, hSqlite, hReplies⟩ :=
        ih hSame fun later hLater => hCalls later (List.mem_cons_of_mem _ hLater)
      refine ⟨memory', sqlite', rows', hLast, hMemory, hSqlite, ?_⟩
      exact congrArg₂ List.cons hReply hReplies

/-- The two stores after their table was created. -/
theorem of_ensure (database table : String) :
    ∃ memory sqlite, SameLocks database table memory sqlite [] ∧
      (RecordStore.memory .empty).perform (.ensure (lockSpace database table))
        = (.ok .done, .memory memory) ∧
      (RecordStore.sqlite .empty).perform (.ensure (lockSpace database table))
        = (.ok .done, .sqlite sqlite) := by
  have hRows : (Memory.empty.ensure (lockSpace database table)).rows (lockSpace database table)
      = ∅ := by
    rw [Memory.rows_ensure]
    rfl
  have hPlan : (Session.ofDialect .sqlite).plan (.ensure (lockSpace database table))
      = .ok [.createTable ⟨none, table⟩ Sqlite.lockColumns] := rfl
  have hDistinct : Sqlite.repeatedColumn? [] Sqlite.lockColumns = none := by
    simp only [Sqlite.lockColumns, Sqlite.repeatedColumn?, Sqlite.sameName_eq_decide]
    decide
  have hRun : Sqlite.run .empty (.createTable ⟨none, table⟩ Sqlite.lockColumns)
      = (.affected 0, .ofLocks table []) := by
    simp only [Sqlite.run, Sqlite.createTable, hDistinct]
    rfl
  refine ⟨_, .ofLocks table [], ⟨?_, ?_, rfl⟩, rfl, ?_⟩
  · rw [hRows]
    exact OrderedMap.sorted_empty
  · rw [hRows]
    exact List.Perm.refl _
  · simp only [RecordStore.perform, Sqlite.perform_of_plan _ hPlan, hRun]
    rfl

end SameLocks
end Leasehold
