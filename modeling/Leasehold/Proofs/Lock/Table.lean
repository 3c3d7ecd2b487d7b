import Leasehold.Lock.Attempt
import Leasehold.Proofs.Data.OrderedMap
import Leasehold.Proofs.Data.Value
import Leasehold.Store.Memory

/-!
# Lock tables

The table that a memory store keeps for a lock space holds lock rows in their stored
form, each under its own name.  Seen so, a store is a map from lock names to rows, and
each call of an attempt or a renewal is an operation on the row of one name.

* `Memory.HoldsLocks`: every record of the table is the stored form of a row.
* `Memory.lockRow?`: the row of a name.
* `search_byName`, `count_byName`: what looking at the row of a name finds.
* `insert_toRecord_of_none`, `insert_toRecord_of_some`: the first row of a name.
* `update_of_holds`, `update_of_unmatched`: a write on the row of a name.
-/

namespace Leasehold

/-! ## Stored rows -/

namespace LockRow

@[simp]
theorem ofRecord_toRecord (row : LockRow) : ofRecord row.toRecord = .ok row := rfl

theorem get?_name (row : LockRow) :
    row.toRecord.get? Lock.nameColumn = some (.text row.name) := rfl

theorem get?_owner (row : LockRow) :
    row.toRecord.get? Lock.ownerColumn = some (.text row.owner) := rfl

theorem get?_version (row : LockRow) :
    row.toRecord.get? Lock.versionColumn = some (.int row.version) := rfl

/-- The row that a claimant leaves when it writes over one row at the version of
another. -/
def takenBy (row : LockRow) (claimant : Claimant) (version : Int) (now : Instant) : LockRow :=
  ⟨row.name, version + 1, claimant.identity, now⟩

/-- The row with a later write of its owner. -/
def renewedAt (row : LockRow) (now : Instant) : LockRow := { row with updateTime := now }

theorem merge_takeover (claimant : Claimant) (read row : LockRow) (now : Instant) :
    row.toRecord.merge (claimant.takeover read now)
      = (row.takenBy claimant read.version now).toRecord := rfl

theorem merge_refresh (row : LockRow) (now : Instant) :
    row.toRecord.merge (Claimant.refresh now) = (row.renewedAt now).toRecord := rfl

end LockRow

/-! ## Conditions on stored rows -/

namespace Claimant

theorem holds_byName (claimant : Claimant) (row : LockRow) :
    claimant.byName.holds row.toRecord = decide (row.name = claimant.name) := by
  rw [Bool.eq_iff_iff]
  simp [byName, Condition.holds, Condition.column, Condition.clauseHolds, LockRow.get?_name,
    Value.isNull]

theorem holds_byVersion (claimant : Claimant) (version : Int) (row : LockRow) :
    (claimant.byVersion version).holds row.toRecord
      = (decide (row.name = claimant.name) && decide (row.version = version)) := by
  rw [byVersion, Condition.holds_and, holds_byName, Bool.eq_iff_iff]
  simp [Condition.clauseHolds, LockRow.get?_version, Value.isNull]

theorem holds_byOwner (claimant : Claimant) (row : LockRow) :
    claimant.byOwner.holds row.toRecord
      = (decide (row.name = claimant.name) && decide (row.owner = claimant.identity)) := by
  rw [byOwner, Condition.holds_and, holds_byName, Bool.eq_iff_iff]
  simp [Condition.clauseHolds, LockRow.get?_owner, Value.isNull]

end Claimant

namespace Memory

@[simp]
theorem rows_withTable (memory : Memory) (space : Space) (table : Table) :
    (memory.withTable space table).rows space = table := by
  simp [rows, table?, withTable]

theorem rows_of_table? {memory : Memory} {space : Space} {table : Table}
    (h : memory.table? space = some table) : memory.rows space = table := by
  simp [rows, h]

/-- Another table is not touched. -/
theorem rows_withTable_of_ne (memory : Memory) {space other : Space} (table : Table)
    (h : other.fullName ≠ space.fullName) :
    (memory.withTable space table).rows other = memory.rows other := by
  rw [rows, table?, withTable, OrderedMap.get?_insert_of_ne _ _ h]
  rfl

/-- A table that is written back as it was is not touched either. -/
theorem rows_withTable_rows (memory : Memory) {space : Space} {table : Table}
    (h : memory.rows space = table) (other : Space) :
    (memory.withTable space table).rows other = memory.rows other := by
  by_cases hName : other.fullName = space.fullName
  · have hSame : ∀ memory : Memory, memory.rows other = memory.rows space := by
      intro memory
      rw [rows, table?, hName]
      rfl
    rw [hSame, hSame, rows_withTable, h]
  · exact rows_withTable_of_ne memory table hName

/-- An insertion changes its own table only. -/
theorem rows_insert_of_ne (memory : Memory) {space other : Space} (record : Record)
    (h : other.fullName ≠ space.fullName) :
    (memory.insert space record).2.rows other = memory.rows other := by
  unfold insert
  split
  · rfl
  · next key _ =>
    by_cases hTaken : (memory.rows space).contains key
    · simp [hTaken]
    · simpa [hTaken] using rows_withTable_of_ne memory _ h

/-- An update changes its own table only. -/
theorem rows_update_of_ne (memory : Memory) {space other : Space} (condition : Condition)
    (fields : Record) (h : other.fullName ≠ space.fullName) :
    (memory.update space condition fields).2.rows other = memory.rows other := by
  unfold update
  split
  · rfl
  · split
    · rfl
    · exact rows_withTable_of_ne memory _ h

/-! ## The rows of a lock table -/

/-- **A lock table.**  The table of a space is walked in key order, and each of its
records is the stored form of a row, kept under the name of that row. -/
structure HoldsLocks (memory : Memory) (space : Space) : Prop where
  sorted : (memory.rows space).Sorted
  stored : ∀ entry ∈ (memory.rows space).entries,
    ∃ row : LockRow, entry = (.text row.name, row.toRecord)

/-- A store that holds some locks in one table and nothing else. -/
def ofLocks (space : Space) (rows : List LockRow) : Memory :=
  empty.withTable space ⟨rows.map fun row => (.text row.name, row.toRecord)⟩

theorem holdsLocks_ofLocks {space : Space} {rows : List LockRow}
    (hSorted : (rows.map fun row => Value.text row.name).Pairwise
      fun a b => compare a b = .lt) : (ofLocks space rows).HoldsLocks space := by
  constructor
  · rw [ofLocks, rows_withTable, OrderedMap.Sorted, OrderedMap.keys, List.map_map]
    exact hSorted
  · intro entry hEntry
    rw [ofLocks, rows_withTable] at hEntry
    obtain ⟨row, -, rfl⟩ := List.mem_map.mp hEntry
    exact ⟨row, rfl⟩

/-- The row of a lock name. -/
def lockRow? (memory : Memory) (space : Space) (name : String) : Option LockRow :=
  ((memory.rows space).get? (.text name)).bind fun record => (LockRow.ofRecord record).toOption

theorem lockRow?_eq_of_rows_eq {memory other : Memory} {space : Space}
    (h : memory.rows space = other.rows space) (name : String) :
    memory.lockRow? space name = other.lockRow? space name := by
  rw [lockRow?, lockRow?, h]

theorem HoldsLocks.of_rows_eq {memory other : Memory} {space : Space}
    (hLocks : memory.HoldsLocks space) (h : other.rows space = memory.rows space) :
    other.HoldsLocks space := by
  constructor
  · rw [h]
    exact hLocks.sorted
  · rw [h]
    exact hLocks.stored

theorem rows_ensure (memory : Memory) (space other : Space) :
    (memory.ensure space).rows other = memory.rows other := by
  unfold ensure
  cases h : memory.table? space with
  | some table => rfl
  | none =>
      by_cases hName : other.fullName = space.fullName
      · have hOther : memory.tables.get? space.fullName = none := h
        simp [rows, table?, withTable, hName, hOther]
      · simp only [rows, table?, withTable]
        rw [OrderedMap.get?_insert_of_ne _ _ hName]

section

variable {memory : Memory} {space : Space} (hLocks : memory.HoldsLocks space)

include hLocks

theorem HoldsLocks.get?_eq (name : String) :
    (memory.rows space).get? (.text name)
      = (memory.lockRow? space name).map LockRow.toRecord := by
  unfold lockRow?
  cases h : (memory.rows space).get? (.text name) with
  | none => rfl
  | some record =>
      obtain ⟨row, hRow⟩ := hLocks.stored _ (OrderedMap.mem_of_get? h)
      have hRecord : record = row.toRecord := congrArg Prod.snd hRow
      simp [hRecord, Except.toOption]

theorem HoldsLocks.name_eq {name : String} {row : LockRow}
    (h : memory.lockRow? space name = some row) : row.name = name := by
  have hGet := hLocks.get?_eq name
  rw [h] at hGet
  obtain ⟨stored, hStored⟩ := hLocks.stored _ (OrderedMap.mem_of_get? hGet)
  obtain ⟨hKey, hRecord⟩ := Prod.mk.inj hStored
  have hRow : row = stored := by
    have hRead := congrArg LockRow.ofRecord hRecord
    simpa using hRead
  rw [hRow]
  exact (Value.text.inj hKey).symm

/-- Looking for the row of a name finds it, and nothing else. -/
theorem HoldsLocks.search_byName (claimant : Claimant) :
    memory.search space claimant.byName
      = ((memory.lockRow? space claimant.name).map LockRow.toRecord).toList := by
  rw [← hLocks.get?_eq]
  refine OrderedMap.values_filter_eq_toList hLocks.sorted (.text claimant.name) _ ?_
  intro entry hEntry
  obtain ⟨row, rfl⟩ := hLocks.stored entry hEntry
  simp [Claimant.holds_byName]

theorem HoldsLocks.count_byName (claimant : Claimant) :
    memory.count space claimant.byName
      = if (memory.lockRow? space claimant.name).isSome then 1 else 0 := by
  rw [count, hLocks.search_byName]
  cases memory.lockRow? space claimant.name <;> rfl

end

/-! ## Writes -/

section

variable {memory : Memory} {database table : String}

theorem admitInsert_toRecord (row : LockRow) :
    admitInsert (lockSpace database table) row.toRecord = .ok (.text row.name) := rfl

theorem admitUpdate_takeover (claimant : Claimant) (row : LockRow) (now : Instant) :
    admitUpdate (lockSpace database table) (claimant.takeover row now) = .ok () := rfl

theorem admitUpdate_refresh (now : Instant) :
    admitUpdate (lockSpace database table) (Claimant.refresh now) = .ok () := rfl

variable (hLocks : memory.HoldsLocks (lockSpace database table))

include hLocks

theorem HoldsLocks.withTable_insert (row : LockRow) :
    (memory.withTable (lockSpace database table)
      ((memory.rows (lockSpace database table)).insert (.text row.name) row.toRecord)).HoldsLocks
        (lockSpace database table) := by
  constructor
  · rw [rows_withTable]
    exact OrderedMap.sorted_insert hLocks.sorted _ _
  · rw [rows_withTable]
    intro entry hEntry
    rcases OrderedMap.mem_insert hEntry with rfl | hOld
    · exact ⟨row, rfl⟩
    · exact hLocks.stored entry hOld

/-- A first row is written if the name has none: it is then the row of its name, and the
rows of all other names stay. -/
theorem HoldsLocks.insert_toRecord_of_none (row : LockRow)
    (h : memory.lockRow? (lockSpace database table) row.name = none) :
    ∃ memory' : Memory,
      memory.insert (lockSpace database table) row.toRecord = (.ok 1, memory') ∧
      memory'.HoldsLocks (lockSpace database table) ∧
      ∀ name, memory'.lockRow? (lockSpace database table) name =
        if name = row.name then some row
        else memory.lockRow? (lockSpace database table) name := by
  have hFree : (memory.rows (lockSpace database table)).contains (.text row.name) = false := by
    rw [OrderedMap.contains_eq_false_iff, hLocks.get?_eq, h]
    rfl
  refine ⟨_, ?_, hLocks.withTable_insert row, ?_⟩
  · simp [insert, admitInsert_toRecord, hFree]
  · intro name
    simp only [lockRow?, rows_withTable]
    by_cases hName : name = row.name
    · subst hName
      simp [Except.toOption]
    · have hKey : Value.text name ≠ .text row.name := by simpa using hName
      rw [OrderedMap.get?_insert_of_ne _ _ hKey]
      simp [hName]

/-- A first row is not written over a row that is there. -/
theorem HoldsLocks.insert_toRecord_of_some (row : LockRow) {old : LockRow}
    (h : memory.lockRow? (lockSpace database table) row.name = some old) :
    memory.insert (lockSpace database table) row.toRecord = (.ok 0, memory) := by
  have hTaken : (memory.rows (lockSpace database table)).contains (.text row.name) = true := by
    rw [OrderedMap.contains, hLocks.get?_eq, h]
    rfl
  simp [insert, admitInsert_toRecord, hTaken]

/-- The table with the row of one name changed. -/
theorem HoldsLocks.withTable_modify {name : String} {old new : LockRow} (fields : Record)
    (hOld : memory.lockRow? (lockSpace database table) name = some old)
    (hName : new.name = name) (hMerge : old.toRecord.merge fields = new.toRecord) :
    let memory' := memory.withTable (lockSpace database table)
      ((memory.rows (lockSpace database table)).modify (.text name) fun row => row.merge fields)
    memory'.HoldsLocks (lockSpace database table) ∧
      ∀ other, memory'.lockRow? (lockSpace database table) other =
        if other = name then some new
        else memory.lockRow? (lockSpace database table) other := by
  intro memory'
  have hGet := hLocks.get?_eq name
  rw [hOld] at hGet
  refine ⟨⟨?_, ?_⟩, ?_⟩
  · rw [rows_withTable]
    exact OrderedMap.sorted_modify hLocks.sorted _ _
  · rw [rows_withTable]
    intro entry hEntry
    obtain ⟨⟨key, record⟩, hMem, rfl⟩ := List.mem_map.mp hEntry
    obtain ⟨row, hRow⟩ := hLocks.stored _ hMem
    obtain ⟨rfl, rfl⟩ := Prod.mk.inj hRow
    by_cases hKey : Value.text row.name = .text name
    · -- The changed entry is the one that was looked up.
      have hSame : (memory.rows (lockSpace database table)).get? (.text name)
          = some row.toRecord :=
        (OrderedMap.get?_eq_some_iff_mem hLocks.sorted _ _).mpr (hKey ▸ hMem)
      have hRecord : row.toRecord = old.toRecord := by
        rw [hSame] at hGet
        simpa using hGet
      refine ⟨new, ?_⟩
      simp only [hKey, if_true, hRecord, hMerge, hName]
    · exact ⟨row, by simp only [hKey, if_false]⟩
  · intro other
    simp only [memory', lockRow?, rows_withTable]
    by_cases hSame : other = name
    · subst hSame
      simp [OrderedMap.get?_modify_self, hGet, hMerge, Except.toOption]
    · have hKey : Value.text other ≠ .text name := by simpa using hSame
      simp [OrderedMap.get?_modify_of_ne _ _ hKey, hSame]

variable {condition : Condition} {name : String} {fields : Record}
  (hKey : condition.value? Lock.nameColumn = some (.text name))
  (hAdmit : admitUpdate (lockSpace database table) fields = .ok ())

include hKey hAdmit

/-- A write on the row of a name whose condition holds changes this row and no other. -/
theorem HoldsLocks.update_of_holds {old new : LockRow}
    (hOld : memory.lockRow? (lockSpace database table) name = some old)
    (hHolds : condition.holds old.toRecord = true)
    (hName : new.name = name) (hMerge : old.toRecord.merge fields = new.toRecord) :
    ∃ memory' : Memory,
      memory.update (lockSpace database table) condition fields = (.ok 1, memory') ∧
      memory'.HoldsLocks (lockSpace database table) ∧
      ∀ other, memory'.lockRow? (lockSpace database table) other =
        if other = name then some new
        else memory.lockRow? (lockSpace database table) other := by
  have hGet := hLocks.get?_eq name
  rw [hOld] at hGet
  cases hTable : memory.table? (lockSpace database table) with
  | none =>
      rw [rows, hTable] at hGet
      simp at hGet
  | some rows =>
      have hRows := rows_of_table? hTable
      refine ⟨_, ?_, hLocks.withTable_modify fields hOld hName hMerge⟩
      rw [hRows] at hGet ⊢
      have hSpaceKey : (lockSpace database table).key = Lock.nameColumn := rfl
      simp [update, hAdmit, hTable, hSpaceKey, hKey, updateTable, hGet, hHolds]

/-- A write on the row of a name changes nothing if the name has no row or the condition
fails on it. -/
theorem HoldsLocks.update_of_unmatched
    (hFails : ∀ old, memory.lockRow? (lockSpace database table) name = some old →
      condition.holds old.toRecord = false) :
    ∃ memory' : Memory,
      memory.update (lockSpace database table) condition fields = (.ok 0, memory') ∧
      memory'.rows (lockSpace database table) = memory.rows (lockSpace database table) := by
  have hGet := hLocks.get?_eq name
  have hSpaceKey : (lockSpace database table).key = Lock.nameColumn := rfl
  cases hTable : memory.table? (lockSpace database table) with
  | none => exact ⟨memory, by simp [update, hAdmit, hTable], rfl⟩
  | some rows =>
      have hRows := rows_of_table? hTable
      refine ⟨memory.withTable (lockSpace database table) rows, ?_, ?_⟩
      · rw [hRows] at hGet
        cases hRow : memory.lockRow? (lockSpace database table) name with
        | none =>
            rw [hRow] at hGet
            simp [update, hAdmit, hTable, hSpaceKey, hKey, updateTable, hGet]
        | some old =>
            rw [hRow] at hGet
            simp [update, hAdmit, hTable, hSpaceKey, hKey, updateTable, hGet, hFails old hRow]
      · rw [rows_withTable, hRows]

end

end Memory
end Leasehold
