import Leasehold.Proofs.Lock.Table
import Leasehold.Proofs.Store.Representation
import Leasehold.Proofs.Time.Timestamp
import Leasehold.Store.Backend
import Mathlib.Data.List.Nodup

/-!
# Lock tables in SQLite

A SQLite table with the columns of a lock space stores lock rows, in the order in which they
were inserted.  On such a table the affinity of its columns changes no value, comparisons are
those of the values themselves, and no statement on values that fit is refused but for a
name that is taken.  A table keeps a time as its text: this tells the same times apart.

* `Sqlite.lockTable`: the table of a lock space with some rows.
* `sameValue_time`: times are the same if their texts are.
* `holds_lockTable`: a condition holds of a row in the table if it holds of the record.
* `LockRow.written`: a row with fields written over it.
* `LockRow.exists_of_complete`: what an insertion may bring is the stored form of a row.
* `insertRow_lockTable`, `updateRows_lockTable`: what the two writing statements do.
* `readRow_project`: what a selection reads is what was stored.
-/

namespace Leasehold

open Sql

/-! ## Values that may be written -/

namespace Space

/-- A cell that may be written: its column exists and holds values of this kind. -/
def Holds (space : Space) (cell : String × Value) : Prop :=
  ∃ column, space.column? cell.1 = some column ∧ cell.2.kind? = some column.kind

/-- Fields that may be written into the rows of a space: none of them is the key, and none
is missing a value. -/
def Writable (space : Space) (fields : List (String × Value)) : Prop :=
  ∀ cell ∈ fields, cell.1 ≠ space.key ∧ space.Holds cell

/-- A condition that compares columns of a space with nothing or with values of their kinds. -/
def Compares (space : Space) (condition : Condition) : Prop :=
  ∀ clause ∈ condition.clauses, space.Fits clause

/-- A record that has a value for every column of a space. -/
def Complete (space : Space) (record : Record) : Prop :=
  ∀ column ∈ space.columns, ∃ value,
    record.get? column.name = some value ∧ value.kind? = some column.kind

/-- The columns of a lock space. -/
theorem column?_lockSpace {database table name : String} {column : Column}
    (h : (lockSpace database table).column? name = some column) :
    column.name = name ∧ (column = ⟨Lock.nameColumn, .text⟩ ∨
      column = ⟨Lock.versionColumn, .int⟩ ∨ column = ⟨Lock.ownerColumn, .text⟩ ∨
      column = ⟨Lock.timeColumn, .time⟩) := by
  have hMem : column ∈ (lockSpace database table).columns := List.mem_of_find?_eq_some h
  have hName : (column.name == name) = true :=
    List.find?_some (p := fun column : Column => column.name == name) h
  refine ⟨beq_iff_eq.mp hName, ?_⟩
  simpa [lockSpace, keyed, withColumn] using hMem

end Space

/-! ## Rows and their cells -/

namespace LockRow

/-- The entry of a row in a lock table. -/
def entry (row : LockRow) : Value × Record := (.text row.name, row.toRecord)

/-- A row with fields written over it. -/
def written (row : LockRow) (fields : Record) : LockRow :=
  ((ofRecord (row.toRecord.merge fields)).toOption).getD row

theorem insert_version (row : LockRow) (version : Int) :
    row.toRecord.insert Lock.versionColumn (.int version)
      = ({ row with version := version } : LockRow).toRecord := rfl

theorem insert_owner (row : LockRow) (owner : String) :
    row.toRecord.insert Lock.ownerColumn (.text owner)
      = ({ row with owner := owner } : LockRow).toRecord := rfl

theorem insert_updateTime (row : LockRow) (now : Instant) :
    row.toRecord.insert Lock.timeColumn (.time now)
      = ({ row with updateTime := now } : LockRow).toRecord := rfl

theorem toRecord_entries (row : LockRow) :
    row.toRecord.entries =
      [(Lock.nameColumn, .text row.name), (Lock.ownerColumn, .text row.owner),
        (Lock.timeColumn, .time row.updateTime), (Lock.versionColumn, .int row.version)] := rfl

/-- Every column of a row holds a value of its kind. -/
theorem exists_cell {database table : String} (row : LockRow) {name : String} {column : Column}
    (h : (lockSpace database table).column? name = some column) :
    ∃ value, row.toRecord.get? name = some value ∧ value.kind? = some column.kind := by
  obtain ⟨rfl, rfl | rfl | rfl | rfl⟩ := Space.column?_lockSpace h
  all_goals exact ⟨_, rfl, rfl⟩

/-- One cell written into a stored row leaves the stored form of a row of the same name. -/
theorem exists_insert {database table : String} (row : LockRow) {cell : String × Value}
    (hKey : cell.1 ≠ (lockSpace database table).key)
    (hCell : (lockSpace database table).Holds cell) :
    ∃ next : LockRow, next.name = row.name ∧
      next.toRecord = row.toRecord.insert cell.1 cell.2 := by
  obtain ⟨name, value⟩ := cell
  obtain ⟨column, hColumn, hKind⟩ := hCell
  obtain ⟨hName, hColumns⟩ := Space.column?_lockSpace hColumn
  simp only at hKey hKind hName
  subst hName
  rcases hColumns with rfl | rfl | rfl | rfl
  · exact absurd rfl hKey
  · obtain ⟨version, rfl⟩ := Value.exists_int hKind
    exact ⟨{ row with version := version }, rfl, (row.insert_version version).symm⟩
  · obtain ⟨owner, rfl⟩ := Value.exists_text hKind
    exact ⟨{ row with owner := owner }, rfl, (row.insert_owner owner).symm⟩
  · obtain ⟨now, rfl⟩ := Value.exists_time hKind
    exact ⟨{ row with updateTime := now }, rfl, (row.insert_updateTime now).symm⟩

theorem exists_merge {database table : String} (row : LockRow) {fields : List (String × Value)}
    (h : (lockSpace database table).Writable fields) :
    ∃ next : LockRow, next.name = row.name ∧ next.toRecord = row.toRecord.merge ⟨fields⟩ := by
  induction fields generalizing row with
  | nil => exact ⟨row, rfl, rfl⟩
  | cons cell rest ih =>
      obtain ⟨hKey, hCell⟩ := h cell List.mem_cons_self
      obtain ⟨next, hName, hRecord⟩ := exists_insert row hKey hCell
      obtain ⟨last, hLastName, hLast⟩ :=
        ih next fun later hLater => h later (List.mem_cons_of_mem _ hLater)
      refine ⟨last, hLastName.trans hName, ?_⟩
      rw [hLast, hRecord, OrderedMap.merge_cons]

theorem written_spec {database table : String} (row : LockRow) {fields : Record}
    (h : (lockSpace database table).Writable fields.entries) :
    (row.written fields).name = row.name ∧
      (row.written fields).toRecord = row.toRecord.merge fields := by
  obtain ⟨next, hName, hRecord⟩ := exists_merge row h
  have hWritten : row.written fields = next := by
    unfold written
    rw [← show next.toRecord = row.toRecord.merge fields from hRecord, ofRecord_toRecord]
    rfl
  rw [hWritten]
  exact ⟨hName, hRecord⟩

/-- **A complete row.**  A record that has a value for every column and passes its check is
the stored form of a row. -/
theorem exists_of_complete {database table : String} {record : Record} (hSorted : record.Sorted)
    (hCheck : (lockSpace database table).check record = .ok ())
    (hComplete : (lockSpace database table).Complete record) :
    ∃ row : LockRow, record = row.toRecord := by
  have hColumns : (lockSpace database table).columns =
      [⟨Lock.nameColumn, .text⟩, ⟨Lock.versionColumn, .int⟩, ⟨Lock.ownerColumn, .text⟩,
        ⟨Lock.timeColumn, .time⟩] := rfl
  obtain ⟨_, hName, hNameKind⟩ := hComplete ⟨Lock.nameColumn, .text⟩ (by simp [hColumns])
  obtain ⟨_, hVersion, hVersionKind⟩ := hComplete ⟨Lock.versionColumn, .int⟩ (by simp [hColumns])
  obtain ⟨_, hOwner, hOwnerKind⟩ := hComplete ⟨Lock.ownerColumn, .text⟩ (by simp [hColumns])
  obtain ⟨_, hTime, hTimeKind⟩ := hComplete ⟨Lock.timeColumn, .time⟩ (by simp [hColumns])
  obtain ⟨name, rfl⟩ := Value.exists_text hNameKind
  obtain ⟨version, rfl⟩ := Value.exists_int hVersionKind
  obtain ⟨owner, rfl⟩ := Value.exists_text hOwnerKind
  obtain ⟨now, rfl⟩ := Value.exists_time hTimeKind
  refine ⟨⟨name, version, owner, now⟩, OrderedMap.ext_of_get? hSorted
    (OrderedMap.sorted_ofList _) fun key => ?_⟩
  cases hKey : record.get? key with
  | some value =>
      -- A key of the record is a column, and each column has been read.
      obtain ⟨column, hColumn, -⟩ :=
        (Space.check_eq_ok_iff _ _).mp hCheck _ (OrderedMap.mem_of_get? hKey)
      obtain ⟨rfl, rfl | rfl | rfl | rfl⟩ := Space.column?_lockSpace hColumn
      · exact hKey.symm.trans hName
      · exact hKey.symm.trans hVersion
      · exact hKey.symm.trans hOwner
      · exact hKey.symm.trans hTime
  | none =>
      have hOther : ∀ {column : String} {value : Value}, record.get? column = some value →
          column ≠ key := by
        rintro column value hColumn rfl
        rw [hKey] at hColumn
        cases hColumn
      simp [OrderedMap.get?, toRecord_entries, OrderedMap.lookup, hOther hName, hOther hVersion,
        hOther hOwner, hOther hTime]

end LockRow

/-! ## The table of a lock space -/

namespace Sqlite

theorem sameName_eq_decide (a b : String) :
    sameName a b = decide (a.toList.map Char.toLower = b.toList.map Char.toLower) := by
  unfold sameName String.toLower
  rw [Bool.eq_iff_iff, beq_iff_eq, decide_eq_true_eq, ← String.toList_inj, String.toList_map,
    String.toList_map]

@[simp]
theorem sameName_self (name : String) : sameName name name = true := by
  simp [sameName]

/-- The columns of a lock table. -/
def lockColumns : List ColumnDefinition :=
  [⟨Lock.nameColumn, .text, true⟩, ⟨Lock.versionColumn, .int, false⟩,
    ⟨Lock.ownerColumn, .text, false⟩, ⟨Lock.timeColumn, .time, false⟩]

/-- A lock table with some rows, in the order of their insertion. -/
def lockTable (table : String) (rows : List LockRow) : Table :=
  ⟨table, lockColumns, rows.map LockRow.toRecord⟩

/-- The database that has one lock table. -/
def Database.ofLocks (table : String) (rows : List LockRow) : Database := ⟨[lockTable table rows]⟩

@[simp]
theorem table?_ofLocks (table : String) (rows : List LockRow) :
    (Database.ofLocks table rows).table? table = some (lockTable table rows) := by
  simp [Database.table?, Database.ofLocks, lockTable]

@[simp]
theorem withTable_ofLocks (table : String) (rows next : List LockRow) :
    (Database.ofLocks table rows).withTable (lockTable table next) = .ofLocks table next := by
  simp [Database.withTable, Database.ofLocks, lockTable]

section

variable {database table : String} (rows : List LockRow)

@[simp]
theorem column?_name : (lockTable table rows).column? Lock.nameColumn
    = some ⟨Lock.nameColumn, .text, true⟩ := by
  unfold Table.column?
  simp only [sameName_eq_decide]
  rfl

@[simp]
theorem column?_version : (lockTable table rows).column? Lock.versionColumn
    = some ⟨Lock.versionColumn, .int, false⟩ := by
  unfold Table.column?
  simp only [sameName_eq_decide]
  rfl

@[simp]
theorem column?_owner : (lockTable table rows).column? Lock.ownerColumn
    = some ⟨Lock.ownerColumn, .text, false⟩ := by
  unfold Table.column?
  simp only [sameName_eq_decide]
  rfl

@[simp]
theorem column?_time : (lockTable table rows).column? Lock.timeColumn
    = some ⟨Lock.timeColumn, .time, false⟩ := by
  unfold Table.column?
  simp only [sameName_eq_decide]
  rfl

/-- The columns of the table are those of the space. -/
theorem column?_lockTable {name : String} {column : Column}
    (h : (lockSpace database table).column? name = some column) :
    ∃ isKey, (lockTable table rows).column? name = some ⟨name, column.kind, isKey⟩ := by
  obtain ⟨rfl, rfl | rfl | rfl | rfl⟩ := Space.column?_lockSpace h
  · exact ⟨_, column?_name rows⟩
  · exact ⟨_, column?_version rows⟩
  · exact ⟨_, column?_owner rows⟩
  · exact ⟨_, column?_time rows⟩

/-! ## Comparisons -/

/-- A value of a column's own kind is taken as it is. -/
theorem coerce_of_kind? {kind : Kind} {value : Value} (h : value.kind? = some kind) :
    coerce kind value = value := by
  cases value <;> cases h <;> rfl

theorem coerce_null (kind : Kind) : coerce kind .null = .null := by
  cases kind <;> rfl

/-- Values of one kind are the same if they are equal. -/
theorem sameValue_of_kind? {a b : Value} {kind : Kind} (ha : a.kind? = some kind)
    (hb : b.kind? = some kind) : sameValue a b = decide (a = b) := by
  cases a <;> cases b <;> cases ha <;> cases hb <;> simp [sameValue, Bool.beq_eq_decide_eq]

theorem sameValue_null (value : Value) : sameValue value .null = false := by
  cases value <;> rfl

/-- **Times are compared by their texts**: two readings are the same value if a table keeps the
same text for both. -/
theorem sameValue_time {a b : Instant} (ha : a.isValid = true) (hb : b.isValid = true) :
    sameValue (.time a) (.time b)
      = sameValue (.text (a.toText .numeric)) (.text (b.toText .numeric)) := by
  rw [sameValue, sameValue, Bool.eq_iff_iff, beq_iff_eq, beq_iff_eq]
  exact (Instant.toText_inj ha hb .numeric).symm

theorem clauseHolds_lockTable (row : LockRow) {clause : String × Value}
    (h : (lockSpace database table).Fits clause) :
    clauseHolds (lockTable table rows) row.toRecord clause
      = Condition.clauseHolds row.toRecord clause := by
  obtain ⟨column, hColumn, hValue⟩ := h
  obtain ⟨isKey, hTable⟩ := column?_lockTable rows hColumn
  obtain ⟨value, hCell, hKind⟩ := LockRow.exists_cell row hColumn
  simp only [clauseHolds, hTable, hCell, Option.getD_some, Condition.clauseHolds]
  rcases hValue with hNull | hSome
  · rw [hNull, coerce_null, sameValue_null]
    rfl
  · have hPresent : clause.2.isNull = false := by
      rw [Bool.eq_false_iff, Ne, Value.isNull_iff]
      intro hNull
      simp [hNull, Value.kind?] at hSome
    rw [coerce_of_kind? hSome, sameValue_of_kind? hKind hSome, hPresent]
    simp [Bool.beq_eq_decide_eq]

/-- **Comparisons agree.**  A condition that fits the columns holds of a row in the table if
it holds of the record. -/
theorem holds_lockTable (row : LockRow) {condition : Condition}
    (h : (lockSpace database table).Compares condition) :
    holds (lockTable table rows) condition row.toRecord = condition.holds row.toRecord := by
  unfold holds Condition.holds
  rw [Bool.eq_iff_iff, List.all_eq_true, List.all_eq_true]
  refine forall₂_congr fun clause hClause => ?_
  rw [clauseHolds_lockTable rows row (h clause hClause)]

theorem filter_holds_lockTable {condition : Condition}
    (h : (lockSpace database table).Compares condition) :
    (lockTable table rows).rows.filter (holds (lockTable table rows) condition)
      = (rows.filter fun row => condition.holds row.toRecord).map LockRow.toRecord := by
  have hFilter := List.filter_map (f := LockRow.toRecord)
    (p := holds (lockTable table rows) condition) (l := rows)
  refine hFilter.trans (congrArg _ (List.filter_congr fun row _ => ?_))
  exact holds_lockTable rows row h

/-! ## Writes -/

/-- Fields that fit are written as a merge writes them. -/
theorem assign_lockTable (row : Record) {fields : List (String × Value)}
    (h : ∀ cell ∈ fields, (lockSpace database table).Holds cell) :
    assign (lockTable table rows) row fields = row.merge ⟨fields⟩ := by
  induction fields generalizing row with
  | nil => rfl
  | cons cell rest ih =>
      obtain ⟨column, hColumn, hKind⟩ := h cell List.mem_cons_self
      obtain ⟨isKey, hTable⟩ := column?_lockTable rows hColumn
      have hRest := ih (row.insert cell.1 cell.2) fun later hLater =>
        h later (List.mem_cons_of_mem _ hLater)
      rw [OrderedMap.merge_cons, ← hRest]
      simp only [assign, List.foldl_cons, hTable, coerce_of_kind? hKind]

theorem foreignColumn?_lockTable {fields : List (String × Value)}
    (h : ∀ cell ∈ fields, (lockSpace database table).Holds cell) :
    foreignColumn? (lockTable table rows) fields = none := by
  have hNone : fields.find? (fun cell => ((lockTable table rows).column? cell.1).isNone)
      = none := by
    rw [List.find?_eq_none]
    intro cell hCell
    obtain ⟨column, hColumn, -⟩ := h cell hCell
    obtain ⟨isKey, hTable⟩ := column?_lockTable rows hColumn
    simp [hTable]
  rw [foreignColumn?, hNone]
  rfl

theorem unfilled?_lockTable (row : LockRow) :
    unfilled? (lockTable table rows) row.toRecord = none := rfl

/-- A row collides with another one of its name. -/
theorem collision?_lockTable (row : LockRow) (others : List LockRow) :
    collision? (lockTable table rows) row.toRecord (others.map LockRow.toRecord)
      = if row.name ∈ others.map LockRow.name then some Lock.nameColumn else none := by
  have hAny : ((others.map LockRow.toRecord).any fun other =>
      sameValue ((other.get? Lock.nameColumn).getD .null)
        ((row.toRecord.get? Lock.nameColumn).getD .null))
      = decide (row.name ∈ others.map LockRow.name) := by
    rw [Bool.eq_iff_iff, decide_eq_true_eq, List.any_map, List.any_eq_true, List.mem_map]
    simp [LockRow.get?_name, sameValue]
  simp only [collision?, lockTable, lockColumns, List.find?_cons, Bool.true_and, Bool.false_and,
    hAny, List.find?_nil]
  by_cases h : row.name ∈ others.map LockRow.name <;> simp [h]

theorem holds_toRecord (row : LockRow) :
    ∀ cell ∈ row.toRecord.entries, (lockSpace database table).Holds cell := by
  intro cell hCell
  simp only [LockRow.toRecord_entries, List.mem_cons, List.not_mem_nil, or_false] at hCell
  rcases hCell with rfl | rfl | rfl | rfl
  all_goals exact ⟨_, rfl, rfl⟩

/-- An insertion appends a row, unless its name is taken. -/
theorem insertRow_lockTable (row : LockRow) :
    insertRow (.ofLocks table rows) table row.toRecord.entries
      = if row.name ∈ rows.map LockRow.name then
          (takenKey (lockTable table rows) Lock.nameColumn, .ofLocks table rows)
        else (.affected 1, .ofLocks table (rows ++ [row])) := by
  have hHolds : ∀ cell ∈ row.toRecord.entries, (lockSpace table table).Holds cell :=
    holds_toRecord row
  have hAssign : assign (lockTable table rows) ∅ row.toRecord.entries = row.toRecord :=
    assign_lockTable rows ∅ hHolds
  have hCollision : collision? (lockTable table rows) row.toRecord (lockTable table rows).rows
      = if row.name ∈ rows.map LockRow.name then some Lock.nameColumn else none :=
    collision?_lockTable rows row rows
  have hSome : row.toRecord.entries.isEmpty = false := rfl
  have hAppend : ({ lockTable table rows with
      rows := (lockTable table rows).rows ++ [row.toRecord] } : Table)
        = lockTable table (rows ++ [row]) := by
    simp [lockTable]
  simp only [insertRow, hSome, Bool.false_eq_true, if_false, table?_ofLocks,
    foreignColumn?_lockTable rows hHolds, hAssign, unfilled?_lockTable, hCollision, hAppend,
    withTable_ofLocks]
  by_cases h : row.name ∈ rows.map LockRow.name <;> simp [h]

end

end Sqlite

/-- A row after an update. -/
def LockRow.updated (condition : Condition) (fields : Record) (row : LockRow) : LockRow :=
  if condition.holds row.toRecord then row.written fields else row

namespace LockRow

variable {database table : String} {condition : Condition} {fields : Record}

theorem name_updated (hFields : (lockSpace database table).Writable fields.entries)
    (row : LockRow) : (row.updated condition fields).name = row.name := by
  unfold updated
  split
  · exact (row.written_spec hFields).1
  · rfl

theorem toRecord_updated (hFields : (lockSpace database table).Writable fields.entries)
    (row : LockRow) :
    (row.updated condition fields).toRecord =
      if condition.holds row.toRecord then row.toRecord.merge fields else row.toRecord := by
  unfold updated
  split
  · exact (row.written_spec hFields).2
  · rfl

end LockRow

namespace Sqlite

section

variable {database table : String} (rows : List LockRow) {condition : Condition}
  {fields : Record}
  (hCondition : (lockSpace database table).Compares condition)
  (hFields : (lockSpace database table).Writable fields.entries)

include hCondition hFields

/-- The walk over the rows.  An update changes no name, so that no row comes to collide with
the rows before it or behind it. -/
theorem updateRows_lockTable (before after : List LockRow)
    (hNames : ((before ++ after).map LockRow.name).Nodup) :
    updateRows (lockTable table rows) fields.entries condition (before.map LockRow.toRecord)
        (after.map LockRow.toRecord)
      = .ok ((after.filter fun row => condition.holds row.toRecord).length,
          (before ++ after.map (LockRow.updated condition fields)).map LockRow.toRecord) := by
  induction after generalizing before with
  | nil => simp [updateRows]
  | cons row rest ih =>
      -- The rows behind are walked with this one before them.
      have hRest := ih (before ++ [row.updated condition fields]) (by
        simpa [LockRow.name_updated hFields] using hNames)
      simp only [List.map_append, List.map_cons, List.map_nil, List.append_assoc,
        List.singleton_append] at hRest
      simp only [List.map_cons, updateRows, holds_lockTable rows row hCondition]
      by_cases hHolds : condition.holds row.toRecord = true
      · have hWritten : assign (lockTable table rows) row.toRecord fields.entries
            = (row.written fields).toRecord :=
          (assign_lockTable rows row.toRecord fun cell hCell => (hFields cell hCell).2).trans
            (row.written_spec hFields).2.symm
        have hFree : collision? (lockTable table rows) (row.written fields).toRecord
            (before.map LockRow.toRecord ++ rest.map LockRow.toRecord) = none := by
          rw [← List.map_append, collision?_lockTable, (row.written_spec hFields).1, if_neg]
          have hMiddle : (row.name :: (before.map LockRow.name ++ rest.map LockRow.name)).Nodup :=
            List.nodup_middle.mp (by simpa using hNames)
          simpa using (List.nodup_cons.mp hMiddle).1
        have hUpdated : row.updated condition fields = row.written fields := by
          simp [LockRow.updated, hHolds]
        rw [hUpdated] at hRest
        simp only [hHolds, if_true, hWritten, unfilled?_lockTable, hFree, hRest]
        simp [hHolds, hUpdated]
      · have hUpdated : row.updated condition fields = row := by
          simp [LockRow.updated, hHolds]
        rw [hUpdated] at hRest
        simp only [hHolds, if_false, Bool.false_eq_true, hRest]
        simp [hHolds, hUpdated]

/-- An update changes the rows that satisfy its condition and counts them. -/
theorem update_lockTable (hNames : (rows.map LockRow.name).Nodup) :
    update (.ofLocks table rows) table fields.entries condition
      = (.affected (rows.filter fun row => condition.holds row.toRecord).length,
          .ofLocks table (rows.map (LockRow.updated condition fields))) := by
  have hWalk : updateRows (lockTable table rows) fields.entries condition []
      (lockTable table rows).rows
      = .ok ((rows.filter fun row => condition.holds row.toRecord).length,
          (rows.map (LockRow.updated condition fields)).map LockRow.toRecord) :=
    updateRows_lockTable rows hCondition hFields [] rows hNames
  simp only [update, table?_ofLocks,
    foreignColumn?_lockTable rows fun cell hCell => (hFields cell hCell).2, hWalk]
  exact congrArg _ (withTable_ofLocks table rows _)

end

/-! ## Reads -/

/-- What is selected is read back as it was stored. -/
theorem readRow_project {database table : String} (rows : List LockRow) (row : LockRow) :
    Session.readRow (lockSpace database table)
        (project (lockTable table rows) ((lockSpace database table).columns.map Column.name)
          row.toRecord) = row.toRecord := by
  have hColumns : (lockSpace database table).columns.map Column.name =
      [Lock.nameColumn, Lock.versionColumn, Lock.ownerColumn, Lock.timeColumn] := rfl
  rw [hColumns]
  simp only [project, List.map_cons, List.map_nil, column?_name, column?_version, column?_owner,
    column?_time]
  rfl

end Sqlite
end Leasehold
