import Leasehold.Log.Entry
import Leasehold.Store.Call

/-!
# The memory store

Tables live in memory, under their full names.  A table maps the values of its key
column to its rows, so that a condition on the key is looked up and not searched
for; the whole condition is checked either way.

* `Memory`: the tables.
* `Memory.count`, `search`, `insert`, `update`, `ensure`: the calls one by one.
* `Memory.perform`: any call.
* `Memory.remark?`: what a call leaves in the log.
-/

namespace Leasehold

/-- A table: its rows by the value of the key column. -/
abbrev Table := OrderedMap Value Record

/-- The tables of a memory store by their full names. -/
structure Memory where
  tables : OrderedMap String Table
  deriving Repr, DecidableEq

namespace Memory

/-- The store without tables. -/
def empty : Memory := ⟨∅⟩

instance : Inhabited Memory := ⟨empty⟩

/-- The table of a space, if it was created. -/
def table? (memory : Memory) (space : Space) : Option Table :=
  memory.tables.get? space.fullName

/-- The rows of a space; a table that was not created has none. -/
def rows (memory : Memory) (space : Space) : Table :=
  (memory.table? space).getD ∅

/-- The store with another table for a space. -/
def withTable (memory : Memory) (space : Space) (table : Table) : Memory :=
  ⟨memory.tables.insert space.fullName table⟩

/-- Creates the table of a space unless it is there. -/
def ensure (memory : Memory) (space : Space) : Memory :=
  match memory.table? space with
  | some _ => memory
  | none => memory.withTable space ∅

/-- The rows that satisfy a condition, in key order. -/
def search (memory : Memory) (space : Space) (condition : Condition) : List Record :=
  (memory.rows space).values.filter condition.holds

/-- Number of rows that satisfy a condition. -/
def count (memory : Memory) (space : Space) (condition : Condition) : Nat :=
  (memory.search space condition).length

/-- The key under which a record is stored. -/
def keyOf? (space : Space) (record : Record) : Except StoreError Value :=
  match record.get? space.key with
  | some key => if key.isNull then .error (.keyMissing space.fullName space.key) else .ok key
  | none => .error (.keyMissing space.fullName space.key)

/-- Whether an insertion is allowed, and its key. -/
def admitInsert (space : Space) (record : Record) : Except StoreError Value :=
  match space.check record with
  | .error e => .error (.schema e)
  | .ok () => keyOf? space record

/-- Inserts a record; a row with the same key stays as it is. -/
def insert (memory : Memory) (space : Space) (record : Record) :
    Except StoreError Nat × Memory :=
  match admitInsert space record with
  | .error e => (.error e, memory)
  | .ok key =>
    let table := memory.rows space
    -- The row that is there wins; nothing of the new one is kept.
    if table.contains key then (.ok 0, memory)
    else (.ok 1, memory.withTable space (table.insert key record))

/-- Whether an update is allowed. -/
def admitUpdate (space : Space) (fields : Record) : Except StoreError Unit :=
  match space.check fields with
  | .error e => .error (.schema e)
  | .ok () =>
    if fields.contains space.key then .error (.keyUpdated space.fullName space.key) else .ok ()

/-- Updates a table: the row looked up if the condition names a key, every row that
satisfies the condition otherwise. -/
def updateTable (table : Table) (key? : Option Value) (condition : Condition)
    (fields : Record) : Nat × Table :=
  match key? with
  | some key =>
    match table.get? key with
    | some row =>
      if condition.holds row then (1, table.modify key fun row => row.merge fields)
      else (0, table)
    | none => (0, table)
  | none =>
    ((table.values.filter condition.holds).length,
      table.mapWhere condition.holds fun row => row.merge fields)

/-- Writes fields over the rows that satisfy a condition. -/
def update (memory : Memory) (space : Space) (condition : Condition) (fields : Record) :
    Except StoreError Nat × Memory :=
  match admitUpdate space fields with
  | .error e => (.error e, memory)
  | .ok () =>
    match memory.table? space with
    -- An update creates no table.
    | none => (.ok 0, memory)
    | some table =>
      let (affected, table) := updateTable table (condition.value? space.key) condition fields
      (.ok affected, memory.withTable space table)

/-- Answers a call. -/
def perform (memory : Memory) : Call → Reply × Memory
  | .mode => (.ok (.mode .memory), memory)
  | .health => (.ok .done, memory)
  | .ensure space => (.ok .done, memory.ensure space)
  | .count space condition => (.ok (.number (memory.count space condition)), memory)
  | .search space condition => (.ok (.records (memory.search space condition)), memory)
  | .insert space record =>
    let (result, memory) := memory.insert space record
    (result.map .number, memory)
  | .update space condition fields =>
    let (result, memory) := memory.update space condition fields
    (result.map .number, memory)

/-- A run of calls, one after the other. -/
def performAll (memory : Memory) : List Call → List Reply × Memory
  | [] => ([], memory)
  | call :: rest =>
    let (reply, memory) := memory.perform call
    let (replies, memory) := performAll memory rest
    (reply :: replies, memory)

/-- An insertion that finds its key taken is remarked on. -/
def remark? (memory : Memory) : Call → Option Log.Entry
  | .insert space record =>
    match admitInsert space record with
    | .ok key =>
      if (memory.rows space).contains key then
        some
          { level := .debug
            target := "clusterlock_persistence::memory"
            message := "Duplicate key on insert"
            fields := [("key", key.toText), ("table", space.fullName)] }
      else none
    | .error _ => none
  | _ => none

end Memory

end Leasehold
