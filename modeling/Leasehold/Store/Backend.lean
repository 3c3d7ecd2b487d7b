import Leasehold.Sql.Sqlite
import Leasehold.Store.Memory

/-!
# Stores

* `RecordStore`: a memory store or a SQLite database behind the SQL store.
* `RecordStore.perform`: answers a call on either.
* `Space.listed`: records in the order of their keys.
-/

namespace Leasehold

/-- A store of one of the two kinds that need no server. -/
inductive RecordStore where
  | memory (memory : Memory)
  | sqlite (database : Sqlite.Database)
  deriving Repr

namespace RecordStore

/-- Which kind of store serves the calls. -/
def mode : RecordStore → StorageMode
  | memory _ => .memory
  | sqlite _ => .externalDatabase

/-- Answers a call. -/
def perform : RecordStore → Call → Reply × RecordStore
  | memory m, call =>
    let (reply, m) := m.perform call
    (reply, memory m)
  | sqlite d, call =>
    let (reply, d) := Sqlite.perform d call
    (reply, sqlite d)

/-- What a call leaves in the log. -/
def remark? : RecordStore → Call → Option Log.Entry
  | memory m, call => m.remark? call
  | sqlite _, _ => none

end RecordStore

/-- Records in the order of their key column; equal keys stay in place. -/
def Space.listed (space : Space) (records : List Record) : List Record :=
  records.mergeSort fun a b =>
    (compare ((a.get? space.key).getD .null) ((b.get? space.key).getD .null)).isLE

end Leasehold
