import Leasehold.Data.Space
import Leasehold.Number.Word

/-!
# Lock rows

A held lock is one row of the lock table.  Its version is the fencing token, a word of
64 bits, which every change of ownership raises by one; its time is that of the last
write by its owner.

* `lockSpace`: the space of the lock table.
* `LockRow`: a row, `LockRow.toRecord` and `LockRow.ofRecord` its stored form.
* `LockRow.isExpired`: whether the lease on a row is over.
* `LockRow.isRaisable`: whether its version can be raised.
* `LockState`: where a process stands with a lock name.
-/

namespace Leasehold

namespace Lock

/-- The column of the lock name. -/
def nameColumn : String := "name"

/-- The column of the version. -/
def versionColumn : String := "version"

/-- The column of the owner. -/
def ownerColumn : String := "owner"

/-- The column of the last write. -/
def timeColumn : String := "update_time"

/-- The database of the lock table unless another is configured. -/
def standardDatabase : String := "d_meta"

/-- The lock table unless another is configured. -/
def standardTable : String := "t_lock"

end Lock

/-- The space of a lock table. -/
def lockSpace (database table : String) : Space :=
  (((Space.keyed database table Lock.nameColumn).withColumn Lock.versionColumn .int).withColumn
    Lock.ownerColumn .text).withColumn Lock.timeColumn .time

/-- The lock table unless another is configured. -/
def standardLockSpace : Space := lockSpace Lock.standardDatabase Lock.standardTable

/-- One held lock. -/
structure LockRow where
  name : String
  version : Int
  owner : String
  updateTime : Instant
  deriving Repr, DecidableEq

namespace LockRow

/-- The first row of a lock. -/
def first (name owner : String) (now : Instant) : LockRow := ⟨name, 0, owner, now⟩

/-- How long ago the owner wrote last. -/
def elapsed (row : LockRow) (now : Instant) : Gap := now.since row.updateTime

/-- Whether the last write is more than a lease ago. -/
def isExpired (row : LockRow) (now : Instant) (lease : Span) : Bool :=
  decide (lease.toGap < row.elapsed now)

/-- Whether the version can be raised within its word. -/
def isRaisable (row : LockRow) : Bool := decide (row.version < Word.maxInt 64)

/-- Whether an identity owns the row. -/
def isOwnedBy (row : LockRow) (identity : String) : Bool := row.owner == identity

/-- The stored form of a row. -/
def toRecord (row : LockRow) : Record :=
  .ofList
    [(Lock.nameColumn, .text row.name), (Lock.versionColumn, .int row.version),
      (Lock.ownerColumn, .text row.owner), (Lock.timeColumn, .time row.updateTime)]

/-- The row of a stored form; the first column that does not fit is reported. -/
def ofRecord (record : Record) : Except ColumnError LockRow :=
  match Record.text record Lock.nameColumn with
  | .error e => .error e
  | .ok name =>
    match Record.int record Lock.versionColumn with
    | .error e => .error e
    | .ok version =>
      match Record.text record Lock.ownerColumn with
      | .error e => .error e
      | .ok owner =>
        match Record.time record Lock.timeColumn with
        | .error e => .error e
        | .ok updateTime => .ok ⟨name, version, owner, updateTime⟩

end LockRow

/-- Where a process stands with a lock name. -/
inductive LockState where
  | unregistered
  | acquiring
  | held
  | lost
  deriving Repr, DecidableEq, Inhabited

namespace LockState

/-- The name of a state. -/
def name : LockState → String
  | unregistered => "unregistered"
  | acquiring => "acquiring"
  | held => "held"
  | lost => "lost"

/-- The states in the order in which a name passes through them. -/
def all : List LockState := [unregistered, acquiring, held, lost]

end LockState

end Leasehold
