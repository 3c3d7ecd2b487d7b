import Leasehold.Data.OrderedMap
import Leasehold.Data.Value

/-!
# Records

A record is one row of a table: a value for each of some columns.

* `Record`: the columns and their values, by column name.
* `Record.text`, `Record.int`, `Record.time`: the value of a column of one kind.
* `ColumnError`: why a column has no such value.
-/

namespace Leasehold

/-- One row: column names with their values. -/
abbrev Record := OrderedMap String Value

/-- Why a column cannot be read as a value of one kind. -/
inductive ColumnError where
  | notText (column : String) (value : Value)
  | notInteger (column : String) (value : Value)
  | notTimestamp (column : String) (value : Value)
  | missing (column : String)
  deriving Repr, DecidableEq

/-- The text of a column error. -/
def ColumnError.message : ColumnError → String
  | notText column value => s!"column '{column}' is not text: {value.toText}"
  | notInteger column value => s!"column '{column}' is not an integer: {value.toText}"
  | notTimestamp column value => s!"column '{column}' is not a timestamp: {value.toText}"
  | missing column => s!"column '{column}' is missing"

namespace Record

/-- The text in a column. -/
def text (record : Record) (column : String) : Except ColumnError String :=
  match record.get? column with
  | some (.text t) => .ok t
  | some value => .error (.notText column value)
  | none => .error (.missing column)

/-- The integer in a column. -/
def int (record : Record) (column : String) : Except ColumnError Int :=
  match record.get? column with
  | some (.int n) => .ok n
  | some value => .error (.notInteger column value)
  | none => .error (.missing column)

/-- The clock reading in a column. -/
def time (record : Record) (column : String) : Except ColumnError Instant :=
  match record.get? column with
  | some (.time t) => .ok t
  | some value => .error (.notTimestamp column value)
  | none => .error (.missing column)

end Record

end Leasehold
