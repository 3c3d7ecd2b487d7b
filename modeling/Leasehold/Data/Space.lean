import Leasehold.Data.Record

/-!
# Spaces

A space names a table and describes it: the key column and the columns with their
kinds.

* `Space`: the description, `Space.keyed` and `Space.withColumn` build one.
* `Space.check`: whether a record fits.
* `SchemaError`: why it does not.
-/

namespace Leasehold

/-- A column and what it holds. -/
structure Column where
  name : String
  kind : Kind
  deriving Repr, DecidableEq, Inhabited

/-- Where a table is and what its columns are. -/
structure Space where
  database : String
  table : String
  key : String
  columns : List Column
  deriving Repr, DecidableEq, Inhabited

/-- Why a record does not fit a space. -/
inductive SchemaError where
  | unknownColumn (column table : String)
  | wrongKind (column table : String) (expected : Kind) (value : Value)
  deriving Repr, DecidableEq

/-- The text of a schema error. -/
def SchemaError.message : SchemaError → String
  | unknownColumn column table => s!"unknown column '{column}' in {table}"
  | wrongKind column table expected value =>
    s!"column '{column}' in {table} expects {expected.name}, got {value.toText}"

namespace Space

/-- The space with a text column as its key and no other column. -/
def keyed (database table key : String) : Space :=
  { database := database, table := table, key := key, columns := [⟨key, .text⟩] }

/-- The space with one column more. -/
def withColumn (space : Space) (name : String) (kind : Kind) : Space :=
  { space with columns := space.columns ++ [⟨name, kind⟩] }

/-- The name of the table with its database. -/
def fullName (space : Space) : String := space.database ++ "." ++ space.table

/-- The first column of a name. -/
def column? (space : Space) (name : String) : Option Column :=
  space.columns.find? fun column => column.name == name

/-- Whether one entry of a record fits: its column exists, and its value is missing or
of the column's kind. -/
def checkEntry (space : Space) (entry : String × Value) : Except SchemaError Unit :=
  match space.column? entry.1 with
  | none => .error (.unknownColumn entry.1 space.fullName)
  | some column =>
    match entry.2.kind? with
    | none => .ok ()
    | some kind =>
      if kind = column.kind then .ok ()
      else .error (.wrongKind entry.1 space.fullName column.kind entry.2)

/-- Checks entries in order; the first that does not fit is reported. -/
def checkEntries (space : Space) : List (String × Value) → Except SchemaError Unit
  | [] => .ok ()
  | entry :: rest =>
    match space.checkEntry entry with
    | .ok () => checkEntries space rest
    | .error e => .error e

/-- Checks the columns of a record in order. -/
def check (space : Space) (record : Record) : Except SchemaError Unit :=
  space.checkEntries record.entries

end Space

end Leasehold
