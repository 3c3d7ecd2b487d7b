import Leasehold.Number.Decimal
import Leasehold.Number.Word
import Leasehold.Sql.Store

/-!
# A small SQLite database

The part of SQLite that the store's statements reach: tables whose columns are all
required, one of them the key, and comparisons under column affinity.

* `Sqlite.Table`, `Sqlite.Database`: tables and the database.
* `Sqlite.coerce`: a value as a column of some kind takes it.
* `Sqlite.holds`: whether a row satisfies a condition.
* `Sqlite.run`: what a statement does.

Identifiers are compared without regard to the case of ASCII letters.  An identifier
that names no column stands for its own text.
-/

namespace Leasehold

namespace Sqlite

open Sql

/-- A table: its name as created, its columns, and its rows in the order of insertion. -/
structure Table where
  name : String
  columns : List ColumnDefinition
  rows : List Record
  deriving Repr, DecidableEq

/-- A database as a list of tables. -/
structure Database where
  tables : List Table
  deriving Repr, DecidableEq

/-- The database without tables. -/
def Database.empty : Database := ⟨[]⟩

instance : Inhabited Database := ⟨Database.empty⟩

/-- Whether two identifiers are the same. -/
def sameName (a b : String) : Bool := a.toLower == b.toLower

/-- The table of a name. -/
def Database.table? (database : Database) (name : String) : Option Table :=
  database.tables.find? fun table => sameName table.name name

/-- The database with another content of a table. -/
def Database.withTable (database : Database) (table : Table) : Database :=
  ⟨database.tables.map fun other => if sameName other.name table.name then table else other⟩

/-- The column of a name. -/
def Table.column? (table : Table) (name : String) : Option ColumnDefinition :=
  table.columns.find? fun column => sameName column.name name

/-! ## Values -/

/-- Whether a character may stand around a number. -/
def isBlank (c : Char) : Bool := c = ' ' || (9 ≤ c.toNat && c.toNat ≤ 13)

/-- The text of a number without the blanks around it. -/
def trimmed (text : String) : String :=
  let cs := text.toList.dropWhile isBlank
  String.ofList (cs.reverse.dropWhile isBlank).reverse

/-- The smallest integer of a cell. -/
def smallest : Int := Word.minInt 64

/-- The largest integer of a cell. -/
def largest : Int := Word.maxInt 64

/-- The integer that a text spells.  One that is spelled by its digits may be any integer
of a cell; a real number that is whole has to lie strictly between the two ends. -/
def integerOfText? (text : String) : Option Int :=
  match Binary64.ofText? (trimmed text) with
  | some value =>
    match (trimmed text).toInt?.filter fun n => smallest ≤ n && n ≤ largest with
    | some n => some n
    | none =>
      let n := value.toInt64
      if smallest < n && n < largest && Binary64.ofInt n = value then some n else none
  | none => none

/-- A value as a column of a kind takes it: an integer column takes texts that spell
integers as integers, and the other columns take integers as texts. -/
def coerce (kind : Kind) (value : Value) : Value :=
  match kind, value with
  | .int, .text t =>
    match integerOfText? t with
    | some n => .int n
    | none => .text t
  | .text, .int n => .text (toString n)
  | .time, .int n => .text (toString n)
  | _, value => value

/-- Whether two values are the same; a time is the same as its text, and nothing is the
same as the missing value. -/
def sameValue : Value → Value → Bool
  | .int a, .int b => a == b
  | .text a, .text b => a == b
  | .time a, .time b => a == b
  | .time a, .text b => a.toText .numeric == b
  | .text a, .time b => a == b.toText .numeric
  | _, _ => false

/-- Whether a row satisfies a clause. -/
def clauseHolds (table : Table) (row : Record) (clause : String × Value) : Bool :=
  match table.column? clause.1 with
  | some column =>
    sameValue ((row.get? column.name).getD .null) (coerce column.kind clause.2)
  | none => sameValue (.text clause.1) clause.2

/-- Whether a row satisfies a condition. -/
def holds (table : Table) (condition : Condition) (row : Record) : Bool :=
  condition.clauses.all (clauseHolds table row)

/-! ## Statements -/

/-- A refusal with the general code. -/
def refusal (use : StatementUse) (text : String) : Result := .failed (.refused use 1 text)

/-- The refusal of a statement on a table that is not there. -/
def noTable (use : StatementUse) (name : String) : Result := refusal use s!"no such table: {name}"

/-- The refusal of a missing value. -/
def missingValue (table : Table) (column : String) : Result :=
  .failed (.refused .execution 1299 s!"NOT NULL constraint failed: {table.name}.{column}")

/-- The refusal of a key that is taken. -/
def takenKey (table : Table) (column : String) : Result :=
  .duplicateKey (.refused .execution 1555 s!"UNIQUE constraint failed: {table.name}.{column}")

/-- The first column whose name an earlier column has. -/
def repeatedColumn? : List ColumnDefinition → List ColumnDefinition → Option String
  | _, [] => none
  | earlier, column :: rest =>
    if earlier.any fun other => sameName other.name column.name then some column.name
    else repeatedColumn? (column :: earlier) rest

/-- Creates a table unless there is one of that name. -/
def createTable (database : Database) (name : String) (columns : List ColumnDefinition) :
    Result × Database :=
  match database.table? name with
  | some _ => (.affected 0, database)
  | none =>
    match repeatedColumn? [] columns with
    | some column => (refusal .execution s!"duplicate column name: {column}", database)
    | none => (.affected 0, ⟨database.tables ++ [⟨name, columns, []⟩]⟩)

/-- The first column of a table for which a row has no value. -/
def unfilled? (table : Table) (row : Record) : Option String :=
  (table.columns.find? fun column => ((row.get? column.name).getD .null).isNull).map
    ColumnDefinition.name

/-- The first key column in which a row agrees with one of some rows. -/
def collision? (table : Table) (row : Record) (others : List Record) : Option String :=
  (table.columns.find? fun column =>
    column.isKey && others.any fun other =>
      sameValue ((other.get? column.name).getD .null)
        ((row.get? column.name).getD .null)).map ColumnDefinition.name

/-- Writes entries into a row, each as its column takes it. -/
def assign (table : Table) (row : Record) (entries : List (String × Value)) : Record :=
  entries.foldl
    (fun row entry =>
      match table.column? entry.1 with
      | some column => row.insert column.name (coerce column.kind entry.2)
      | none => row)
    row

/-- The first entry whose column a table does not have. -/
def foreignColumn? (table : Table) (entries : List (String × Value)) : Option String :=
  (entries.find? fun entry => (table.column? entry.1).isNone).map Prod.fst

/-- Inserts a row. -/
def insertRow (database : Database) (name : String) (entries : List (String × Value)) :
    Result × Database :=
  if entries.isEmpty then (refusal .execution "near \")\": syntax error", database)
  else
    match database.table? name with
    | none => (noTable .execution name, database)
    | some table =>
      match foreignColumn? table entries with
      | some column =>
        (refusal .execution s!"table {table.name} has no column named {column}", database)
      | none =>
        let row := assign table ∅ entries
        match unfilled? table row with
        | some column => (missingValue table column, database)
        | none =>
          match collision? table row table.rows with
          | some column => (takenKey table column, database)
          | none =>
            (.affected 1, database.withTable { table with rows := table.rows ++ [row] })

/-- Writes entries into the rows that satisfy a condition, one row after the other; the
rows before are already changed, and the first refusal ends the walk. -/
def updateRows (table : Table) (entries : List (String × Value)) (condition : Condition) :
    List Record → List Record → Except Result (Nat × List Record)
  | before, [] => .ok (0, before)
  | before, row :: after =>
    if holds table condition row then
      let changed := assign table row entries
      -- A missing value is found before a taken key.
      match unfilled? table changed with
      | some column => .error (missingValue table column)
      | none =>
        match collision? table changed (before ++ after) with
        | some column => .error (takenKey table column)
        | none =>
          match updateRows table entries condition (before ++ [changed]) after with
          | .ok (count, rows) => .ok (count + 1, rows)
          | .error e => .error e
    else updateRows table entries condition (before ++ [row]) after

/-- Updates a table; a refused update changes nothing. -/
def update (database : Database) (name : String) (entries : List (String × Value))
    (condition : Condition) : Result × Database :=
  match database.table? name with
  | none => (noTable .execution name, database)
  | some table =>
    match foreignColumn? table entries with
    | some column => (refusal .execution s!"no such column: {column}", database)
    | none =>
      match updateRows table entries condition [] table.rows with
      | .error result => (result, database)
      | .ok (count, rows) => (.affected count, database.withTable { table with rows := rows })

/-- The selected columns of a row. -/
def project (table : Table) (columns : List String) (row : Record) : Record :=
  .ofList (columns.map fun name =>
    match table.column? name with
    | some column => (name, (row.get? column.name).getD .null)
    | none => (name, .text name))

/-- Runs a statement. -/
def run (database : Database) : Statement → Result × Database
  | .createDatabase _ => (.affected 0, database)
  | .createTable table columns => createTable database table.table columns
  | .count table condition =>
    match database.table? table.table with
    | none => (noTable .query table.table, database)
    | some content =>
      let matching := content.rows.filter (holds content condition)
      (.rows [.ofList [(countColumn, .int matching.length)]], database)
  | .select table columns condition =>
    match database.table? table.table with
    | none => (noTable .query table.table, database)
    | some content =>
      let matching := content.rows.filter (holds content condition)
      (.rows (matching.map (project content columns)), database)
  | .insert table entries => insertRow database table.table entries
  | .update table entries condition => update database table.table entries condition

/-- Serves a call of the store on a database. -/
def perform (database : Database) (call : Call) : Reply × Database :=
  let (reply, _, database) := serve run (.ofDialect .sqlite) database call
  (reply, database)

end Sqlite

end Leasehold
