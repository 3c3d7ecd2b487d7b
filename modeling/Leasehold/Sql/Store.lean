import Leasehold.Log.Entry
import Leasehold.Sql.Statement

/-!
# The SQL store

A call becomes the statements that serve it, and their results become its answer.

* `Sql.Result`: what a database makes of a statement.
* `Sql.Session`: how a store addresses its database.
* `Session.plan`: the statements of a call.
* `Session.conclude`: the answer that the results of those statements give.
* `Sql.serve`: a call on any database that runs statements.
-/

namespace Leasehold

namespace Sql

/-- What a database makes of a statement: rows, a number of rows changed, a failure, or
a failure because a key is taken. -/
inductive Result where
  | rows (rows : List Record)
  | affected (count : Nat)
  | failed (fault : DatabaseFault)
  | duplicateKey (fault : DatabaseFault)
  deriving Repr, DecidableEq

/-- How a store addresses its database: the dialect, and whether tables are named with
their database. -/
structure Session where
  dialect : Dialect
  qualified : Bool
  deriving Repr, DecidableEq

/-- The column in which a count is returned. -/
def countColumn : String := "cnt"

namespace Session

/-- The session of a dialect. -/
def ofDialect (dialect : Dialect) : Session := ⟨dialect, dialect.hasSchemas⟩

/-- The session that addresses tables by name only. -/
def unqualified (session : Session) : Session := { session with qualified := false }

/-- The table of a space. -/
def tableRef (session : Session) (space : Space) : TableRef :=
  ⟨if session.qualified then some space.database else none, space.table⟩

/-- The statement that creates the database of a space. -/
def createDatabase (session : Session) (space : Space) : List Statement :=
  if session.qualified && session.dialect.hasSchemas then [.createDatabase space.database]
  else []

/-- The columns of a space as they are created; every column of the key's name is part
of the key. -/
def definitions (space : Space) : List ColumnDefinition :=
  space.columns.map fun column => ⟨column.name, column.kind, column.name == space.key⟩

/-- The statements of a call, sent one after the other as long as they succeed. -/
def plan (session : Session) : Call → Except StoreError (List Statement)
  | .mode => .ok []
  | .health => .ok []
  | .ensure space =>
    .ok (session.createDatabase space
      ++ [.createTable (session.tableRef space) (definitions space)])
  | .count space condition => .ok [.count (session.tableRef space) condition]
  | .search space condition =>
    .ok [.select (session.tableRef space) (space.columns.map Column.name) condition]
  | .insert space record =>
    match space.check record with
    | .error e => .error (.schema e)
    | .ok () => .ok [.insert (session.tableRef space) record.entries]
  | .update space condition fields =>
    match space.check fields with
    | .error e => .error (.schema e)
    | .ok () =>
      if fields.isEmpty then .error (.nothingToSet space.fullName)
      else .ok [.update (session.tableRef space) fields.entries condition]

/-- The value of a column of a row as one of a kind; anything else is missing. -/
def readColumn (row : Record) (column : Column) : String × Value :=
  match row.get? column.name with
  | some value =>
    if value.kind? = some column.kind then (column.name, value) else (column.name, .null)
  | none => (column.name, .null)

/-- A row as a record of a space. -/
def readRow (space : Space) (row : Record) : Record :=
  .ofList (space.columns.map (readColumn row))

/-- The count in the first row. -/
def readCount : List Record → Reply
  | [] => .ok (.number 0)
  | row :: _ =>
    match row.get? countColumn with
    | some (.int n) => if n < 0 then .error .negativeCount else .ok (.number n.toNat)
    | _ => .error (.database (.undecodable countColumn))

/-- The answer of a call whose last statement had a result. -/
def conclude (call : Call) : Result → Reply
  | .failed fault => .error (.database fault)
  | .duplicateKey fault =>
    match call with
    | .insert _ _ => .ok (.number 0)
    | _ => .error (.database fault)
  | .rows rows =>
    match call with
    | .count _ _ => readCount rows
    | .search space _ => .ok (.records (rows.map (readRow space)))
    | _ => .ok .done
  | .affected count =>
    match call with
    | .insert _ _ => .ok (.number count)
    | .update _ _ _ => .ok (.number count)
    | _ => .ok .done

/-- The answer of a call that needs no statement. -/
def withoutStatement : Call → Reply
  | .mode => .ok (.mode .externalDatabase)
  | _ => .ok .done

end Session

/-- Whether a result stops the statements that follow. -/
def Result.isFailure : Result → Bool
  | failed _ => true
  | duplicateKey _ => true
  | _ => false

/-- Sends statements as long as they succeed: the statements sent, the last result and
the database afterwards. -/
def send {σ : Type} (run : σ → Statement → Result × σ) (state : σ) :
    List Statement → List Statement × Option Result × σ
  | [] => ([], none, state)
  | statement :: rest =>
    let (result, state) := run state statement
    -- A failure hides the statements behind it.
    if result.isFailure || rest.isEmpty then ([statement], some result, state)
    else
      let (sent, last, state) := send run state rest
      (statement :: sent, last, state)

/-- Serves a call on a database that runs statements: the answer, the statements sent,
and the database afterwards. -/
def serve {σ : Type} (run : σ → Statement → Result × σ) (session : Session) (state : σ)
    (call : Call) : Reply × List Statement × σ :=
  match session.plan call with
  | .error e => (.error e, [], state)
  | .ok statements =>
    match send run state statements with
    | (sent, none, state) => (Session.withoutStatement call, sent, state)
    | (sent, some result, state) => (Session.conclude call result, sent, state)

end Sql

end Leasehold
