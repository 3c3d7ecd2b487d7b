import Leasehold.Data.Condition
import Leasehold.Data.Space
import Leasehold.Store.Call

/-!
# SQL statements

A statement is a value first.  Its text and the values bound to it are both read off
one list of pieces: words, identifiers, and slots, each of which holds a value that
the text leaves out.

* `Dialect`: the databases, with their quotes, placeholders and column types.
* `Statement`: what is sent to a database.
* `Statement.pieces`: a statement as words, identifiers and slots.
* `Statement.text`, `Statement.bindings`: its text and its bound values.
-/

namespace Leasehold

namespace Sql

/-- The databases that are spoken to. -/
inductive Dialect where
  | mysql
  | postgres
  | sqlite
  deriving Repr, DecidableEq, Inhabited

namespace Dialect

/-- The name of a dialect. -/
def name : Dialect → String
  | mysql => "MySql"
  | postgres => "Postgres"
  | sqlite => "Sqlite"

/-- The character around an identifier. -/
def quoteMark : Dialect → Char
  | mysql => Char.ofNat 96
  | postgres => '"'
  | sqlite => '"'

/-- Whether tables are addressed with their database: where there are no schemas they
are not. -/
def hasSchemas : Dialect → Bool
  | sqlite => false
  | _ => true

/-- The placeholder of the bound value with an index from one. -/
def placeholder (dialect : Dialect) (index : Nat) : String :=
  match dialect with
  | postgres => "$" ++ toString index
  | _ => "?"

/-- The type of a column. -/
def columnType (dialect : Dialect) : Kind → String
  | .int => "bigint"
  | .text => "varchar(255)"
  | .time =>
    match dialect with
    | mysql => "timestamp"
    | postgres => "timestamp with time zone"
    | sqlite => "timestamp_with_timezone_text"

end Dialect

/-- Doubles a mark wherever it occurs. -/
def doubled (mark : Char) : List Char → List Char
  | [] => []
  | c :: rest => if c = mark then mark :: mark :: doubled mark rest else c :: doubled mark rest

/-- An identifier between marks, with the marks inside it doubled. -/
def quotedChars (mark : Char) (name : List Char) : List Char :=
  mark :: doubled mark name ++ [mark]

/-- An identifier between marks, as it is. -/
def bracketedChars (mark : Char) (name : List Char) : List Char := mark :: name ++ [mark]

/-- A table, with its database or without. -/
structure TableRef where
  database? : Option String
  table : String
  deriving Repr, DecidableEq

/-- A column of a table to be created. -/
structure ColumnDefinition where
  name : String
  kind : Kind
  isKey : Bool
  deriving Repr, DecidableEq

/-- What is sent to a database. -/
inductive Statement where
  | createDatabase (name : String)
  | createTable (table : TableRef) (columns : List ColumnDefinition)
  | count (table : TableRef) (condition : Condition)
  | select (table : TableRef) (columns : List String) (condition : Condition)
  | insert (table : TableRef) (entries : List (String × Value))
  | update (table : TableRef) (entries : List (String × Value)) (condition : Condition)
  deriving Repr, DecidableEq

/-- A piece of a statement.  A bare identifier is put between quotes without doubling
those inside it. -/
inductive Piece where
  | word (text : String)
  | name (identifier : String)
  | bareName (identifier : String)
  | slot (value : Value)
  deriving Repr, DecidableEq

/-- Pieces with a word between them. -/
def Piece.separated (word : String) : List (List Piece) → List Piece
  | [] => []
  | [pieces] => pieces
  | pieces :: rest => pieces ++ Piece.word word :: Piece.separated word rest

namespace TableRef

/-- A table in a statement. -/
def pieces (table : TableRef) : List Piece :=
  match table.database? with
  | some database => [.name database, .word ".", .name table.table]
  | none => [.name table.table]

end TableRef

/-- A comparison or an assignment in a statement. -/
def equationPieces (entry : String × Value) : List Piece :=
  [.name entry.1, .word " = ", .slot entry.2]

/-- A condition in a statement; the condition without clauses is true. -/
def conditionPieces (condition : Condition) : List Piece :=
  if condition.clauses.isEmpty then [.word "TRUE"]
  else Piece.separated " AND " (condition.clauses.map equationPieces)

/-- The definition of a column in a statement. -/
def ColumnDefinition.pieces (dialect : Dialect) (column : ColumnDefinition) : List Piece :=
  [.name column.name, .word (" " ++ dialect.columnType column.kind ++ " NOT NULL")]
    ++ if column.isKey then [.word " PRIMARY KEY"] else []

namespace Statement

/-- The words before the database that is to be created. -/
def createDatabaseWords : Dialect → String
  | .mysql => "CREATE DATABASE IF NOT EXISTS "
  | _ => "CREATE SCHEMA IF NOT EXISTS "

/-- The columns and the values of an insertion; without columns nothing is inserted
into none. -/
def insertPieces (entries : List (String × Value)) : List Piece :=
  if entries.isEmpty then [.word " ()"]
  else
    .word " (" :: Piece.separated ", " (entries.map fun entry => [.name entry.1])
      ++ .word ") VALUES (" :: Piece.separated ", " (entries.map fun entry => [.slot entry.2])
      ++ [.word ")"]

/-- A statement as a list of pieces. -/
def pieces (dialect : Dialect) : Statement → List Piece
  | createDatabase name => [.word (createDatabaseWords dialect), .bareName name]
  | createTable table columns =>
    .word "CREATE TABLE IF NOT EXISTS " :: table.pieces
      ++ .word " ( " :: Piece.separated ", " (columns.map (ColumnDefinition.pieces dialect))
      ++ [.word " )"]
  | count table condition =>
    [.word "SELECT COUNT(*) AS ", .name "cnt", .word " FROM "] ++ table.pieces
      ++ .word " WHERE " :: conditionPieces condition
  | select table columns condition =>
    .word "SELECT " :: Piece.separated ", " (columns.map fun column => [.name column])
      ++ .word " FROM " :: table.pieces ++ .word " WHERE " :: conditionPieces condition
  | insert table entries => .word "INSERT INTO " :: table.pieces ++ insertPieces entries
  | update table entries condition =>
    .word "UPDATE " :: table.pieces
      ++ .word " SET " :: Piece.separated ", " (entries.map equationPieces)
      ++ .word " WHERE " :: conditionPieces condition

/-- The text of pieces, the first slot having a given index. -/
def textFrom (dialect : Dialect) : Nat → List Piece → String
  | _, [] => ""
  | index, .word text :: rest => text ++ textFrom dialect index rest
  | index, .name identifier :: rest =>
    String.ofList (quotedChars dialect.quoteMark identifier.toList) ++ textFrom dialect index rest
  | index, .bareName identifier :: rest =>
    String.ofList (bracketedChars dialect.quoteMark identifier.toList)
      ++ textFrom dialect index rest
  | index, .slot _ :: rest =>
    dialect.placeholder index ++ textFrom dialect (index + 1) rest

/-- The text of a statement. -/
def text (dialect : Dialect) (statement : Statement) : String :=
  textFrom dialect 1 (statement.pieces dialect)

/-- The value in a piece. -/
def slot? : Piece → Option Value
  | .slot value => some value
  | _ => none

/-- The values bound to a statement, in the order of their placeholders. -/
def values (dialect : Dialect) (statement : Statement) : List Value :=
  (statement.pieces dialect).filterMap slot?

/-- Whether values can be bound to a statement at all. -/
def takesValues : Statement → Bool
  | createDatabase _ => false
  | createTable _ _ => false
  | _ => true

/-- The bound values of a statement that can have some. -/
def bindings (dialect : Dialect) (statement : Statement) : Option (List Value) :=
  if statement.takesValues then some (statement.values dialect) else none

/-- Whether a statement asks for rows or changes them. -/
def use : Statement → StatementUse
  | count _ _ => .query
  | select _ _ _ => .query
  | _ => .execution

end Statement

end Sql

end Leasehold
