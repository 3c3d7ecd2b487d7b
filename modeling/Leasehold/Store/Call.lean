import Leasehold.Data.Condition
import Leasehold.Data.Space

/-!
# Calls on a record store

A store is used through calls, and everything a store does is an answer to one.

* `Call`: what can be asked of a store.
* `Answer`: what it answers.
* `DatabaseFault`, `StoreError`: why it does not.
-/

namespace Leasehold

/-- Which kind of store serves the calls. -/
inductive StorageMode where
  | memory
  | externalDatabase
  deriving Repr, DecidableEq, Inhabited

namespace StorageMode

/-- The name of a storage mode. -/
def name : StorageMode → String
  | memory => "memory"
  | externalDatabase => "external_db"

/-- The storage mode of a name; the name has to be exact. -/
def ofName? (text : String) : Option StorageMode :=
  [memory, externalDatabase].find? fun mode => text == mode.name

/-- What is said of a name that no storage mode has. -/
def unknownMessage (text : String) : String := s!"Invalid storage mode: {text}"

theorem ofName?_name (mode : StorageMode) : ofName? mode.name = some mode := by
  cases mode <;> decide

end StorageMode

/-- What can be asked of a store. -/
inductive Call where
  | mode
  | health
  | ensure (space : Space)
  | count (space : Space) (condition : Condition)
  | search (space : Space) (condition : Condition)
  | insert (space : Space) (record : Record)
  | update (space : Space) (condition : Condition) (fields : Record)
  deriving Repr, DecidableEq

/-- What a store answers. -/
inductive Answer where
  | done
  | mode (mode : StorageMode)
  | number (n : Nat)
  | records (records : List Record)
  deriving Repr, DecidableEq

/-- Whether a statement asks for rows or changes them. -/
inductive StatementUse where
  | query
  | execution
  deriving Repr, DecidableEq

/-- What a database reports. -/
inductive DatabaseFault where
  | refused (use : StatementUse) (code : Nat) (text : String)
  | scripted (text : String)
  | outOfScript (use : StatementUse)
  | undecodable (column : String)
  | unreadableAddress (address : String)
  | unsupportedAddress (address : String)
  | refusedAddress (text : String)
  | timedOut
  | unreachable (code : Nat) (text : String)
  deriving Repr, DecidableEq

/-- The word for the use of a statement. -/
def StatementUse.name : StatementUse → String
  | query => "Query"
  | execution => "Execution"

/-- The text of a database fault. -/
def DatabaseFault.message : DatabaseFault → String
  | refused use code text =>
    s!"{use.name} Error: error returned from database: (code: {code}) {text}"
  | scripted text => s!"Custom Error: {text}"
  | outOfScript .query => "Query Error: `query_results` buffer is empty."
  | outOfScript .execution => "Execution Error: `exec_results` buffer is empty"
  | undecodable column =>
    s!"Type Error: A null value was encountered while decoding {column.quote}"
  | unreadableAddress address =>
    s!"Connection Error: The connection string '{address}' cannot be parsed."
  | unsupportedAddress address =>
    s!"Connection Error: The connection string '{address}' has no supporting driver."
  | refusedAddress text => s!"Connection Error: error with configuration: {text}"
  | timedOut => "Failed to acquire connection from pool: Connection pool timed out"
  | unreachable code text =>
    s!"Connection Error: error returned from database: (code: {code}) {text}"

/-- Why a store does not answer. -/
inductive StoreError where
  | schema (error : SchemaError)
  | column (error : ColumnError)
  | keyMissing (table key : String)
  | keyUpdated (table key : String)
  | nothingToSet (table : String)
  | negativeCount
  | database (fault : DatabaseFault)
  | reported (text : String)
  | within (context : String) (cause : StoreError)
  deriving Repr, DecidableEq

namespace StoreError

/-- The text of a store error; a context stands for what it surrounds. -/
def message : StoreError → String
  | schema error => error.message
  | column error => error.message
  | keyMissing table key => s!"record for {table} has no '{key}' key"
  | keyUpdated table key => s!"updating key column '{key}' of {table} is not supported"
  | nothingToSet table => s!"update of {table} sets no columns"
  | negativeCount => "number too small to fit in target type"
  | database fault => fault.message
  | reported text => text
  | within context _ => context

/-- Whether an error is a database's own. -/
def isDatabase : StoreError → Bool
  | database _ => true
  | _ => false

end StoreError

/-- What became of a call. -/
abbrev Reply := Except StoreError Answer

namespace Answer

/-- The number in an answer; an answer of another shape counts nothing. -/
def count : Answer → Nat
  | number n => n
  | _ => 0

/-- The records in an answer. -/
def rows : Answer → List Record
  | records rs => rs
  | _ => []

end Answer

namespace Call

/-- The name of a call. -/
def name : Call → String
  | mode => "mode"
  | health => "health"
  | ensure _ => "ensure"
  | count _ _ => "count"
  | search _ _ => "search"
  | insert _ _ => "insert"
  | update _ _ _ => "update"

/-- The condition of a call. -/
def condition? : Call → Option Condition
  | count _ condition => some condition
  | search _ condition => some condition
  | update _ condition _ => some condition
  | _ => none

/-- The record or the fields that a call writes. -/
def written? : Call → Option Record
  | insert _ record => some record
  | update _ _ fields => some fields
  | _ => none

end Call

end Leasehold
