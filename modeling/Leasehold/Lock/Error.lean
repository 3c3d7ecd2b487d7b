import Leasehold.Number.Decimal
import Leasehold.Store.Call

/-!
# Errors of the lock service

* `IntervalClass`: the two classes of lock names, named in some errors.
* `LockError`: why a lock operation failed.
* `ServiceError`: the errors that leave the service, `LockError.toService` the way there.
* `ErrorCode`: the number and the short text that go with an error.
-/

namespace Leasehold

/-- A class of lock names with a lease and a heartbeat period of its own. -/
inductive IntervalClass where
  | short
  | medium
  deriving Repr, DecidableEq, Inhabited

namespace IntervalClass

/-- The name of a class. -/
def name : IntervalClass → String
  | short => "short"
  | medium => "medium"

/-- The classes in order. -/
def all : List IntervalClass := [short, medium]

/-- The place of a class in the order. -/
def rank : IntervalClass → Nat
  | short => 0
  | medium => 1

/-- The order of classes. -/
def order (a b : IntervalClass) : Ordering := compare a.rank b.rank

/-- The class of a name in any case. -/
def ofName? (text : String) : Option IntervalClass :=
  all.find? fun c => text.toLower == c.name

/-- What is said of a name that no class has. -/
def unknownMessage (text : String) : String := s!"Invalid interval class: {text}"

end IntervalClass

/-- A number and a short text for an error. -/
structure ErrorCode where
  code : Int
  message : String
  deriving Repr, DecidableEq, Inhabited

namespace ErrorCode

/-- A store did not serve a call. -/
def dataAccess : ErrorCode := ⟨10002, "data access error"⟩

/-- A parameter was not valid. -/
def parameter : ErrorCode := ⟨20002, "parameter validate error"⟩

/-- The configuration was not valid. -/
def configuration : ErrorCode := ⟨20014, "configuration error"⟩

/-- The service itself failed. -/
def server : ErrorCode := ⟨30000, "server error"⟩

/-- A lock could not be had. -/
def lockFailure : ErrorCode := ⟨60001, "lock failure"⟩

/-- A lease was lost. -/
def leaseLost : ErrorCode := ⟨60002, "lock lease lost"⟩

/-- The code of no error. -/
def none : ErrorCode := ⟨0, ""⟩

/-- Every code, the code of no error last. -/
def all : List ErrorCode :=
  [dataAccess, parameter, configuration, server, lockFailure, leaseLost, none]

end ErrorCode

/-- An error as it leaves the service. -/
inductive ServiceError where
  | illegalArgument (text : String)
  | database (text : String)
  | configuration (text : String)
  | internal (text : String)
  | leaseLost (name : String)
  | lockFailure (text : String)
  deriving Repr, DecidableEq

namespace ServiceError

/-- The text of a service error. -/
def message : ServiceError → String
  | illegalArgument text => s!"caused: {text}"
  | database text => s!"database error: {text}"
  | configuration text => s!"configuration error: {text}"
  | internal text => s!"internal error: {text}"
  | leaseLost name => s!"lock '{name}' lease lost"
  | lockFailure text => s!"lock failure: {text}"

/-- The code of a service error. -/
def code : ServiceError → ErrorCode
  | illegalArgument _ => .parameter
  | database _ => .dataAccess
  | configuration _ => .configuration
  | internal _ => .server
  | leaseLost _ => .leaseLost
  | lockFailure _ => .lockFailure

end ServiceError

/-- What is wrong with a lease policy. -/
inductive PolicyFault where
  | emptyLease
  | emptyPeriod
  | periodNotShorter
  | other (reason : String)
  deriving Repr, DecidableEq

/-- The text of a policy fault. -/
def PolicyFault.reason : PolicyFault → String
  | emptyLease => "lease duration must be positive"
  | emptyPeriod => "heartbeat period must be positive"
  | periodNotShorter => "heartbeat period must be shorter than the lease"
  | other reason => reason

/-- What is wrong with an option. -/
inductive OptionFault where
  | emptyIdentity
  | noFailures
  | emptyDelay
  | ceilingBelowDelay (ceiling delay : Span)
  | multiplierRefused (multiplier : Binary64)
  | other (reason : String)
  deriving Repr, DecidableEq

/-- The text of an option fault. -/
def OptionFault.reason : OptionFault → String
  | emptyIdentity => "owner identity must not be empty"
  | noFailures => "heartbeat failure threshold must be at least 1"
  | emptyDelay => "retry initial delay must be positive"
  | ceilingBelowDelay ceiling delay =>
    "retry max delay " ++ ceiling.toText ++ " is below initial delay " ++ delay.toText
  | multiplierRefused multiplier =>
    "retry multiplier must be a finite number >= 1, got " ++ multiplier.toText
  | other reason => reason

/-- Why a lock operation failed.  The service has no error for a version that overflows its word;
the operation is followed up to there. -/
inductive LockError where
  | invalidName (name : String)
  | invalidPolicy (interval : IntervalClass) (fault : PolicyFault)
  | invalidOption (fault : OptionFault)
  | store (error : StoreError)
  | shutDown
  | overflow
  deriving Repr, DecidableEq

namespace LockError

/-- The text of a lock error. -/
def message : LockError → String
  | invalidName name => s!"invalid lock name '{name}'"
  | invalidPolicy interval fault =>
    s!"invalid lease policy for class '{interval.name}': {fault.reason}"
  | invalidOption fault => s!"invalid option: {fault.reason}"
  | store error => s!"store error: {error.message}"
  | shutDown => "lock manager is shut down"
  | overflow => "attempt to add with overflow"

/-- The code of a lock error. -/
def code : LockError → ErrorCode
  | invalidName _ => .parameter
  | invalidPolicy _ _ => .parameter
  | invalidOption _ => .parameter
  | store _ => .dataAccess
  | shutDown => .lockFailure
  | overflow => .server

/-- A lock error as it leaves the service. -/
def toService : LockError → ServiceError
  | store error => .database error.message
  | shutDown => .lockFailure shutDown.message
  | overflow => .internal overflow.message
  | error => .illegalArgument error.message

end LockError

end Leasehold
