import Leasehold.Lock.Policy
import Leasehold.Lock.Retry
import Leasehold.Lock.Row

/-!
# Options of a lock manager

* `Manager.Options`: what a manager is told when it is made.
* `Manager.Options.validate`: the options that are accepted.
-/

namespace Leasehold

/-- What a manager is told when it is made: the identity that it writes into rows, the
lock table, the lease policies, how it waits between attempts, and how many heartbeats
in a row may fail. -/
structure Manager.Options where
  identity : String
  space : Space
  policies : PolicyTable
  retry : RetryPolicy
  maxFailures : Nat
  deriving Repr

namespace Manager.Options

/-- The failures in a row that end a lease, unless configured otherwise. -/
def standardMaxFailures : Nat := 3

/-- The standard options of an identity. -/
def ofIdentity (identity : String) : Options :=
  { identity := identity
    space := standardLockSpace
    policies := .standard
    retry := .fixed
    maxFailures := standardMaxFailures }

/-- Checks the identity, the failures, the policies and the waiting, in this order. -/
def validate (options : Options) : Except LockError Unit :=
  if options.identity.isEmpty then .error (.invalidOption .emptyIdentity)
  else if options.maxFailures = 0 then .error (.invalidOption .noFailures)
  else
    match options.policies.validate with
    | .error e => .error e
    | .ok () => options.retry.validate

end Manager.Options

end Leasehold
