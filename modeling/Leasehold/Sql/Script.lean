import Leasehold.Sql.Store

/-!
# Scripted databases

A scripted database runs nothing: it gives out prepared results, one after the other,
with one list for queries and one for executions.

* `Script`: the prepared results that are left.
* `Script.run`: the next of them.
-/

namespace Leasehold

namespace Sql

/-- Prepared results of executions and of queries. -/
structure Script where
  executions : List (Except String Nat)
  queries : List (Except String (List Record))

namespace Script

/-- The next result for a statement; past the end of the script every statement fails. -/
def run (script : Script) (statement : Statement) : Result × Script :=
  match statement.use with
  | .execution =>
    match script.executions with
    | [] => (.failed (.outOfScript .execution), script)
    | .ok count :: rest => (.affected count, { script with executions := rest })
    | .error text :: rest => (.failed (.scripted text), { script with executions := rest })
  | .query =>
    match script.queries with
    | [] => (.failed (.outOfScript .query), script)
    | .ok rows :: rest => (.rows rows, { script with queries := rest })
    | .error text :: rest => (.failed (.scripted text), { script with queries := rest })

end Script

end Sql

end Leasehold
