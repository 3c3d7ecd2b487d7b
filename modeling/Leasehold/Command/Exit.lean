/-!
# How a command ends

* `Command.Exit`: a command that ended by itself, or was killed.
* `Command.Exit.code`: the code with which the service ends.
-/

namespace Leasehold

/-- How a command ended: by itself, with a status unless a signal ended it, or killed
because its lock was lost or the service shuts down. -/
inductive Command.Exit where
  | completed (status? : Option Int)
  | killed
  deriving Repr, DecidableEq

namespace Command.Exit

/-- The status of a command that ended by itself. -/
def statusText : Option Int → String
  | some status => s!"Some({status})"
  | none => "None"

/-- The text of an end. -/
def text : Exit → String
  | completed status? => s!"Completed({statusText status?})"
  | killed => "Killed"

/-- The largest code of a process. -/
def maxCode : Int := 255

/-- The code with which the service ends: the status of the command if it is one of a
process, and otherwise one. -/
def code : Exit → Nat
  | completed (some status) => if 0 ≤ status && status ≤ maxCode then status.toNat else 1
  | completed none => 1
  | killed => 1

/-- Whether the end counts as a success of the job. -/
def isSuccess : Exit → Bool
  | completed (some status) => status == 0
  | completed none => false
  | killed => true

end Command.Exit

end Leasehold
