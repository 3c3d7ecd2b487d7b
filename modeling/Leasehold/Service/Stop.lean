import Leasehold.Command.Exit
import Leasehold.Log.Entry
import Leasehold.Manager.Basic
import Leasehold.Signal.Deadline

/-!
# The end of the service

The service runs one command under one lock.  It waits until a signal asks it to stop,
until its lease is lost, or until the command has ended, and then shuts its manager
down.

* `Service.Stop`: why the service stops, `Service.Stop.code` its code.
* `Service.Pending`: what has reached the service, `Service.Pending.stops` what it may
  stop for.
* `Service.leave`: the shutdown of the manager, and whether the command is waited for.
* `Service.await`: the wait for the command.
-/

namespace Leasehold

/-- Why the service stops. -/
inductive Service.Stop where
  | signal
  | leaseLost (loss : LeaseLoss)
  | commandEnded (ending : Command.Exit)
  deriving Repr, DecidableEq

/-- What has reached the service: a signal, a lost lease, the end of the command. -/
structure Service.Pending where
  signalled : Bool
  loss? : Option LeaseLoss
  ending? : Option Command.Exit
  deriving Repr, DecidableEq

namespace Service

/-- The code with which the service ends: none for a signal, one for a lost lease, and
otherwise the one of the command. -/
def Stop.code : Stop → Nat
  | signal => 0
  | leaseLost _ => 1
  | commandEnded ending => ending.code

/-- Whether the command has ended. -/
def Stop.isCommandEnd : Stop → Bool
  | commandEnded _ => true
  | _ => false

/-- What the service may stop for; of several it takes any. -/
def Pending.stops (pending : Pending) : List Stop :=
  (if pending.signalled then [.signal] else [])
    ++ pending.loss?.toList.map .leaseLost
    ++ pending.ending?.toList.map .commandEnded

/-- Whether the command is waited for: the lock is still held, so that the command was
just cancelled, and it has not ended. -/
def awaitsCommand (state : LockState) (stop : Stop) : Bool :=
  state == .held && !stop.isCommandEnd

/-- The shutdown of the manager, and whether the command is waited for. -/
def leave (manager : Manager) (name : String) (stop : Stop) :
    Bool × Manager × List Effect :=
  (awaitsCommand (manager.state name) stop, manager.shutdown)

/-- What the service waits for. -/
def awaited : String := "command to exit"

/-- What is logged when the command was not seen to end. -/
def unseenEnd (name : String) : Log.Entry :=
  { level := .warn
    target := "clusterlock"
    message := "Command did not report an exit status"
    fields := [("lock", name)] }

/-- The wait for a command that ends after some milliseconds, or never, within a limit:
how long it takes, and what is logged. -/
def await (name : String) (ready? : Option Nat) (limit : Span) : Nat × List Log.Entry :=
  let (inTime, time) := Deadline.await ready? limit
  (time, if inTime then [] else [Deadline.expired limit awaited, unseenEnd name])

end Service

end Leasehold
