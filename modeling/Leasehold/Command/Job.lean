import Leasehold.Command.Exit
import Leasehold.Command.Process

/-!
# The command as a job

The job of the service runs a command while the lock is held.  It ends with the command,
or kills it when its signal is cancelled.

* `Command`: a program and its arguments, `Command.ofWords?` their reading.
* `Command.Failure`: why a job failed.
* `Command.outcome`: how a command ends whose process is known.
* `Command.conclude`: what the job reports.
-/

namespace Leasehold

/-- A program and its arguments. -/
structure Command where
  program : String
  arguments : List String
  deriving Repr, DecidableEq

namespace Command

/-- Why a job failed. -/
inductive Failure where
  | noCommand
  | notStarted (program : String)
  | ended (program : String) (status? : Option Int)
  deriving Repr, DecidableEq

/-- The text of a failure. -/
def Failure.message : Failure → String
  | noCommand => "empty command"
  | notStarted program => s!"failed to spawn '{program}'"
  | ended program status? => s!"'{program}' exited with status {Exit.statusText status?}"

/-- The command of some words. -/
def ofWords? : List String → Except Failure Command
  | [] => .error .noCommand
  | program :: arguments => .ok ⟨program, arguments⟩

/-- The words of a command. -/
def words (command : Command) : List String := command.program :: command.arguments

/-- How a process ends when it is cancelled at a time, if it is: it is killed unless it
has ended before. -/
def outcome (process : Process) (cancelled? : Option Nat) : Exit :=
  let completed : Exit := .completed (process.ending.status?.map Int.ofNat)
  match cancelled? with
  | some time => if process.duration < time then completed else .killed
  | none => completed

/-- How a command ends: one that could not be started has no status. -/
def exitOf (process? : Option Process) (cancelled? : Option Nat) : Exit :=
  match process? with
  | none => .completed none
  | some process => outcome process cancelled?

/-- What the job reports of an end. -/
def conclude (command : Command) (started : Bool) (ending : Exit) : Except Failure Unit :=
  if !started then .error (.notStarted command.program)
  else
    match ending with
    | .killed => .ok ()
    | .completed status? =>
      if (Exit.completed status?).isSuccess then .ok ()
      else .error (.ended command.program status?)

end Command

end Leasehold
