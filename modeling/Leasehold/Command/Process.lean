/-!
# Processes

What a process does is a list of events with their times, and an end.

* `Process.Event`, `Process.Ending`, `Process`: the parts and the whole.
* `Process.firstSignal?`, `Process.overwritings`: what a process does to others.
* `Process.before`: the events that come before a time.
-/

namespace Leasehold

/-- What a process does while it runs: it writes to its output or its error output, sends a
signal to its parent, or overwrites a file. -/
inductive Process.Event where
  | output (text : String)
  | errorOutput (text : String)
  | signalParent (number : Nat)
  | overwrite (file : String)
  deriving Repr, DecidableEq

/-- How a process ends: with a status, or by a signal. -/
inductive Process.Ending where
  | status (code : Nat)
  | signal (number : Nat)
  deriving Repr, DecidableEq

/-- What a process does, with times in milliseconds from its start. -/
structure Process where
  events : List (Nat × Process.Event)
  duration : Nat
  ending : Process.Ending
  deriving Repr, DecidableEq

namespace Process

/-- A process that ends at once with a status. -/
def immediate (status : Nat) : Process := ⟨[], 0, .status status⟩

/-- A process that writes a complaint and ends at once with a status. -/
def complaint (text : String) (status : Nat) : Process :=
  ⟨[(0, .errorOutput text)], 0, .status status⟩

/-- The status of an ending as a parent sees it. -/
def Ending.status? : Ending → Option Nat
  | status code => some code
  | signal _ => none

/-- The status of an ending as a shell sees it. -/
def Ending.shellStatus : Ending → Nat
  | status code => code
  | signal number => 128 + number

/-- The output among some events. -/
def outputOf (events : List (Nat × Event)) : String :=
  String.join (events.filterMap fun event =>
    match event.2 with
    | .output text => some text
    | _ => none)

/-- The error output among some events. -/
def errorOutputOf (events : List (Nat × Event)) : String :=
  String.join (events.filterMap fun event =>
    match event.2 with
    | .errorOutput text => some text
    | _ => none)

/-- Signals that do not end a process: none at all, and those that are ignored unless a
process asks for them. -/
def harmless : List Nat := [0, 17, 18, 23, 28]

/-- The signals by name. -/
def signalNames : List (String × Nat) :=
  [("HUP", 1), ("INT", 2), ("QUIT", 3), ("ILL", 4), ("TRAP", 5), ("ABRT", 6), ("BUS", 7),
    ("FPE", 8), ("KILL", 9), ("USR1", 10), ("SEGV", 11), ("USR2", 12), ("PIPE", 13),
    ("ALRM", 14), ("TERM", 15), ("STKFLT", 16), ("CHLD", 17), ("CONT", 18), ("STOP", 19),
    ("TSTP", 20), ("TTIN", 21), ("TTOU", 22), ("URG", 23), ("XCPU", 24), ("XFSZ", 25),
    ("VTALRM", 26), ("PROF", 27), ("WINCH", 28), ("IO", 29), ("PWR", 30), ("SYS", 31)]

/-- The signal of a name or a number. -/
def signalOfText? (text : String) : Option Nat :=
  let upper := text.toUpper
  let name := if upper.startsWith "SIG" then (upper.drop 3).toString else upper
  match signalNames.lookup name with
  | some number => some number
  | none => if text.toList.all Char.isDigit then text.toNat? else none

/-- The signals that ask a service to stop. -/
def stopSignals : List Nat := [2, 15]

/-- When a process first sends its parent a signal that some test selects. -/
def firstSignal? (process : Process) (test : Nat → Bool) : Option (Nat × Nat) :=
  process.events.findSome? fun (time, event) =>
    match event with
    | .signalParent number => if test number then some (time, number) else none
    | _ => none

/-- The times at which a process overwrites a file that some test selects. -/
def overwritings (process : Process) (test : String → Bool) : List Nat :=
  process.events.filterMap fun (time, event) =>
    match event with
    | .overwrite file => if test file then some time else none
    | _ => none

/-- The events that come no later than a time. -/
def before (process : Process) (time : Nat) : List (Nat × Event) :=
  process.events.filter fun event => event.1 ≤ time

end Process

end Leasehold
