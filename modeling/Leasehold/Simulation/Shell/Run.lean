import Leasehold.Command.Process
import Leasehold.Simulation.Shell.Script

/-!
# Running shell scripts

A shell runs the commands of a script one after another.  A few commands are its own,
and for the others it starts processes.

* `Shell`: a shell between two commands.
* `Shell.evaluate`: the status of a test.
* `Shell.runScript`: the process that a script makes.
-/

namespace Leasehold

/-- A shell between two commands: its name and arguments, its variables, the status of
the last command, and what it did so far. -/
structure Shell where
  name : String
  arguments : List String
  environment : List (String × String)
  status : Nat
  now : Nat
  events : List (Nat × Process.Event)
  ending? : Option Process.Ending
  deriving Repr

namespace Shell

/-- A way to start a process; `none` if there is no such program. -/
abbrev Spawner := List String → Option Process

/-- The number of the shell's own process. -/
def ownNumber : String := "2001"

/-- The number of the process that started the shell. -/
def parentNumber : String := "2000"

/-! ## Words -/

/-- The text of a parameter. -/
def parameter (shell : Shell) (name : String) : String :=
  if name == "?" then toString shell.status
  else if name == "$" then ownNumber
  else if name == "#" then toString shell.arguments.length
  else if name == "@" || name == "*" then " ".intercalate shell.arguments
  else if name == "0" then shell.name
  else
    match name.toNat? with
    | some n => shell.arguments[n - 1]?.getD ""
    | none =>
      match shell.environment.lookup name with
      | some text => text
      | none => if name == "PPID" then parentNumber else ""

/-- The pieces of a text between blanks, with whether blanks stand at its two ends. -/
def fields (text : String) : List String :=
  (text.toList.splitBy fun a b => a.isWhitespace == b.isWhitespace).filterMap fun run =>
    if run.all Char.isWhitespace then none else some (String.ofList run)

/-- Words under construction: the finished ones, and the one that is still open. -/
structure Expansion where
  finished : List String
  opened? : Option String
  deriving Repr

namespace Expansion

/-- Adds a text to the open word. -/
def add (expansion : Expansion) (text : String) : Expansion :=
  { expansion with opened? := some (expansion.opened?.getD "" ++ text) }

/-- Ends the open word. -/
def close (expansion : Expansion) : Expansion :=
  match expansion.opened? with
  | some word => ⟨expansion.finished ++ [word], none⟩
  | none => expansion

/-- Adds some words; the first joins the open word, and the last stays open. -/
def addFields (expansion : Expansion) : List String → Expansion
  | [] => expansion
  | [word] => expansion.add word
  | word :: rest => addFields (expansion.add word).close rest

end Expansion

/-- Adds a piece of a word. -/
def expandPiece (shell : Shell) (expansion : Expansion) : Piece → Expansion
  | .literal text _ => expansion.add text
  | .parameter name true =>
    if name == "@" then
      if shell.arguments.isEmpty then expansion else expansion.addFields shell.arguments
    else expansion.add (shell.parameter name)
  | .parameter name false => expansion.addFields (fields (shell.parameter name))

/-- The words that a word stands for. -/
def expandWord (shell : Shell) (word : Word) : List String :=
  (word.foldl shell.expandPiece ⟨[], none⟩).close.finished

/-- The words of a command. -/
def expand (shell : Shell) (words : List Word) : List String := words.flatMap shell.expandWord

/-! ## Tests -/

/-- The integer of an operand. -/
def operand? (text : String) : Option Int := text.trimAscii.toString.toInt?

/-- A test of two operands. -/
def compareTest (a operator b : String) : Option Bool :=
  if operator == "=" then some (a == b)
  else if operator == "!=" then some (a != b)
  else
    match operand? a, operand? b with
    | some m, some n =>
      if operator == "-eq" then some (m == n)
      else if operator == "-ne" then some (m != n)
      else if operator == "-lt" then some (m < n)
      else if operator == "-le" then some (m ≤ n)
      else if operator == "-gt" then some (n < m)
      else if operator == "-ge" then some (n ≤ m)
      else none
    | _, _ => none

/-- The answer of a test, if it is one. -/
def test? : List String → Option Bool
  | [] => some false
  | [text] => some (!text.isEmpty)
  | ["!", text] => some text.isEmpty
  | [operator, text] =>
    if operator == "-n" then some (!text.isEmpty)
    else if operator == "-z" then some text.isEmpty
    else none
  | [a, operator, b] =>
    match compareTest a operator b with
    | some answer => some answer
    | none => if a == "!" then (test? [operator, b]).map (!·) else none
  | "!" :: rest => (test? rest).map (!·)
  | _ => none

/-- The status of a test. -/
def evaluate (arguments : List String) : Nat :=
  match test? arguments with
  | some true => 0
  | some false => 1
  | none => 2

/-- What `echo` writes. -/
def echoed : List String → String
  | "-n" :: arguments => " ".intercalate arguments
  | arguments => " ".intercalate arguments ++ "\n"

/-! ## Commands -/

/-- Where the two outputs of a command go; `none` is a file. -/
structure Outputs where
  output : Option Nat
  errorOutput : Option Nat
  deriving Repr

/-- Applies a redirection. -/
def Outputs.redirect (outputs : Outputs) (redirection : Redirection) : Outputs :=
  let target :=
    match redirection.destination with
    | .file _ _ => none
    | .output 1 => outputs.output
    | .output 2 => outputs.errorOutput
    | .output _ => none
  if redirection.output = 1 then { outputs with output := target }
  else { outputs with errorOutput := target }

/-- A text on one of the outputs, if it does not go to a file. -/
def eventOn (target : Option Nat) (text : String) : List Process.Event :=
  match target with
  | some 1 => [.output text]
  | some _ => [.errorOutput text]
  | none => []

/-- An event of a command after its redirections. -/
def Outputs.event (outputs : Outputs) : Process.Event → List Process.Event
  | .output text => eventOn outputs.output text
  | .errorOutput text => eventOn outputs.errorOutput text
  | .signalParent number => [.signalParent number]
  | .overwrite file => [.overwrite file]

/-- What a command writes after its redirections. -/
def Outputs.written (outputs : Outputs) : Process.Event → List Process.Event
  | .signalParent _ => []
  | event => outputs.event event

/-- What a redirection does to its file before the command runs. -/
def overwrites (shell : Shell) (redirection : Redirection) : List Process.Event :=
  match redirection.destination with
  | .file name false => [.overwrite (" ".intercalate (shell.expandWord name))]
  | _ => []

/-- The outputs of a command. -/
def outputsOf (redirections : List Redirection) : Outputs :=
  redirections.foldl Outputs.redirect ⟨some 1, some 2⟩

/-- Adds events that happen now. -/
def emit (shell : Shell) (events : List Process.Event) : Shell :=
  { shell with events := shell.events ++ events.map fun event => (shell.now, event) }

/-- The shell after a command with a status. -/
def done (shell : Shell) (status : Nat) : Shell := { shell with status := status }

/-- The shell after a complaint. -/
def complain (shell : Shell) (outputs : Outputs) (text : String) (status : Nat) : Shell :=
  (shell.emit (outputs.event (.errorOutput (shell.name ++ ": 1: " ++ text ++ "\n")))).done status

/-- Sends a signal to a process by its number. -/
def signalTo (shell : Shell) (outputs : Outputs) (signal : Nat) (target : String) : Shell :=
  if target == ownNumber then
    if Process.harmless.contains signal then shell.done 0
    else { shell with ending? := some (.signal signal) }
  else if target == parentNumber then (shell.emit [.signalParent signal]).done 0
  else shell.complain outputs "kill: No such process" 1

/-- The command `kill`. -/
def kill (shell : Shell) (outputs : Outputs) : List String → Shell
  | ["-s", name, target] =>
    match Process.signalOfText? name with
    | some signal => shell.signalTo outputs signal target
    | none => shell.complain outputs ("kill: invalid signal number or name: " ++ name) 2
  | [option, target] =>
    if option.startsWith "-" then
      match Process.signalOfText? (option.drop 1).toString with
      | some signal => shell.signalTo outputs signal target
      | none => shell.complain outputs ("kill: Illegal option " ++ option) 2
    else shell.complain outputs "kill: No such process" 1
  | [target] => shell.signalTo outputs 15 target
  | _ =>
    shell.complain outputs
      "kill: Usage: kill [-s sigspec | -signum | -sigspec] [pid | job]..." 2

/-- The status that `exit` and the like take. -/
def statusOf? (text : String) : Option Nat :=
  if text.toList.all Char.isDigit then text.toNat?.map (· % 256) else none

/-- Waits for a process that was started.  A signal that the process sends to its parent
ends the shell. -/
def follow (shell : Shell) (outputs : Outputs) (process : Process) : Shell :=
  let fatal := process.firstSignal? fun number => !Process.harmless.contains number
  let seen :=
    match fatal with
    | some (time, _) => process.before time
    | none => process.events
  let placed :=
    seen.flatMap fun (time, event) =>
      (outputs.written event).map fun event => (shell.now + time, event)
  let shell := { shell with events := shell.events ++ placed }
  match fatal with
  -- The signal ends the shell in the middle of its wait.
  | some (time, number) =>
    { shell with now := shell.now + time, ending? := some (.signal number) }
  | none =>
    { shell with now := shell.now + process.duration, status := process.ending.shellStatus }

/-- Becomes a process that was started. -/
def become (shell : Shell) (outputs : Outputs) (process : Process) : Shell :=
  let placed :=
    process.events.flatMap fun (time, event) =>
      (outputs.event event).map fun event => (shell.now + time, event)
  { shell with
    events := shell.events ++ placed
    now := shell.now + process.duration
    ending? := some process.ending }

/-- Whether a word sets a variable. -/
def assignment? (text : String) : Option (String × String) :=
  match text.splitOn "=" with
  | name :: piece :: pieces =>
    match name.toList with
    | c :: cs =>
      if (c.isAlpha || c = '_') && cs.all isNameChar then
        some (name, "=".intercalate (piece :: pieces))
      else none
    | [] => none
  | _ => none

/-- Runs a command. -/
def perform (spawn : Spawner) (shell : Shell) (outputs : Outputs) : List String → Shell
  | [] => shell.done 0
  | name :: arguments =>
    match name, arguments with
    | ":", _ => shell.done 0
    | "true", _ => shell.done 0
    | "false", _ => shell.done 1
    | "exit", [] => { shell with ending? := some (.status shell.status) }
    | "exit", text :: _ =>
      match statusOf? text with
      | some status => { shell with ending? := some (.status status) }
      | none =>
        { shell.complain outputs ("exit: Illegal number: " ++ text) 2 with
          ending? := some (.status 2) }
    | "kill", arguments => shell.kill outputs arguments
    | "test", arguments => shell.done (evaluate arguments)
    | "[", arguments =>
      match arguments.getLast? with
      | some "]" => shell.done (evaluate arguments.dropLast)
      | _ => shell.complain outputs "[: missing ]" 2
    | "echo", arguments =>
      (shell.emit (outputs.event (.output (echoed arguments)))).done 0
    | "exec", [] => shell.done 0
    | "exec", command :: rest =>
      match spawn (command :: rest) with
      | some process => shell.become outputs process
      | none =>
        { shell.complain outputs ("exec: " ++ command ++ ": not found") 127 with
          ending? := some (.status 127) }
    | name, arguments =>
      match arguments, assignment? name with
      | [], some binding =>
        { shell with environment := binding :: shell.environment, status := 0 }
      | _, _ =>
        match spawn (name :: arguments) with
        | some process => shell.follow outputs process
        | none => shell.complain outputs (name ++ ": not found") 127

/-- Runs a statement if its condition holds. -/
def runStatement (spawn : Spawner) (shell : Shell) (statement : Statement) : Shell :=
  let runs :=
    match statement.condition with
    | .always => true
    | .onSuccess => shell.status == 0
    | .onFailure => shell.status != 0
  if shell.ending?.isSome || !runs then shell
  else
    perform spawn (shell.emit (statement.redirections.flatMap shell.overwrites))
      (outputsOf statement.redirections) (shell.expand statement.words)

/-- The process that a shell made. -/
def toProcess (shell : Shell) : Process :=
  { events := shell.events
    duration := shell.now
    ending := shell.ending?.getD (.status shell.status) }

/-- The process of a shell that runs a script with some variables. -/
def runScript (spawn : Spawner) (environment : List (String × String)) (name : String)
    (arguments : List String) (text : String) : Process :=
  match scriptOfText? text with
  | none => Process.complaint (name ++ ": 1: Syntax error\n") 2
  | some script =>
    (script.foldl (runStatement spawn) ⟨name, arguments, environment, 0, 0, [], none⟩).toProcess

end Shell

end Leasehold
