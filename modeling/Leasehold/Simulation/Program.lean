import Leasehold.Data.Folder
import Leasehold.Settings.Environment
import Leasehold.Simulation.Shell.Run

/-!
# Programs

The programs that a simulated machine has, and the processes that they make.

* `Program.nameOf?`: the program that a command names.
* `Program.sleepMillis?`: how long `sleep` waits.
* `Program.start`: the process of a command.
-/

namespace Leasehold

namespace Program

/-- The programs of the machine. -/
def installed : List String := ["true", "false", "sleep", "sh", "test", "[", "echo"]

/-- The folders of programs. -/
def folders : List String := ["/bin/", "/usr/bin/"]

/-- The program that a command names, alone or with its folder. -/
def nameOf? (command : String) : Option String :=
  installed.find? fun name => command == name || folders.any fun folder => command == folder ++ name

/-- The seconds in a unit of `sleep`. -/
def unitSeconds? (unit : List Char) : Option Nat :=
  match unit with
  | [] => some 1
  | ['s'] => some 1
  | ['m'] => some 60
  | ['h'] => some 3600
  | ['d'] => some 86400
  | _ => none

/-- The milliseconds of a time such as `0.3` or `2m`, rounded up. -/
def sleepMillis? (text : String) : Option Nat :=
  let cs := text.toList
  let whole := cs.takeWhile Char.isDigit
  let rest := cs.drop whole.length
  let (fraction, unit) :=
    match rest with
    | '.' :: rest =>
      let fraction := rest.takeWhile Char.isDigit
      (fraction, rest.drop fraction.length)
    | rest => ([], rest)
  if whole.isEmpty && fraction.isEmpty then none
  else
    (unitSeconds? unit).map fun seconds =>
      let scale := Nat.pow 10 fraction.length
      let millis := Word.ofDigits (whole ++ fraction) * seconds * 1000
      (millis + (scale - 1)) / scale

/-- The process of `sleep`. -/
def sleep (arguments : List String) : Process :=
  match arguments with
  | [] => .complaint "sleep: missing operand\n" 1
  | arguments =>
    match arguments.mapM sleepMillis? with
    | some times => ⟨[], times.foldl Nat.add 0, .status 0⟩
    | none =>
      let wrong := (arguments.find? fun text => (sleepMillis? text).isNone).getD ""
      .complaint ("sleep: invalid time interval '" ++ wrong ++ "'\n") 1

/-- The process of a shell. -/
def shell (folder : Folder) (environment : Variables) (spawn : Shell.Spawner)
    (command : String) : List String → Process
  | "-c" :: text :: name :: arguments =>
    Shell.runScript spawn environment.list name arguments text
  | ["-c", text] => Shell.runScript spawn environment.list command [] text
  | ["-c"] => .complaint (command ++ ": 0: -c requires an argument\n") 2
  | file :: arguments =>
    match folder.content? file with
    | some text => Shell.runScript spawn environment.list file arguments text
    | none => .complaint (command ++ ": 0: cannot open " ++ file ++ ": No such file\n") 2
  | [] => .immediate 0

/-- Whether a text holds the character that ends the texts a process is given. -/
def holdsNull (text : String) : Bool := text.toList.contains '\x00'

/-- The process of a command on a machine whose shells start one another to a depth;
`none` if there is no such program or a word cannot be given to it. -/
def start (folder : Folder) (environment : Variables) : Nat → Shell.Spawner
  | 0, _ => none
  | _, [] => none
  | depth + 1, command :: arguments =>
    if (command :: arguments).any holdsNull then none
    else (nameOf? command).map fun name =>
      match name with
      | "true" => .immediate 0
      | "false" => .immediate 1
      | "sleep" => sleep arguments
      | "sh" => shell folder environment (start folder environment depth) command arguments
      | "echo" => ⟨[(0, .output (Shell.echoed arguments))], 0, .status 0⟩
      | "[" => .immediate (Shell.evaluate arguments.dropLast)
      | _ => .immediate (Shell.evaluate arguments)

/-- How deeply shells start one another. -/
def deepest : Nat := 64

end Program

end Leasehold
