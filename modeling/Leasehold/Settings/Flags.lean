/-!
# Flags

The command line has flags, each with a value, and behind them the command to run.
Everything from the first word that is no flag belongs to the command.

* `Flag`: the flags.
* `Flags`: the values of the flags, and the command.
* `Flags.Stop`: why a command line is not accepted.
* `Flags.ofArguments`: the reading of a command line.
-/

namespace Leasehold

/-- A flag with a value. -/
inductive Flag where
  | config
  | name
  | interval
  | identity
  | storage
  | databaseUrl
  deriving Repr, DecidableEq

namespace Flag

/-- The flags. -/
def all : List Flag := [config, name, interval, identity, storage, databaseUrl]

/-- The long name of a flag. -/
def long : Flag → String
  | config => "config"
  | name => "name"
  | interval => "class"
  | identity => "identity"
  | storage => "storage"
  | databaseUrl => "db-url"

/-- The letter of a flag that has one. -/
def letter? : Flag → Option Char
  | config => some 'c'
  | name => some 'n'
  | storage => some 's'
  | _ => none

/-- What messages call the value of a flag. -/
def valueName : Flag → String
  | config => "CONFIG_FILE"
  | name => "NAME"
  | interval => "CLASS"
  | identity => "IDENTITY"
  | storage => "STORAGE"
  | databaseUrl => "DATABASE_URL"

/-- A flag with its value as messages show it. -/
def usage (flag : Flag) : String := s!"--{flag.long} <{flag.valueName}>"

/-- The flag of a long name. -/
def ofLong? (name : String) : Option Flag := all.find? fun flag => flag.long == name

/-- The flag of a letter. -/
def ofLetter? (letter : Char) : Option Flag := all.find? fun flag => flag.letter? == some letter

/-- The letter that asks for help. -/
def helpLetter : Char := 'h'

end Flag

/-- The values of the flags in the order in which they were given, and the command. -/
structure Flags where
  values : List (Flag × String)
  command : List String
  deriving Repr, DecidableEq

/-- Why a command line is not accepted: it asks for help, a flag has no value, a flag is
given twice, or the flag for help has a value. -/
inductive Flags.Stop where
  | help
  | valueMissing (flag : Flag)
  | repeated (flag : Flag)
  | helpWithValue (value : String)
  deriving Repr, DecidableEq

namespace Flags

/-- The message about a command line; there is none with the help. -/
def Stop.message? : Stop → Option String
  | help => none
  | valueMissing flag =>
    some s!"error: a value is required for '{flag.usage}' but none was supplied"
  | repeated flag => some s!"error: the argument '{flag.usage}' cannot be used multiple times"
  | helpWithValue value =>
    some s!"error: unexpected value '{value}' for '--help' found; no more were expected"

/-- What an argument is: the end of the flags, a call for help, a flag with its value in
the same or in the next argument, or the first word of the command. -/
inductive Argument where
  | separator
  | help
  | helpWithValue (value : String)
  | complete (flag : Flag) (value : String)
  | awaiting (flag : Flag)
  | word
  deriving Repr, DecidableEq

namespace Argument

/-- An argument behind two dashes. -/
def ofLong (text : String) : Argument :=
  match text.splitOn "=" with
  | [name] =>
    if name == "help" then help
    else
      match Flag.ofLong? name with
      | some flag => awaiting flag
      | none => word
  | name :: pieces =>
    let value := "=".intercalate pieces
    if name == "help" then helpWithValue value
    else
      match Flag.ofLong? name with
      | some flag => complete flag value
      | none => word
  | [] => word

/-- Letters behind one dash: all of them have to be known, and the first counts. -/
def ofLetters (letters : List Char) : Argument :=
  if letters.all fun c => c = Flag.helpLetter || (Flag.ofLetter? c).isSome then
    match letters with
    | [] => word
    | c :: value =>
      match Flag.ofLetter? c with
      | some flag => if value.isEmpty then awaiting flag else complete flag (String.ofList value)
      | none => help
  else word

/-- What an argument is. -/
def ofText (text : String) : Argument :=
  match text.toList with
  | ['-', '-'] => separator
  | '-' :: '-' :: name => ofLong (String.ofList name)
  | '-' :: letters => ofLetters letters
  | _ => word

end Argument

/-- The value of a flag. -/
def get? (flags : Flags) (flag : Flag) : Option String := flags.values.lookup flag

/-- The flags with one more, unless it was given before. -/
def add (flags : Flags) (flag : Flag) (value : String) : Except Stop Flags :=
  if (flags.get? flag).isSome then .error (.repeated flag)
  else .ok { flags with values := flags.values ++ [(flag, value)] }

/-- Reads arguments behind those that were read already. -/
def readMore (flags : Flags) : List String → Except Stop Flags
  | [] => .ok flags
  | argument :: rest =>
    match Argument.ofText argument with
    | .separator => .ok { flags with command := rest }
    | .word => .ok { flags with command := argument :: rest }
    | .help => .error .help
    | .helpWithValue value => .error (.helpWithValue value)
    | .complete flag value =>
      match flags.add flag value with
      | .ok flags => readMore flags rest
      | .error stop => .error stop
    | .awaiting flag =>
      match rest with
      | [] => .error (.valueMissing flag)
      | value :: rest =>
        match Argument.ofText value with
        | .word =>
          match flags.add flag value with
          | .ok flags => readMore flags rest
          | .error stop => .error stop
        -- What looks like a flag is no value, and neither is the separator.
        | _ => .error (.valueMissing flag)

/-- Reads the arguments of a command line behind the name of the program. -/
def ofArguments (arguments : List String) : Except Stop Flags := readMore ⟨[], []⟩ arguments

end Flags

end Leasehold
