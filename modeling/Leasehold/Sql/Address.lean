import Leasehold.Settings.File
import Leasehold.Sql.Sqlite
import Leasehold.Text.Quoted

/-!
# Database addresses

An address is a scheme and what follows it.  Addresses of SQLite name a file of the
working directory, or a database in memory.

* `Sql.Address.scheme?`: the scheme of an address that can be read.
* `Sql.Address.Sqlite`: what an address of SQLite says.
* `Sql.Address.connect`: the database at an address.
-/

namespace Leasehold

namespace Sql

namespace Address

/-- A character of a scheme behind the first. -/
def isSchemeChar (c : Char) : Bool := c.isAlphanum || c = '+' || c = '-' || c = '.'

/-- The scheme of an address, in lower case. -/
def scheme? (address : String) : Option String :=
  let cs := (address.toList.dropWhile fun c => c.toNat ≤ 32)
  let scheme := cs.takeWhile isSchemeChar
  match cs.head?, cs.drop scheme.length with
  | some c, ':' :: _ => if c.isAlpha then some (String.ofList scheme).toLower else none
  | _, _ => none

/-- The schemes of databases behind a server. -/
def serverSchemes : List String := ["mysql", "postgres", "postgresql"]

/-- What an address of SQLite says: the file, or none for a database in memory, and
whether a missing file is created. -/
structure Sqlite where
  file? : Option String
  create : Bool
  deriving Repr, DecidableEq

/-- The rest of a text behind a beginning, however often it stands there. -/
def behindAll (beginning : List Char) : Nat → List Char → List Char
  | 0, cs => cs
  | fuel + 1, cs =>
    if !beginning.isEmpty && beginning.isPrefixOf cs then
      behindAll beginning fuel (cs.drop beginning.length)
    else cs

/-- The values of a parameter for a truth value. -/
def truthWords : List String := ["true", "1", "false", "0"]

/-- What is said of a parameter with a value that it does not take. -/
def refuse (name value : String) : DatabaseFault :=
  .refusedAddress (s!"unknown value {Text.quoted value} for " ++ s!"`{name}`")

/-- Takes a parameter of an address. -/
def Sqlite.withParameter (address : Sqlite) (name value : String) :
    Except DatabaseFault Sqlite :=
  if name == "mode" then
    if value == "ro" || value == "rw" then .ok address
    else if value == "rwc" then .ok { address with create := true }
    else if value == "memory" then .ok { address with file? := none }
    else .error (refuse name value)
  else if name == "cache" then
    if value == "private" || value == "shared" then .ok address else .error (refuse name value)
  else if name == "immutable" then
    if truthWords.contains value then .ok address else .error (refuse name value)
  else if name == "vfs" then .ok address
  else
    .error (.refusedAddress s!"unknown query parameter `{name}` while parsing connection URL")

/-- The parameters behind a question mark. -/
def parametersOf (text : String) : List (String × String) :=
  ((text.splitOn "&").filter fun part => !part.isEmpty).map fun part =>
    match part.splitOn "=" with
    | name :: pieces => (name, "=".intercalate pieces)
    | [] => (part, "")

/-- What an address of SQLite says. -/
def Sqlite.ofAddress (address : String) : Except DatabaseFault Sqlite :=
  let cs := address.toList
  let rest :=
    behindAll "sqlite:".toList cs.length (behindAll "sqlite://".toList cs.length cs)
  let file := String.ofList (rest.takeWhile (· != '?'))
  let start : Sqlite := ⟨if file == ":memory:" then none else some file, false⟩
  let parameters := String.ofList ((rest.dropWhile (· != '?')).drop 1)
  (parametersOf parameters).foldlM (fun address (name, value) =>
    address.withParameter name value) start

/-- What is said of a file that cannot be opened. -/
def unopened : DatabaseFault := .unreachable 14 "unable to open database file"

/-- Whether a file can be opened: it is there, or it is to be created in a folder that is
there.  No file at all stands for a temporary one. -/
def Sqlite.opens (address : Sqlite) (folder : Folder) : Bool :=
  match address.file? with
  | none => true
  | some file =>
    file.isEmpty || (folder.content? file).isSome
      || (address.create && !file.startsWith "/" && !folder.hasDirectory (Folder.parts file)
        && folder.hasDirectory (Folder.parts file).dropLast)

/-- The database at an address, seen from a folder.  No server ever
answers here. -/
def connect (folder : Folder) (address : String) : Except DatabaseFault Sqlite.Database :=
  match scheme? address with
  | none => .error (.unreadableAddress address)
  | some scheme =>
    if scheme == "sqlite" then
      match Sqlite.ofAddress address with
      | .error e => .error e
      | .ok parsed => if parsed.opens folder then .ok .empty else .error unopened
    else if serverSchemes.contains scheme then .error .timedOut
    else .error (.unsupportedAddress address)

end Address

end Sql

end Leasehold
