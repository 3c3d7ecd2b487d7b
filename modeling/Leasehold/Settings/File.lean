import Leasehold.Data.Folder
import Leasehold.Json.Parser
import Leasehold.Number.Word
import Leasehold.Settings.Value
import Leasehold.Yaml.Node

/-!
# Configuration files

* `Folder.locate?`: the file that a path names, with or without its extension.
* `Settings.Format`: the formats of files.
* `Settings.Loader`: a way to load the file that a path names.
* `Settings.Format.read?`: the table that a file holds.
* `Settings.Loader.standard`: the loader of this library.

What is done with the entries of a file does not hang on the way in which they are loaded, and is
said of every loader.  The one of this library reads YAML and JSON.  It finds files of the other
formats as well, and reports them as unreadable instead of passing over them; so it does with
YAML that has anchors, aliases, tags, directives, explicit keys or block scalars.
-/

namespace Leasehold

/-- A format of configuration files. -/
inductive Settings.Format where
  | yaml
  | json
  | toml
  | ini
  | ron
  | json5
  deriving Repr, DecidableEq

namespace Folder

/-- What follows the last dot of the last part of a path, unless nothing precedes it. -/
def extension? (path : String) : Option String :=
  match ((parts path).getLast?.getD "").splitOn "." with
  | [_] => none
  | pieces =>
    if pieces.dropLast.all String.isEmpty && pieces.length = 2 then none else pieces.getLast?

/-- The extensions of the formats. -/
def extensions : List (String × Settings.Format) :=
  [("yml", .yaml), ("yaml", .yaml), ("json", .json), ("toml", .toml), ("ini", .ini), ("ron", .ron),
    ("json5", .json5)]

/-- The path, format and content of the file that a path names.  An existing file has to
have a known extension; otherwise the extensions are tried in turn. -/
def locate? (folder : Folder) (path : String) : Option (String × Settings.Format × String) :=
  let shown := normal path
  match folder.content? path with
  | some content =>
    ((extension? path).bind fun e => extensions.lookup e).map fun format => (shown, format, content)
  | none =>
    extensions.findSome? fun (extension, format) =>
      let candidate := shown ++ "." ++ extension
      (folder.content? candidate).map fun content => (candidate, format, content)

/-- The paths at which the file that a path names may lie. -/
def candidates (path : String) : List String :=
  normal path :: extensions.map fun entry => normal path ++ "." ++ entry.1

end Folder

namespace Settings

/-- What a plain scalar of a file stands for. -/
def scalarOfPlain? (text : String) : Option Setting.Scalar :=
  match Yaml.Scalar.ofPlain text with
  | .null => some .null
  | .bool b => some (.bool b)
  | .int n => some (.int n)
  | .real text => (Binary64.ofText? text).map .real
  | .text text => some (.text text)

/-- The meaning of a key, by which keys are told apart. -/
def keyScalar? : Yaml.Node → Option Yaml.Scalar
  | .plain text => some (.ofPlain text)
  | .quoted text => some (.text text)
  | _ => none

/-- The name that a key writes. -/
def keyName? : Yaml.Scalar → Option String
  | .text text => some text
  | .int n => some (toString n)
  | .bool b => some (if b then "true" else "false")
  | .real text => some text
  | .null => none

/-- Whether no key of a map is written twice. -/
def distinctKeys (entries : List (Yaml.Node × Yaml.Node)) : Bool :=
  let keys := entries.map fun entry => keyScalar? entry.1
  decide keys.Nodup

mutual

/-- The value of a node from a source. -/
def settingOfNode? (source : String) : Yaml.Node → Option Setting
  | .plain text => (scalarOfPlain? text).map fun s => .scalar s (some source)
  | .quoted text => some (.scalar (.text text) (some source))
  | .list items => (settingsOfNodes? source items).map fun items => .list items (some source)
  | .map entries =>
    if distinctKeys entries then (settingsOfEntries? source entries).map .table else none

/-- The values of some nodes. -/
def settingsOfNodes? (source : String) : List Yaml.Node → Option (List Setting)
  | [] => some []
  | node :: rest =>
    match settingOfNode? source node, settingsOfNodes? source rest with
    | some value, some values => some (value :: values)
    | _, _ => none

/-- The entries of a map. -/
def settingsOfEntries? (source : String) :
    List (Yaml.Node × Yaml.Node) → Option (List (String × Setting))
  | [] => some []
  | (key, node) :: rest =>
    match (keyScalar? key).bind keyName?, settingOfNode? source node,
        settingsOfEntries? source rest with
    | some name, some value, some entries => some ((name, value) :: entries)
    | _, _, _ => none

end

/-- The scalar of a JSON number. -/
def scalarOfNumeral? (numeral : Json.Numeral) : Option Setting.Scalar :=
  match numeral.integer? with
  | some n => some (if n ≤ Word.maxInt 64 then .int n else .unsigned n.toNat)
  | none => numeral.binary64?.map .real

mutual

/-- The value of a JSON value from a source. -/
def settingOfJson? (source : String) : Json → Option Setting
  | .null => some (.scalar .null (some source))
  | .bool b => some (.scalar (.bool b) (some source))
  | .number numeral => (scalarOfNumeral? numeral).map fun s => .scalar s (some source)
  | .string text => text.decoded.map fun t => .scalar (.text t) (some source)
  | .array items => (settingsOfItems? source items).map fun items => .list items (some source)
  | .object members => (settingsOfMembers? source members).map .table

/-- The values of some JSON values. -/
def settingsOfItems? (source : String) : List Json → Option (List Setting)
  | [] => some []
  | item :: rest =>
    match settingOfJson? source item, settingsOfItems? source rest with
    | some value, some values => some (value :: values)
    | _, _ => none

/-- The entries of a JSON object; of two members with one name the later counts. -/
def settingsOfMembers? (source : String) :
    List (Json.Text × Json) → Option (List (String × Setting))
  | [] => some []
  | (name, item) :: rest =>
    match name.decoded, settingOfJson? source item, settingsOfMembers? source rest with
    | some name, some value, some entries =>
      some (if (entries.lookup name).isSome then entries else (name, value) :: entries)
    | _, _, _ => none

end

/-- The entries of a value that is a table. -/
def tableOf? : Setting → Option (List (String × Setting))
  | .table entries => some entries
  | _ => none

/-- How deeply the arrays and objects of a file may be nested. -/
def deepestNesting : Nat := 127

/-- The JSON value of a file. -/
def jsonOfText? (text : String) : Option Json :=
  (Json.parse? text).bind fun value => if value.depth ≤ deepestNesting then some value else none

/-- The entries of a file from a source, if it is in one of the formats that are read here.  A
file without any document is an empty table, and any other has to hold one. -/
def Format.read? (format : Format) (source text : String) : Option (List (String × Setting)) :=
  -- A file may begin with the mark of its byte order.
  let text := if text.startsWith "\uFEFF" then (text.drop 1).toString else text
  match format with
  | .yaml =>
    match Yaml.Node.ofText? text with
    | none => none
    | some none => some []
    | some (some node) => (settingOfNode? source node).bind tableOf?
  | .json => ((jsonOfText? text).bind (settingOfJson? source)).bind tableOf?
  | .toml | .ini | .ron | .json5 => none

/-- A way to load the file that a path names in a folder: its entries, where a file that is not
there has none, or nothing if there is a file that cannot be read. -/
def Loader : Type := Folder → String → Option (List (String × Setting))

/-- The file is located by its extension and read in its format. -/
def Loader.standard : Loader := fun folder path =>
  match folder.locate? path with
  | none => some []
  | some (source, format, text) => format.read? source text

end Settings

end Leasehold
