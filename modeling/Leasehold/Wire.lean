import Leasehold.Json.Parser
import Leasehold.Lock.Error
import Leasehold.Lock.Row
import Leasehold.Number.Word

/-!
# Written forms

Values, kinds, modes, classes, states and error codes are exchanged as JSON.  A choice
without content is its name, and may also be read from an object that gives the name
the value null; a choice with content is an object with one member.

* `Wire.named?`: reads a choice without content.
* `Value.ofJson?`, `Value.toJson`: column values.
* `ErrorCode.ofJson?`, `ErrorCode.toJson`: error codes.
-/

namespace Leasehold

namespace Wire

/-- Reads one of some names, as a string or as the only member of an object. -/
def named? {α : Type} (choices : List (String × α)) : Json → Option α
  | .string text => text.decoded.bind fun name => choices.lookup name
  | .object [(key, .null)] => key.decoded.bind fun name => choices.lookup name
  | _ => none

/-- The choices of a list with their names. -/
def choices {α : Type} (name : α → String) (all : List α) : List (String × α) :=
  all.map fun choice => (name choice, choice)

/-- Reads an integer between two bounds. -/
def integer? (least most : Int) : Json → Option Int
  | .number numeral =>
    numeral.integer?.bind fun n => if least ≤ n && n ≤ most then some n else none
  | _ => none

/-- Reads a string. -/
def string? : Json → Option String
  | .string text => text.decoded
  | _ => none

/-- Reads a string that was written without escapes. -/
def plainString? : Json → Option String
  | .string text => if text.escaped then none else text.decoded
  | _ => none

/-- Writes an object with one member. -/
def oneMember (name value : String) : String :=
  "\x7b" ++ Json.quote name ++ ":" ++ value ++ "\x7d"

end Wire

/-- Reads a kind of column. -/
def Kind.ofJson? (json : Json) : Option Kind :=
  Wire.named? (Wire.choices Kind.name [.int, .text, .time]) json

/-- Reads a storage mode. -/
def StorageMode.ofJson? (json : Json) : Option StorageMode :=
  Wire.named? (Wire.choices StorageMode.name [.memory, .externalDatabase]) json

/-- Reads an interval class. -/
def IntervalClass.ofJson? (json : Json) : Option IntervalClass :=
  Wire.named? (Wire.choices IntervalClass.name IntervalClass.all) json

/-- Reads a lock state. -/
def LockState.ofJson? (json : Json) : Option LockState :=
  Wire.named? (Wire.choices LockState.name LockState.all) json

namespace Value

/-- Reads a column value. -/
def ofJson? (json : Json) : Option Value :=
  match json with
  | .object [(key, content)] =>
    match key.decoded with
    | some "Null" => Wire.named? [("Null", null)] json
    | some "Int" => (Wire.integer? (Word.minInt 64) (Word.maxInt 64) content).map int
    | some "Text" => (Wire.string? content).map text
    | some "Time" => ((Wire.string? content).bind Instant.ofText?).map time
    | _ => none
  | json => Wire.named? [("Null", null)] json

/-- Writes a column value. -/
def toJson : Value → String
  | null => Json.quote "Null"
  | int n => Wire.oneMember "Int" (toString n)
  | text t => Wire.oneMember "Text" (Json.quote t)
  | time t => Wire.oneMember "Time" (Json.quote (t.toText .letter))

end Value

namespace ErrorCode

/-- Reads the number of a code. -/
def number? (json : Json) : Option Int := Wire.integer? (Word.minInt 32) (Word.maxInt 32) json

/-- Takes in the members of an object: each of the two known ones once, and any
others. -/
def ofMembers? : List (Json.Text × Json) → Option Int → Option String → Option ErrorCode
  | [], some code, some message => some ⟨code, message⟩
  | [], _, _ => Option.none
  | (key, content) :: rest, code?, message? =>
    match key.decoded with
    | Option.none => Option.none
    | some "code" =>
      match code?, number? content with
      | Option.none, some code => ofMembers? rest (some code) message?
      | _, _ => Option.none
    | some "message" =>
      match message?, Wire.plainString? content with
      | Option.none, some message => ofMembers? rest code? (some message)
      | _, _ => Option.none
    | some _ => ofMembers? rest code? message?

/-- Reads an error code from an object or from a pair. -/
def ofJson? : Json → Option ErrorCode
  | .object members => ofMembers? members Option.none Option.none
  | .array [code, message] =>
    match number? code, Wire.plainString? message with
    | some code, some message => some ⟨code, message⟩
    | _, _ => Option.none
  | _ => Option.none

/-- Writes an error code. -/
def toJson (code : ErrorCode) : String :=
  "\x7b\"code\":" ++ toString code.code ++ ",\"message\":" ++ Json.quote code.message ++ "\x7d"

end ErrorCode

end Leasehold
