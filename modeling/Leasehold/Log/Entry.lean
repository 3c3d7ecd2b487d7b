import Leasehold.Number.Word

/-!
# Log entries

* `Level`: how important an entry is, with the order used to filter entries.
* `Entry`: one event with its source and its fields.
-/

namespace Leasehold

/-- How important an entry is. -/
inductive Log.Level where
  | error
  | warn
  | info
  | debug
  | trace
  deriving Repr, DecidableEq, Inhabited

/-- One event: where it comes from, what happened, and named details in order. -/
structure Log.Entry where
  level : Log.Level
  target : String
  message : String
  fields : List (String × String)
  deriving Repr, DecidableEq

namespace Log.Level

/-- The detail that a level asks for; a more detailed level lets more entries pass. -/
def detail : Level → Nat
  | error => 1
  | warn => 2
  | info => 3
  | debug => 4
  | trace => 5

/-- The name of a level. -/
def name : Level → String
  | error => "ERROR"
  | warn => "WARN"
  | info => "INFO"
  | debug => "DEBUG"
  | trace => "TRACE"

/-- The levels, the most important first. -/
def all : List Level := [error, warn, info, debug, trace]

/-- The level that a name in any case or a number from 1 to 5 stands for. -/
def ofText? (text : String) : Option Level :=
  all.find? fun level =>
    text.toUpper == level.name || Word.natOfText? 64 text == some level.detail

/-- Whether an entry of level `entry` passes a filter set to `limit`. -/
def passes (entry limit : Level) : Bool := decide (entry.detail ≤ limit.detail)

end Log.Level

end Leasehold
