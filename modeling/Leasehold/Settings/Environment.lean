import Leasehold.Settings.Path

/-!
# Settings from the environment

A variable whose name begins with `clusterlock.` in any case holds a setting; the rest
of its name is the path of the setting.

* `Variables`: the variables of a process.
* `Variables.ofListing`: the variables of a listing.
* `Variables.settingPath?`: the path that a variable sets.
* `Variables.settingOfText`: the value that its text stands for.
-/

namespace Leasehold

/-- The variables of a process with their texts. -/
structure Variables where
  list : List (String × String)
  deriving Repr, DecidableEq

namespace Variables

/-- The text of a variable. -/
def get? (environment : Variables) (name : String) : Option String := environment.list.lookup name

/-- The variables of a listing, in which each is written as a name and a text with an
equals sign between them, and a null character ends it. -/
def ofListing (listing : String) : Variables :=
  ⟨(listing.splitOn "\x00").filterMap fun entry =>
    -- Only the first equals sign divides.
    match entry.splitOn "=" with
    | name :: piece :: pieces => some (name, "=".intercalate (piece :: pieces))
    | _ => none⟩

/-- What the name of a variable with a setting begins with. -/
def mark : String := "clusterlock."

/-- What messages call the environment. -/
def source : String := "the environment"

/-- The path that a variable sets, if it does. -/
def settingPath? (name : String) : Option Setting.Path :=
  let lowered := name.toLower
  if lowered.startsWith mark then some (.ofText (lowered.drop mark.length).toString) else none

/-- The value that a text stands for: a truth value, an integer, a real number, or
itself. -/
def settingOfText (text : String) : Setting :=
  let value : Setting.Scalar :=
    if text.toLower == "true" then .bool true
    else if text.toLower == "false" then .bool false
    else
      match Setting.intOfText? text with
      | some n => .int n
      | none =>
        match Binary64.ofText? text with
        | some x => .real x
        | none => .text text
  .scalar value (some source)

/-- Writes the settings of the variables into a table. -/
def writeTo (environment : Variables) (target : Setting) : Setting :=
  environment.list.foldl (fun target (name, text) =>
    match settingPath? name with
    | some path => Setting.assignAt (settingOfText text) target path
    | none => target) target

end Variables

end Leasehold
