import Leasehold.Settings.Value

/-!
# Paths into settings

A path such as `lock.table` or `job.command[0]` leads from a table to a value in it.

* `Setting.Step`, `Setting.Path`: the steps of a path.
* `Setting.Path.ofText?`: the path that a text writes.
* `Setting.follow?`: the value at the end of a path.
* `Setting.assignAt`: a value written at the end of a path.
-/

namespace Leasehold

namespace Setting

/-- A step into a table by a name, or into a list by a place. -/
inductive Step where
  | name (name : String)
  | place (index : Nat)
  deriving Repr, DecidableEq

/-- The steps of a path. -/
abbrev Path := List Step

namespace Path

/-- The path of some names. -/
def ofNames (names : List String) : Path := names.map .name

/-- A character of a name. -/
def isNameChar (c : Char) : Bool := c.isAlphanum || c = '_' || c = '-'

/-- The places between brackets behind a name, for a number of characters. -/
def placesOfChars? : Nat → List Char → Option Path
  | _, [] => some []
  | 0, _ => none
  | fuel + 1, '[' :: rest =>
    let digits := rest.takeWhile Char.isDigit
    match digits, rest.drop digits.length with
    | [], _ => none
    | _, ']' :: rest =>
      (placesOfChars? fuel rest).map (.place (Word.ofDigits digits) :: ·)
    | _, _ => none
  | _, _ => none

/-- The steps of a part between dots: a name, and places behind it. -/
def partOfText? (text : String) : Option Path :=
  let cs := text.toList
  let name := cs.takeWhile isNameChar
  if name.isEmpty then none
  else
    (placesOfChars? cs.length (cs.drop name.length)).map (.name (String.ofList name) :: ·)

/-- The path that a text writes. -/
def ofText? (text : String) : Option Path :=
  ((text.splitOn ".").mapM partOfText?).map List.flatten

/-- The path of a text; a text that writes none is a single name. -/
def ofText (text : String) : Path := (ofText? text).getD [.name text]

end Path

/-- The value one step on. -/
def stepTo? (setting : Setting) : Step → Option Setting
  | .name name => setting.child? name
  | .place index => setting.items[index]?

/-- The value at the end of a path. -/
def follow? (setting : Setting) : Path → Option Setting
  | [] => some setting
  | step :: path => (setting.stepTo? step).bind fun child => follow? child path

/-- A list with a value at a place; places that are left out hold nothing. -/
def withItem (setting : Setting) (index : Nat) (value : Setting) : Setting :=
  let items := setting.items
  let padded := items ++ List.replicate (index + 1 - items.length) (scalar .null none)
  list (padded.set index value) none

/-- Writes a value at the end of a path; whatever stands in the way of the path is
replaced by a table or a list. -/
def assignAt (value : Setting) (target : Setting) : Path → Setting
  | [] => target
  | [.name name] => assign name value target
  | [.place index] => target.withItem index value
  | .name name :: path =>
    target.withChild name (assignAt value ((target.child? name).getD noEntries) path)
  | .place index :: path =>
    target.withItem index (assignAt value ((target.items[index]?).getD noEntries) path)

end Setting

end Leasehold
