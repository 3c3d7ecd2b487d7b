import Leasehold.Log.Entry

/-!
# Log filters

A filter is a list of directives.  A directive sets the level of the targets that begin
with a text, and the directive with the longest such text decides.

* `Log.Limit`: the level up to which entries pass, or none at all.
* `Log.Directive`, `Log.Filter`: the parts and the whole.
* `Log.Filter.ofText?`: the filter of a text such as `info,store=debug`.
* `Log.Filter.passes`: whether an entry passes.
-/

namespace Leasehold

/-- The level up to which entries pass; `none` lets nothing pass. -/
abbrev Log.Limit := Option Log.Level

namespace Log.Limit

/-- The limit of a text: a level, or a word or a zero for none. -/
def ofText? (text : String) : Option Limit :=
  if text.toLower == "off" || Word.natOfText? 64 text == some 0 then some none
  else (Log.Level.ofText? text).map some

/-- Whether a level is within a limit. -/
def allows : Limit → Log.Level → Bool
  | none, _ => false
  | some limit, level => level.passes limit

end Log.Limit

/-- A limit for the targets that begin with a text. -/
structure Log.Directive where
  target : String
  limit : Log.Limit
  deriving Repr, DecidableEq

/-- A list of directives. -/
structure Log.Filter where
  directives : List Log.Directive
  deriving Repr, DecidableEq

namespace Log.Filter

/-- One level for all targets. -/
def ofLevel (level : Log.Level) : Filter := ⟨[⟨"", some level⟩]⟩

/-- One level for some targets, and nothing of the others. -/
def ofTargets (targets : List String) (level : Log.Level) : Filter :=
  ⟨targets.map fun target => ⟨target, some level⟩⟩

/-- Whether a directive may begin with a character; blanks around it do not count. -/
def canBegin (c : Char) : Bool := c.isAlphanum || 128 ≤ c.toNat || "-:_".contains c

/-- The directive of a text: a level, a target with a level, or a target alone, for which
everything passes. -/
def directiveOfText? (text : String) : Option Log.Directive :=
  if !(text.toList.dropWhile Char.isWhitespace).head?.any canBegin then none
  else
    match text.splitOn "=" with
    | [word] =>
      match Log.Limit.ofText? word with
      | some limit => some ⟨"", limit⟩
      | none => some ⟨word, some .trace⟩
    | [target, ""] => some ⟨target, some .trace⟩
    | [target, level] => (Log.Limit.ofText? level).map fun limit => ⟨target, limit⟩
    | _ => none

/-- The filter of directives between commas. -/
def ofText? (text : String) : Option Filter :=
  (((text.splitOn ",").filter fun part => !part.isEmpty).mapM directiveOfText?).map Filter.mk

/-- The more special of two directives; of two equally special ones the later. -/
def moreSpecial (earlier : Option Log.Directive) (later : Log.Directive) :
    Option Log.Directive :=
  match earlier with
  | none => some later
  | some directive =>
    -- Both are beginnings of one target, so that the longer is the more special.
    if directive.target.utf8ByteSize ≤ later.target.utf8ByteSize then some later
    else some directive

/-- The directive that decides about a target. -/
def directive? (filter : Filter) (target : String) : Option Log.Directive :=
  (filter.directives.filter fun d => target.startsWith d.target).foldl moreSpecial none

/-- Whether an entry passes. -/
def passes (filter : Filter) (entry : Log.Entry) : Bool :=
  match filter.directive? entry.target with
  | some directive => directive.limit.allows entry.level
  | none => false

end Log.Filter

end Leasehold
