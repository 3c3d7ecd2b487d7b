import Leasehold.Number.Decimal
import Leasehold.Number.Word
import Leasehold.Text.Quoted

/-!
# Configuration values

A value is a scalar, a list or a table, and remembers where it was written.  Whoever
reads it says what it should be, and scalars are converted as far as that makes sense.

* `Setting.Scalar`, `Setting`: the values.
* `Setting.Mismatch`: a value that cannot be converted.
* `Setting.toInt`, `Setting.toBool?`, `Setting.toBinary64?`, `Setting.toText?`: the
  conversions.
* `Setting.assign`: one value written over another; tables are merged.
-/

namespace Leasehold

/-- A scalar; integers fit 64 bits, the larger ones without a sign apart. -/
inductive Setting.Scalar where
  | null
  | bool (b : Bool)
  | int (n : Int)
  | unsigned (n : Nat)
  | real (x : Binary64)
  | text (text : String)
  deriving Repr, DecidableEq

/-- A configuration value with the source where it was written. -/
inductive Setting where
  | scalar (value : Setting.Scalar) (source? : Option String)
  | list (items : List Setting) (source? : Option String)
  | table (entries : List (String × Setting))
  deriving Repr, Inhabited

namespace Setting

/-- What was found where an integer was expected. -/
inductive Found where
  | text (text : String)
  | nothing
  | list
  | table
  | unsigned (n : Nat)
  deriving Repr, DecidableEq

/-- A value that cannot be converted to an integer, with its source. -/
structure Mismatch where
  found : Found
  source? : Option String
  deriving Repr, DecidableEq

/-- The description of what was found. -/
def Found.message : Found → String
  | text found => "string " ++ Text.quoted found
  | nothing => "unit value"
  | list => "sequence"
  | table => "map"
  | unsigned n => s!"64-bit unsigned integer `{n}`"

/-- The description of what was expected. -/
def Found.expected : Found → String
  | unsigned _ => "an signed 64 bit or less integer"
  | _ => "an integer"

/-- The text of a mismatch under a key. -/
def Mismatch.message (mismatch : Mismatch) (key : String) : String :=
  s!"invalid type: {mismatch.found.message}, expected {mismatch.found.expected} for key `{key}`"
    ++ (match mismatch.source? with
      | some source => " in " ++ source
      | none => "")

/-! ## Conversions -/

/-- The truth value of a word in any case. -/
def wordTruth? (text : String) : Option Bool :=
  let word := text.toLower
  if ["true", "on", "yes"].contains word then some true
  else if ["false", "off", "no"].contains word then some false
  else none

/-- The integer of a text: a sign, decimal digits, and no more than 64 bits. -/
def intOfText? (text : String) : Option Int :=
  let (negative, digits) :=
    match text.toList with
    | '-' :: rest => (true, rest)
    | '+' :: rest => (false, rest)
    | rest => (false, rest)
  if digits.isEmpty || !digits.all Char.isDigit then none
  else
    let magnitude : Int := Word.ofDigits digits
    let value := if negative then -magnitude else magnitude
    if Word.holdsInt 64 value then some value else none

/-- The integer that a value stands for: a truth value is one or zero, and a real number
is rounded. -/
def toInt : Setting → Except Mismatch Int
  | scalar (.int n) _ => .ok n
  | scalar (.bool b) _ => .ok (if b then 1 else 0)
  | scalar (.real x) _ => .ok x.toInt64
  | scalar (.unsigned n) source? => .error ⟨.unsigned n, source?⟩
  | scalar (.text text) source? =>
    match wordTruth? text, intOfText? text with
    | some b, _ => .ok (if b then 1 else 0)
    | none, some n => .ok n
    | none, none => .error ⟨.text text, source?⟩
  | scalar .null source? => .error ⟨.nothing, source?⟩
  | list _ source? => .error ⟨.list, source?⟩
  | table _ => .error ⟨.table, none⟩

/-- The truth value that a value stands for: a number does unless it is zero. -/
def toBool? : Setting → Option Bool
  | scalar (.bool b) _ => some b
  | scalar (.int n) _ => some (n != 0)
  | scalar (.unsigned n) _ => some (n != 0)
  | scalar (.real x) _ =>
    match x with
    | .finite _ units => some (units != 0)
    | _ => some true
  | scalar (.text text) _ =>
    if text == "1" then some true else if text == "0" then some false else wordTruth? text
  | _ => none

/-- The number that a value stands for. -/
def toBinary64? : Setting → Option Binary64
  | scalar (.real x) _ => some x
  | scalar (.int n) _ => some (.ofInt n)
  | scalar (.unsigned n) _ => some (.ofNat n)
  | scalar (.bool b) _ => some (.ofNat (if b then 1 else 0))
  | scalar (.text text) _ =>
    match wordTruth? text with
    | some b => some (.ofNat (if b then 1 else 0))
    | none => Binary64.ofText? text
  | _ => none

/-- The text of a scalar that has one. -/
def toText? : Setting → Option String
  | scalar (.text text) _ => some text
  | scalar (.bool b) _ => some (if b then "true" else "false")
  | scalar (.int n) _ => some (toString n)
  | scalar (.unsigned n) _ => some (toString n)
  | scalar (.real x) _ => some x.toText
  | _ => none

/-- The texts of a list whose items all have one. -/
def toTexts? : Setting → Option (List String)
  | list items _ => items.mapM toText?
  | _ => none

/-! ## Tables -/

/-- The entries of a table; anything else has none. -/
def entries : Setting → List (String × Setting)
  | table entries => entries
  | _ => []

/-- The items of a list; anything else has none. -/
def items : Setting → List Setting
  | list items _ => items
  | _ => []

/-- The value under a name. -/
def child? (setting : Setting) (name : String) : Option Setting := setting.entries.lookup name

/-- Entries with a value under a name, in place of an older one. -/
def put (name : String) (value : Setting) : List (String × Setting) → List (String × Setting)
  | [] => [(name, value)]
  | (n, v) :: rest => if n = name then (name, value) :: rest else (n, v) :: put name value rest

/-- A setting with a value under a name; what is no table becomes one. -/
def withChild (setting : Setting) (name : String) (value : Setting) : Setting :=
  table (put name value setting.entries)

/-- The empty table. -/
def noEntries : Setting := table []

mutual

/-- Writes a value under a name: a table is merged into what is there, and anything else
takes its place. -/
def assign (name : String) (value : Setting) (target : Setting) : Setting :=
  match value with
  | table incoming =>
    -- A scalar in the place of the table makes way for it.
    target.withChild name (assignAll incoming ((target.child? name).getD noEntries))
  | scalar s source? => target.withChild name (scalar s source?)
  | list l source? => target.withChild name (list l source?)

/-- Writes entries one after another. -/
def assignAll (incoming : List (String × Setting)) (target : Setting) : Setting :=
  match incoming with
  | [] => target
  | (name, value) :: rest => assignAll rest (assign name value target)

end

theorem lookup_put_self (name : String) (value : Setting) (entries : List (String × Setting)) :
    (put name value entries).lookup name = some value := by
  induction entries with
  | nil => simp [put]
  | cons entry rest ih =>
    obtain ⟨n, v⟩ := entry
    by_cases h : n = name
    · simp [put, h]
    · have hBeq : (name == n) = false := by simpa using fun h' => h h'.symm
      simp [put, h, List.lookup_cons, hBeq, ih]

theorem lookup_put_of_ne {name other : String} (value : Setting)
    (entries : List (String × Setting)) (h : other ≠ name) :
    (put name value entries).lookup other = entries.lookup other := by
  induction entries with
  | nil =>
    have hBeq : (other == name) = false := by simpa using h
    simp [put, List.lookup_cons, hBeq]
  | cons entry rest ih =>
    obtain ⟨n, v⟩ := entry
    by_cases hName : n = name
    · have hBeq : (other == name) = false := by simpa using h
      simp [put, hName, List.lookup_cons, hBeq]
    · by_cases hOther : other = n
      · simp [put, hName, hOther]
      · have hBeq : (other == n) = false := by simpa using hOther
        simp [put, hName, List.lookup_cons, hBeq, ih]

end Setting

end Leasehold
