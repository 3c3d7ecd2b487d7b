import Leasehold.Time.Timestamp

/-!
# Column values

* `Kind`: what a column holds.
* `Value`: one value of a column, or none.
* `Value.order`: the order of values, by kind first.
* `Value.toText`: how a value is shown in a message.
-/

namespace Leasehold

/-- What a column holds. -/
inductive Kind where
  | int
  | text
  | time
  deriving Repr, DecidableEq, Inhabited

/-- The name of a kind. -/
def Kind.name : Kind → String
  | int => "Int"
  | text => "Text"
  | time => "Time"

/-- One value of a column. -/
inductive Value where
  | null
  | int (n : Int)
  | text (text : String)
  | time (instant : Instant)
  deriving Repr, DecidableEq, Inhabited

namespace Value

/-- The missing value. -/
def isNull : Value → Bool
  | null => true
  | _ => false

/-- The kind of a value; the missing value has none. -/
def kind? : Value → Option Kind
  | null => none
  | int _ => some .int
  | text _ => some .text
  | time _ => some .time

/-- The place of a value's kind in the order of values. -/
def rank : Value → Nat
  | null => 0
  | int _ => 1
  | text _ => 2
  | time _ => 3

/-- The order of values: the missing value, integers, texts by code point, times. -/
def order : Value → Value → Ordering
  | int a, int b => compare a b
  | text a, text b => compare a b
  | time a, time b => compare a b
  | a, b => compare a.rank b.rank

instance : Ord Value := ⟨order⟩

/-- A value as a message shows it. -/
def toText : Value → String
  | null => "NULL"
  | int n => toString n
  | text t => "'" ++ t ++ "'"
  | time t => "'" ++ t.toText .numeric ++ "'"

@[simp]
theorem isNull_iff (value : Value) : value.isNull = true ↔ value = null := by
  cases value <;> simp [isNull]

theorem kind?_eq_none_iff (value : Value) : value.kind? = none ↔ value = null := by
  cases value <;> simp [kind?]

end Value

end Leasehold
