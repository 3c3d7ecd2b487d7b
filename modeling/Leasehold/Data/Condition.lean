import Leasehold.Data.Record

/-!
# Conditions

A condition is a conjunction of comparisons of a column with a value.

* `Condition`: the clauses, in order and with repetitions.
* `Condition.holds`: which records satisfy it.
* `Condition.toText`: how it is shown in a message.
-/

namespace Leasehold

/-- A conjunction of comparisons `column = value`. -/
structure Condition where
  clauses : List (String × Value)
  deriving Repr, DecidableEq, Inhabited

namespace Condition

/-- The condition that every record satisfies. -/
def always : Condition := ⟨[]⟩

/-- The condition with one clause. -/
def column (name : String) (value : Value) : Condition := ⟨[(name, value)]⟩

/-- The condition with one clause more. -/
def and (condition : Condition) (name : String) (value : Value) : Condition :=
  ⟨condition.clauses ++ [(name, value)]⟩

/-- The value that a column is compared with first. -/
def value? (condition : Condition) (column : String) : Option Value :=
  OrderedMap.lookup column condition.clauses

/-- Whether a record satisfies one clause; nothing equals the missing value. -/
def clauseHolds (record : Record) (clause : String × Value) : Bool :=
  !clause.2.isNull && record.get? clause.1 == some clause.2

/-- Whether a record satisfies every clause. -/
def holds (condition : Condition) (record : Record) : Bool :=
  condition.clauses.all (clauseHolds record)

/-- The text of one clause. -/
def clauseText (clause : String × Value) : String :=
  clause.1 ++ " = " ++ clause.2.toText

/-- The text of a condition. -/
def toText (condition : Condition) : String :=
  if condition.clauses.isEmpty then "TRUE"
  else " AND ".intercalate (condition.clauses.map clauseText)

@[simp]
theorem holds_always (record : Record) : always.holds record = true := rfl

theorem holds_and (condition : Condition) (name : String) (value : Value)
    (record : Record) :
    (condition.and name value).holds record
      = (condition.holds record && clauseHolds record (name, value)) := by
  simp [Condition.holds, Condition.and]

end Condition

end Leasehold
