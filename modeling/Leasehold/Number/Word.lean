/-!
# Words

A word of some bits holds a natural number, or an integer in two's complement.

* `Word.count`: how many numbers a word holds.
* `Word.maxNat`: the largest natural number of a word.
* `Word.minInt`, `Word.maxInt`: the ends of its integers.
* `Word.holdsInt`: whether a word holds an integer.
* `Word.ofDigits`: the number of some decimal digits.
* `Word.natOfText?`: the natural number that a text spells.
-/

namespace Leasehold

namespace Word

/-- How many numbers a word holds. -/
def count (bits : Nat) : Nat := Nat.pow 2 bits

/-- The largest natural number of a word. -/
def maxNat (bits : Nat) : Nat := count bits - 1

/-- The smallest integer of a word; one bit is the sign. -/
def minInt (bits : Nat) : Int := -Int.ofNat (count (bits - 1))

/-- The largest integer of a word. -/
def maxInt (bits : Nat) : Int := Int.ofNat (count (bits - 1)) - 1

/-- Whether a word holds an integer. -/
def holdsInt (bits : Nat) (n : Int) : Bool := minInt bits ≤ n && n ≤ maxInt bits

theorem holdsInt_iff {bits : Nat} {n : Int} :
    holdsInt bits n = true ↔ minInt bits ≤ n ∧ n ≤ maxInt bits := by
  simp [holdsInt]

/-- The number of some decimal digits. -/
def ofDigits (digits : List Char) : Nat :=
  digits.foldl (fun n digit => 10 * n + (digit.toNat - '0'.toNat)) 0

/-- The natural number that a text spells by its digits, with or without a plus before
them, if a word holds it. -/
def natOfText? (bits : Nat) (text : String) : Option Nat :=
  let digits :=
    match text.toList with
    | '+' :: rest => rest
    | rest => rest
  if digits.isEmpty || !digits.all Char.isDigit then none
  else if ofDigits digits ≤ maxNat bits then some (ofDigits digits)
  else none

end Word

end Leasehold
