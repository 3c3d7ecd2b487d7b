import Leasehold.Number.Word

/-!
# Binary64 numbers in exact arithmetic

Floating point enters lock management in two places: the growth of a retry
ceiling and the numbers of a configuration file.  Both need the same results on
every machine, and both have to be reasoned about, so the numbers are kept as
exact multiples of the smallest positive binary64 value and every operation is
its exact result rounded once.

* `Binary64`: a NaN, an infinity, or a sign and a count of units of `2 ^ -1074`.
* `roundDiv`: the integer nearest to a quotient, a tie going to the even one.
* `ofRatio`: the number nearest to a quotient of naturals.
* `add`, `mul`, `div`, `min`, `lt`, `powNat`: the operations the library uses.
* `toNanos?`: seconds as whole nanoseconds.
-/

namespace Leasehold

/-- A binary64 number.  A finite one is `units` multiples of `2 ^ -1074`, the
smallest positive value of the format; a zero keeps its sign. -/
inductive Binary64 where
  | nan
  | infinite (negative : Bool)
  | finite (negative : Bool) (units : Nat)
  deriving Repr, DecidableEq, Inhabited

namespace Binary64

/-- The integer nearest to `num / den`; a tie goes to the even neighbour. -/
def roundDiv (num den : Nat) : Nat :=
  let quotient := num / den
  let rest := num % den
  -- The rest is compared with half the divisor, without dividing again.
  if 2 * rest < den then quotient
  else if den < 2 * rest then quotient + 1
  else if quotient % 2 = 0 then quotient
  else quotient + 1

/-- Units in the number one. -/
def unitsOfOne : Nat := Nat.pow 2 1074

/-- The distance between neighbours of the format at a magnitude of `units`:
53 significant bits, and never less than one unit. -/
def quantum (units : Nat) : Nat := Nat.pow 2 (units.log2 - 52)

/-- The magnitude of the format nearest to `num / den` units. -/
def roundUnits (num den : Nat) : Nat :=
  -- A rounding up may reach the next power of two; it is a multiple of the step as well.
  let step := quantum (num / den)
  roundDiv num (den * step) * step

/-- The first magnitude that is too large for the format. -/
def unitsLimit : Nat := Nat.pow 2 2098

/-- `num / den` units, rounded into the format; too large a result is infinite. -/
def ofUnits (negative : Bool) (num den : Nat) : Binary64 :=
  let units := roundUnits num den
  if units < unitsLimit then finite negative units else infinite negative

/-- The number nearest to `num / den`. -/
def ofRatio (num den : Nat) : Binary64 := ofUnits false (num * unitsOfOne) den

/-- The number nearest to a natural. -/
def ofNat (n : Nat) : Binary64 := ofRatio n 1

/-- The number nearest to an integer. -/
def ofInt (n : Int) : Binary64 := ofUnits (n < 0) (n.natAbs * unitsOfOne) 1

/-- The number one. -/
def one : Binary64 := finite false unitsOfOne

/-- Neither an infinity nor a NaN. -/
def isFinite : Binary64 → Bool
  | finite _ _ => true
  | _ => false

/-- A finite number as a signed count of units. -/
def signedUnits (negative : Bool) (units : Nat) : Int :=
  if negative then -(units : Int) else units

/-- The strict order; it is false as soon as one side is a NaN. -/
def lt : Binary64 → Binary64 → Bool
  | nan, _ => false
  | _, nan => false
  | infinite s, infinite t => s && !t
  | infinite s, finite _ _ => s
  | finite _ _, infinite t => !t
  | finite s a, finite t b => decide (signedUnits s a < signedUnits t b)

/-- The smaller of two numbers; a NaN gives way to the other side. -/
def min (x y : Binary64) : Binary64 :=
  match x, y with
  | nan, _ => y
  | _, nan => x
  | _, _ => if lt y x then y else x

/-- The sum, rounded once. -/
def add : Binary64 → Binary64 → Binary64
  | nan, _ => nan
  | _, nan => nan
  | infinite s, infinite t => if s = t then infinite s else nan
  | infinite s, finite _ _ => infinite s
  | finite _ _, infinite t => infinite t
  | finite s a, finite t b =>
    let sum := signedUnits s a + signedUnits t b
    -- An exact zero is positive unless both sides were negative.
    if sum = 0 then finite (s && t) 0 else ofUnits (sum < 0) sum.natAbs 1

/-- The product, rounded once. -/
def mul : Binary64 → Binary64 → Binary64
  | nan, _ => nan
  | _, nan => nan
  | infinite s, infinite t => infinite (s != t)
  | infinite s, finite t b => if b = 0 then nan else infinite (s != t)
  | finite s a, infinite t => if a = 0 then nan else infinite (s != t)
  | finite s a, finite t b => ofUnits (s != t) (a * b) unitsOfOne

/-- The quotient, rounded once; by zero it is infinite, and a NaN for zero itself. -/
def div : Binary64 → Binary64 → Binary64
  | nan, _ => nan
  | _, nan => nan
  | infinite _, infinite _ => nan
  | infinite s, finite t _ => infinite (s != t)
  | finite s _, infinite t => finite (s != t) 0
  | finite s a, finite t b =>
    if b = 0 then if a = 0 then nan else infinite (s != t)
    else ofUnits (s != t) (a * unitsOfOne) b

/-- The number of the other sign. -/
def neg : Binary64 → Binary64
  | nan => nan
  | infinite s => infinite !s
  | finite s a => finite (!s) a

/-- `acc * base ^ k` by repeated squaring: the low bit of `k` decides whether the
current square is multiplied in, and the last square is never formed. -/
def powInto (acc base : Binary64) (k : Nat) : Binary64 :=
  let acc := if k % 2 = 1 then mul acc base else acc
  if k / 2 = 0 then acc else powInto acc (mul base base) (k / 2)
termination_by k

/-- A natural power by repeated squaring. -/
def powNat (base : Binary64) (k : Nat) : Binary64 := powInto one base k

/-- A number of seconds as whole nanoseconds, a tie going to the even neighbour;
`none` if it is negative, not finite, or past the last second of a 64-bit count. -/
def toNanos? : Binary64 → Option Nat
  | finite negative units =>
    if negative && units != 0 then none
    else
      let nanos := roundDiv (units * 1000000000) unitsOfOne
      if nanos < Word.count 64 * 1000000000 then some nanos else none
  | _ => none

/-- The nearest integer, a half going away from zero, cut off at the ends of the
signed 64-bit range; a NaN gives zero. -/
def toInt64 : Binary64 → Int
  | nan => 0
  | infinite negative => if negative then Word.minInt 64 else Word.maxInt 64
  | finite negative units =>
    -- The floor of the number and a half.
    let magnitude := (2 * units + unitsOfOne) / (2 * unitsOfOne)
    if negative then Max.max (Word.minInt 64) (-(magnitude : Int))
    else Min.min (Word.maxInt 64) (magnitude : Int)

end Binary64

end Leasehold
