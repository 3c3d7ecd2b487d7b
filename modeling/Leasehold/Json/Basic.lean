import Leasehold.Number.Decimal
import Leasehold.Number.Word

/-!
# JSON values

A value keeps what its readers tell apart: how a number was written, and whether a
string was spelled with escapes.

* `Json`: a value.
* `Json.Text`: a string, `Json.Numeral`: a number as written.
* `Json.Numeral.integer?`, `Json.Numeral.binary64?`: the two readings of a number.
* `Json.quote`: the text of a string.
-/

namespace Leasehold

/-- A string: what it spells, unless it names half of a surrogate pair, and whether
it was written with an escape. -/
structure Json.Text where
  decoded : Option String
  escaped : Bool
  deriving Repr, DecidableEq, Inhabited

/-- A number as written. -/
structure Json.Numeral where
  negative : Bool
  whole : List Char
  fraction : List Char
  exponent : Option Int
  deriving Repr, DecidableEq, Inhabited

/-- A JSON value. -/
inductive Json where
  | null
  | bool (b : Bool)
  | number (numeral : Json.Numeral)
  | string (text : Json.Text)
  | array (items : List Json)
  | object (members : List (Json.Text × Json))
  deriving Repr, Inhabited

namespace Json

mutual

/-- How deeply arrays and objects are nested. -/
def depth : Json → Nat
  | array items => 1 + depthOfItems items
  | object members => 1 + depthOfMembers members
  | _ => 0

/-- The nesting of the deepest item. -/
def depthOfItems : List Json → Nat
  | [] => 0
  | item :: rest => max item.depth (depthOfItems rest)

/-- The nesting of the deepest member. -/
def depthOfMembers : List (Text × Json) → Nat
  | [] => 0
  | member :: rest => max member.2.depth (depthOfMembers rest)

end

namespace Numeral

/-- Whether a number is written without point and exponent. -/
def isIntegral (numeral : Numeral) : Bool :=
  numeral.fraction.isEmpty && numeral.exponent.isNone

/-- The largest integer of 64 bits without a sign. -/
def unsignedMax : Nat := Word.maxNat 64

/-- The value of a number that is read as an integer: it is written as one, it is not
a negative zero, and it fits 64 bits, signed if it is negative. -/
def integer? (numeral : Numeral) : Option Int :=
  if numeral.isIntegral then
    let magnitude := Word.ofDigits numeral.whole
    if numeral.negative then
      if magnitude = 0 || Word.count 63 < magnitude then none else some (-(magnitude : Int))
    else if magnitude ≤ unsignedMax then some magnitude
    else none
  else none

/-- Takes in the digits before the point as long as the value fits 64 bits; each digit
left out raises the exponent. -/
def wholePart : List Char → Nat → Nat × Int
  | [], significand => (significand, 0)
  | digit :: rest, significand =>
    let next := 10 * significand + (digit.toNat - '0'.toNat)
    if next ≤ unsignedMax then wholePart rest next
    else (significand, (digit :: rest).length)

/-- Takes in the digits after the point as long as the value fits 64 bits, and leaves
out the rest. -/
def fractionPart : List Char → Nat → Int → Nat × Int
  | [], significand, exponent => (significand, exponent)
  | digit :: rest, significand, exponent =>
    let next := 10 * significand + (digit.toNat - '0'.toNat)
    if next ≤ unsignedMax then fractionPart rest next (exponent - 1)
    else (significand, exponent)

/-- A power of ten. -/
def tenPow (n : Nat) : Binary64 := Binary64.ofNat (Nat.pow 10 n)

/-- `value * 10 ^ exponent` in steps of at most 308 places; `none` if it is too large.
Two long steps down leave nothing of any value, so four suffice. -/
def scale (value : Binary64) (exponent : Int) : Nat → Option Binary64
  | 0 => some value
  | steps + 1 =>
    if exponent.natAbs ≤ 308 then
      if 0 ≤ exponent then
        let scaled := value.mul (tenPow exponent.toNat)
        if scaled.isFinite then some scaled else none
      else some (value.div (tenPow exponent.natAbs))
    else if value = .finite false 0 then some value
    else if 0 ≤ exponent then none
    else scale (value.div (tenPow 308)) (exponent + 308) steps

/-- The value of a number as a binary64 number: the leading digits that fit 64 bits,
rounded, and then scaled by a power of ten. -/
def binary64? (numeral : Numeral) : Option Binary64 :=
  let (significand, exponent) := wholePart numeral.whole 0
  let (significand, exponent) := fractionPart numeral.fraction significand exponent
  let exponent := exponent + numeral.exponent.getD 0
  (scale (Binary64.ofNat significand) exponent 4).map fun value =>
    if numeral.negative then value.neg else value

end Numeral

/-- A control character as a hexadecimal escape. -/
def hexEscape (n : Nat) : String :=
  let digits := Nat.toDigits 16 n
  "\\u" ++ String.ofList (List.replicate (4 - digits.length) '0' ++ digits)

/-- A character within a string. -/
def escapeChar (c : Char) : String :=
  if c = '"' then "\\\""
  else if c = '\\' then "\\\\"
  else if c = '\n' then "\\n"
  else if c = '\r' then "\\r"
  else if c = '\t' then "\\t"
  else if c.toNat = 8 then "\\b"
  else if c.toNat = 12 then "\\f"
  else if c.toNat < 32 then hexEscape c.toNat
  else String.singleton c

/-- The text of a string: quotes, backslashes and control characters are escaped. -/
def quote (text : String) : String :=
  "\"" ++ String.join (text.toList.map escapeChar) ++ "\""

end Json

end Leasehold
