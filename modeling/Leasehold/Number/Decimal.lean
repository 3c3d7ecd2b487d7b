import Leasehold.Number.Binary64

/-!
# Decimal text of binary64 numbers

Reading takes an optional sign, then `inf`, `infinity` or `nan` in any case, or
digits with an optional point and an optional exponent.  Printing gives the
fewest digits that read back as the same number, always positionally.

* `Binary64.ofText?`: reads a number.
* `Binary64.toText`: prints it.
* `Binary64.shortest`: the digits chosen for a magnitude.
-/

namespace Leasehold

namespace Binary64

/-- `digits * 10 ^ exponent`.  Exponents far outside the format are decided without
forming the power. -/
def ofDecimal (negative : Bool) (digits : Nat) (exponent : Int) : Binary64 :=
  if digits = 0 then finite negative 0
  else if 0 ≤ exponent then
    -- The largest number has 309 digits, and the smallest lies 324 places down.
    if 400 < exponent then infinite negative
    else ofUnits negative (digits * Nat.pow 10 exponent.toNat * unitsOfOne) 1
  else
    let places := (-exponent).toNat
    if digits.log2 + 1200 < places then finite negative 0
    else ofUnits negative (digits * unitsOfOne) (Nat.pow 10 places)

/-- The exponent part of a number: nothing, or `e` and an optionally signed run of
digits. -/
def exponentOfChars? : List Char → Option Int
  | [] => some 0
  | c :: rest =>
    if c = 'e' || c = 'E' then
      let (negative, digits) :=
        match rest with
        | '-' :: digits => (true, digits)
        | '+' :: digits => (false, digits)
        | digits => (false, digits)
      if digits.isEmpty || !digits.all Char.isDigit then none
      else if negative then some (-(Word.ofDigits digits : Int))
      else some (Word.ofDigits digits)
    else none

/-- Reads an unsigned number without exponent words. -/
def magnitudeOfChars? (negative : Bool) (cs : List Char) : Option Binary64 :=
  let whole := cs.takeWhile Char.isDigit
  let rest := cs.dropWhile Char.isDigit
  let (fraction, rest) :=
    match rest with
    | '.' :: rest => (rest.takeWhile Char.isDigit, rest.dropWhile Char.isDigit)
    | rest => ([], rest)
  if whole.isEmpty && fraction.isEmpty then none
  else
    (exponentOfChars? rest).map fun exponent =>
      ofDecimal negative (Word.ofDigits (whole ++ fraction)) (exponent - fraction.length)

/-- Reads a number: a sign, then a word for a special value or a decimal. -/
def ofText? (text : String) : Option Binary64 :=
  let cs := text.toList
  let (negative, cs) :=
    match cs with
    | '-' :: rest => (true, rest)
    | '+' :: rest => (false, rest)
    | rest => (false, rest)
  -- The words may have a sign too; a NaN loses it.
  let word := String.ofList (cs.map Char.toLower)
  if word = "inf" || word = "infinity" then some (infinite negative)
  else if word = "nan" then some nan
  else magnitudeOfChars? negative cs

/-- Decimal places in which every magnitude of the format has twenty digits or more. -/
def scalePlaces : Nat := 343

/-- Number of decimal digits of a natural. -/
def digitCount (n : Nat) : Nat := (Nat.toDigits 10 n).length

/-- Whether `digits * 10 ^ (places - scalePlaces)` reads back as `units`. -/
def readsBack (units digits places : Nat) : Bool :=
  roundUnits (digits * Nat.pow 10 places * unitsOfOne) (Nat.pow 10 scalePlaces) == units

/-- The shortest decimal of a positive magnitude: with one digit, two digits and so
on, the two neighbours of the value on that grid are tried, the nearer first, and the
first that reads back is taken; seventeen digits always do.  The answer is the digits
and the places that follow them, counted in units of `10 ^ -scalePlaces`. -/
def shortestFrom (units total count : Nat) : Nat → Nat × Nat
  | 0 =>
    let places := total - count
    (roundDiv (units * Nat.pow 10 scalePlaces) (unitsOfOne * Nat.pow 10 places), places)
  | tries + 1 =>
    let places := total - count
    let num := units * Nat.pow 10 scalePlaces
    let den := unitsOfOne * Nat.pow 10 places
    let below := num / den
    let nearer := roundDiv num den
    -- The value lies between `below` and the next point of the grid.
    let farther := if nearer = below then below + 1 else below
    if readsBack units nearer places then (nearer, places)
    else if readsBack units farther places then (farther, places)
    else shortestFrom units total (count + 1) tries

/-- The shortest decimal that reads back as `units`, as digits and places. -/
def shortest (units : Nat) : Nat × Nat :=
  shortestFrom units (digitCount (units * Nat.pow 10 scalePlaces / unitsOfOne)) 1 16

/-- Writes `digits * 10 ^ (places - scalePlaces)` positionally. -/
def positional (digits places : Nat) : String :=
  let ds := Nat.toDigits 10 digits
  if scalePlaces ≤ places then
    String.ofList (ds ++ List.replicate (places - scalePlaces) '0')
  else
    let point := scalePlaces - places
    if point < ds.length then
      String.ofList (ds.take (ds.length - point) ++ '.' :: ds.drop (ds.length - point))
    else
      String.ofList ('0' :: '.' :: (List.replicate (point - ds.length) '0' ++ ds))

/-- Drops the zeros that end a fraction, and the point if nothing follows it. -/
def trimFraction (text : String) : String :=
  if text.contains '.' then
    let kept := text.toList.reverse.dropWhile (· == '0')
    match kept with
    | '.' :: kept => String.ofList kept.reverse
    | kept => String.ofList kept.reverse
  else text

/-- Prints a number with the fewest digits that read back, never with an exponent. -/
def toText : Binary64 → String
  | nan => "NaN"
  | infinite negative => if negative then "-inf" else "inf"
  | finite negative units =>
    let sign := if negative then "-" else ""
    if units = 0 then sign ++ "0"
    else
      let (digits, places) := shortest units
      sign ++ trimFraction (positional digits places)

end Binary64

end Leasehold
