import Leasehold.Json.Basic

/-!
# Reading JSON

* `Json.parse?`: reads a whole text.
* `Json.stringOfChars?`, `Json.numeralOfChars?`: read the start of a text.
-/

namespace Leasehold

namespace Json

/-- White space between tokens. -/
def isSpace (c : Char) : Bool := c = ' ' || c = '\n' || c = '\r' || c = '\t'

/-- The rest of a text after white space. -/
def skipSpace (cs : List Char) : List Char := cs.dropWhile isSpace

/-- The value of a hexadecimal digit. -/
def hexDigit? (c : Char) : Option Nat :=
  if c.isDigit then some (c.toNat - '0'.toNat)
  else if 'a' ≤ c && c ≤ 'f' then some (c.toNat - 'a'.toNat + 10)
  else if 'A' ≤ c && c ≤ 'F' then some (c.toNat - 'A'.toNat + 10)
  else none

/-- The value of four hexadecimal digits. -/
def hexQuad? (a b c d : Char) : Option Nat := do
  let a ← hexDigit? a
  let b ← hexDigit? b
  let c ← hexDigit? c
  let d ← hexDigit? d
  pure (((a * 16 + b) * 16 + c) * 16 + d)

/-- The character of an escape of one letter. -/
def shortEscape? (c : Char) : Option Char :=
  if c = '"' || c = '\\' || c = '/' then some c
  else if c = 'b' then some (Char.ofNat 8)
  else if c = 'f' then some (Char.ofNat 12)
  else if c = 'n' then some '\n'
  else if c = 'r' then some '\r'
  else if c = 't' then some '\t'
  else none

/-- Puts a character in front of what the rest of a string spells. -/
def consText (c : Char) (text : Option (List Char)) : Option (List Char) :=
  text.map (c :: ·)

/-- The characters of a string after its opening quote: what they spell, whether an
escape occurred, and the text after the closing quote.  A unit of a surrogate pair
without its partner leaves nothing spelled. -/
def stringTail? : List Char → Option (Option (List Char) × Bool × List Char)
  | [] => none
  | '"' :: rest => some (some [], false, rest)
  | '\\' :: 'u' :: a :: b :: c :: d :: rest =>
    match hexQuad? a b c d with
    | none => none
    | some unit =>
      if 0xD800 ≤ unit && unit < 0xDC00 then
        match rest with
        | '\\' :: 'u' :: e :: f :: g :: h :: rest' =>
          match hexQuad? e f g h with
          | some low =>
            -- The second unit of a pair completes the character.
            if 0xDC00 ≤ low && low < 0xE000 then
              (stringTail? rest').map fun (text, _, rest) =>
                (consText (Char.ofNat (0x10000 + (unit - 0xD800) * 1024 + (low - 0xDC00))) text,
                  true, rest)
            else (stringTail? rest').map fun (_, _, rest) => (none, true, rest)
          | none => none
        | rest' => (stringTail? rest').map fun (_, _, rest) => (none, true, rest)
      else if 0xDC00 ≤ unit && unit < 0xE000 then
        (stringTail? rest).map fun (_, _, rest) => (none, true, rest)
      else
        (stringTail? rest).map fun (text, _, rest) =>
          (consText (Char.ofNat unit) text, true, rest)
  | '\\' :: c :: rest =>
    match shortEscape? c with
    | some c => (stringTail? rest).map fun (text, _, rest) => (consText c text, true, rest)
    | none => none
  | c :: rest =>
    if c.toNat < 32 || c = '\\' then none
    else (stringTail? rest).map fun (text, escaped, rest) => (consText c text, escaped, rest)
termination_by cs => cs.length

/-- Reads a string that begins with its opening quote. -/
def stringOfChars? : List Char → Option (Text × List Char)
  | '"' :: rest =>
    (stringTail? rest).map fun (text, escaped, rest) =>
      (⟨text.map String.ofList, escaped⟩, rest)
  | _ => none

/-- Reads an exponent if one follows. -/
def exponentPart? : List Char → Option (Option Int × List Char)
  | [] => some (none, [])
  | c :: rest =>
    if c = 'e' || c = 'E' then
      let (negative, digits) :=
        match rest with
        | '-' :: digits => (true, digits)
        | '+' :: digits => (false, digits)
        | digits => (false, digits)
      let run := digits.takeWhile Char.isDigit
      if run.isEmpty then none
      else
        let magnitude : Int := Word.ofDigits run
        some (some (if negative then -magnitude else magnitude), digits.dropWhile Char.isDigit)
    else some (none, c :: rest)

/-- Reads a number: no zero in front of other digits, and a digit on each side of a
point. -/
def numeralOfChars? (cs : List Char) : Option (Numeral × List Char) :=
  let (negative, cs) :=
    match cs with
    | '-' :: rest => (true, rest)
    | rest => (false, rest)
  let whole := cs.takeWhile Char.isDigit
  let rest := cs.dropWhile Char.isDigit
  if whole.isEmpty || (whole.head? = some '0' && whole != ['0']) then none
  else
    match rest with
    | '.' :: tail =>
      let fraction := tail.takeWhile Char.isDigit
      if fraction.isEmpty then none
      else
        (exponentPart? (tail.dropWhile Char.isDigit)).map fun (exponent, rest) =>
          (⟨negative, whole, fraction, exponent⟩, rest)
    | rest =>
      (exponentPart? rest).map fun (exponent, rest) => (⟨negative, whole, [], exponent⟩, rest)

mutual

/-- Reads a value after any white space. -/
def valueOfChars? : Nat → List Char → Option (Json × List Char)
  | 0, _ => none
  | fuel + 1, cs =>
    match skipSpace cs with
    | 'n' :: 'u' :: 'l' :: 'l' :: rest => some (null, rest)
    | 't' :: 'r' :: 'u' :: 'e' :: rest => some (bool true, rest)
    | 'f' :: 'a' :: 'l' :: 's' :: 'e' :: rest => some (bool false, rest)
    | '"' :: rest => (stringOfChars? ('"' :: rest)).map fun (text, rest) => (string text, rest)
    | '[' :: rest =>
      match skipSpace rest with
      | ']' :: rest => some (array [], rest)
      | rest => (itemsOfChars? fuel rest).map fun (items, rest) => (array items, rest)
    | '\x7b' :: rest =>
      match skipSpace rest with
      | '\x7d' :: rest => some (object [], rest)
      | rest => (membersOfChars? fuel rest).map fun (members, rest) => (object members, rest)
    | rest => (numeralOfChars? rest).map fun (numeral, rest) => (number numeral, rest)

/-- Reads the items of an array up to its end. -/
def itemsOfChars? : Nat → List Char → Option (List Json × List Char)
  | 0, _ => none
  | fuel + 1, cs => do
    let (item, rest) ← valueOfChars? fuel cs
    match skipSpace rest with
    | ',' :: rest =>
      let (items, rest) ← itemsOfChars? fuel rest
      pure (item :: items, rest)
    | ']' :: rest => pure ([item], rest)
    | _ => none

/-- Reads the members of an object up to its end. -/
def membersOfChars? : Nat → List Char → Option (List (Text × Json) × List Char)
  | 0, _ => none
  | fuel + 1, cs => do
    let (key, rest) ← stringOfChars? (skipSpace cs)
    match skipSpace rest with
    | ':' :: rest =>
      let (value, rest) ← valueOfChars? fuel rest
      match skipSpace rest with
      | ',' :: rest =>
        let (members, rest) ← membersOfChars? fuel rest
        pure ((key, value) :: members, rest)
      | '\x7d' :: rest => pure ([(key, value)], rest)
      | _ => none
    | _ => none

end

/-- Reads a text that holds one value and white space.  Every call of the readers
takes a character, so twice the length bounds their nesting. -/
def parse? (text : String) : Option Json :=
  let cs := text.toList
  match valueOfChars? (2 * cs.length + 2) cs with
  | some (value, rest) => if (skipSpace rest).isEmpty then some value else none
  | none => none

end Json

end Leasehold
