import Leasehold.Time.Instant

/-!
# Timestamps

The text of a clock reading: date, `T`, time, a fraction of as few groups of three
digits as are exact, and the offset from UTC.

* `Instant.toText`: prints a reading, with `+00:00` or `Z` at the end.
* `Instant.ofText?`: reads a timestamp of any offset.
-/

namespace Leasehold

/-- A natural with zeros in front up to `width` digits. -/
def zeroPadded (width n : Nat) : String :=
  let digits := Nat.toDigits 10 n
  String.ofList (List.replicate (width - digits.length) '0' ++ digits)

/-- A year: four digits from 0 to 9999, a sign and at least four digits otherwise. -/
def Date.yearText (year : Int) : String :=
  if 0 ≤ year && year ≤ 9999 then zeroPadded 4 year.toNat
  else (if year < 0 then "-" else "+") ++ zeroPadded 4 year.natAbs

/-- A fraction of a second with 0, 3, 6 or 9 digits, the fewest that are exact. -/
def fractionGroups (nanos : Nat) : String :=
  if nanos = 0 then ""
  else if nanos % 1000000 = 0 then "." ++ zeroPadded 3 (nanos / 1000000)
  else if nanos % 1000 = 0 then "." ++ zeroPadded 6 (nanos / 1000)
  else "." ++ zeroPadded 9 nanos

namespace Instant

/-- How the offset of a reading in UTC is written. -/
inductive Offset where
  | numeric
  | letter
  deriving Repr, DecidableEq

/-- The text of the offset. -/
def Offset.text : Offset → String
  | numeric => "+00:00"
  | letter => "Z"

/-- The timestamp of a reading; a leap second is second 60. -/
def toText (instant : Instant) (offset : Offset) : String :=
  let date := Date.ofDay instant.day
  let time := instant.secondOfDay.toNat
  let leap := instant.inLeapSecond
  let second := time % 60 + (if leap then 1 else 0)
  let nanos := if leap then instant.nanos - Span.nanosPerSecond else instant.nanos
  Date.yearText date.year ++ "-" ++ zeroPadded 2 date.month ++ "-" ++ zeroPadded 2 date.day
    ++ "T" ++ zeroPadded 2 (time / 3600) ++ ":" ++ zeroPadded 2 (time / 60 % 60)
    ++ ":" ++ zeroPadded 2 second ++ fractionGroups nanos ++ offset.text

/-! ## Reading -/

/-- Blanks that may stand between the parts of a timestamp. -/
def isBlank (c : Char) : Bool :=
  let n := c.toNat
  (9 ≤ n && n ≤ 13) || n = 32 || n = 0x85 || n = 0xA0 || n = 0x1680
    || (0x2000 ≤ n && n ≤ 0x200A) || n = 0x2028 || n = 0x2029 || n = 0x202F
    || n = 0x205F || n = 0x3000

/-- A reader of one part of a timestamp: its value and the text that follows. -/
abbrev Reader (α : Type) := List Char → Option (α × List Char)

/-- Reads one digit or more, at most `most`. -/
def readDigits (most : Nat) : Reader Nat := fun cs =>
  let digits := (cs.take most).takeWhile Char.isDigit
  if digits.isEmpty then none else some (Word.ofDigits digits, cs.drop digits.length)

/-- Reads a number of at most two digits after any blanks. -/
def readPair : Reader Nat := fun cs => readDigits 2 (cs.dropWhile isBlank)

/-- Reads a year after any blanks: up to four digits, or a sign and any number. -/
def readYear : Reader Int := fun cs =>
  match cs.dropWhile isBlank with
  | '-' :: rest => (readDigits rest.length rest).map fun (n, rest) => (-(n : Int), rest)
  | '+' :: rest => (readDigits rest.length rest).map fun (n, rest) => ((n : Int), rest)
  | rest => (readDigits 4 rest).map fun (n, rest) => ((n : Int), rest)

/-- Reads a mark after any blanks. -/
def readMark (mark : Char) : Reader Unit := fun cs =>
  match cs.dropWhile isBlank with
  | c :: rest => if c = mark then some ((), rest) else none
  | [] => none

/-- Reads the fraction of a second if a point follows; digits past the ninth are
dropped. -/
def readFraction : Reader Nat
  | '.' :: rest =>
    let digits := rest.takeWhile Char.isDigit
    if digits.isEmpty then none
    else
      let kept := digits.take 9
      some (Word.ofDigits kept * Nat.pow 10 (9 - kept.length), rest.drop digits.length)
  | cs => some (0, cs)

/-- Reads hours and minutes of an offset, in seconds; any colons and blanks may stand
between them. -/
def readOffsetDigits : Reader Int
  | h₁ :: h₂ :: rest =>
    if h₁.isDigit && h₂.isDigit then
      match rest.dropWhile fun c => c = ':' || isBlank c with
      | m₁ :: m₂ :: rest =>
        if m₁.isDigit && m₂.isDigit && m₁.toNat ≤ '5'.toNat then
          some (((Word.ofDigits [h₁, h₂] * 60 + Word.ofDigits [m₁, m₂]) * 60 : Nat), rest)
        else none
      | _ => none
    else none
  | _ => none

/-- Reads an offset from UTC in seconds: `Z`, `UTC`, or a sign, hours and minutes. -/
def readOffset : Reader Int
  | u :: t :: c :: rest =>
    if u.toLower = 'u' && t.toLower = 't' && c.toLower = 'c' then some (0, rest)
    else signed (u :: t :: c :: rest)
  | cs => signed cs
where
  /-- An offset that is not the word `UTC`. -/
  signed : Reader Int
    | 'Z' :: rest => some (0, rest)
    | 'z' :: rest => some (0, rest)
    | '+' :: rest => readOffsetDigits rest
    | '-' :: rest => (readOffsetDigits rest).map fun (n, rest) => (-n, rest)
    | '−' :: rest => (readOffsetDigits rest).map fun (n, rest) => (-n, rest)
    | _ => none

/-- Reads the mark between date and time. -/
def readTimeMark : Reader Unit
  | 'T' :: rest => some ((), rest)
  | 't' :: rest => some ((), rest)
  | ' ' :: rest => some ((), rest)
  | _ => none

/-- The reading of a local date and time with its offset. -/
def ofLocal? (date : Date) (hour minute second nanos : Nat) (offset : Int) : Option Instant :=
  if date.isValid && hour ≤ 23 && minute ≤ 59 && second ≤ 60
      && -secondsPerDay < offset && offset < secondsPerDay then
    let leap := second = 60
    let second := if leap then 59 else second
    let time : Nat := hour * 3600 + minute * 60 + second
    let instant : Instant :=
      ⟨date.toDay * secondsPerDay + time - offset,
        nanos + (if leap then Span.nanosPerSecond else 0)⟩
    -- The offset may lead out of the supported years.
    if Date.firstDay ≤ instant.day && instant.day ≤ Date.lastDay then some instant else none
  else none

/-- Reads a whole timestamp; blanks may follow it. -/
def ofText? (text : String) : Option Instant := do
  let (year, cs) ← readYear text.toList
  let ((), cs) ← readMark '-' cs
  let (month, cs) ← readPair cs
  let ((), cs) ← readMark '-' cs
  let (day, cs) ← readPair cs
  let ((), cs) ← readTimeMark cs
  let (hour, cs) ← readPair cs
  let ((), cs) ← readMark ':' cs
  let (minute, cs) ← readPair cs
  let ((), cs) ← readMark ':' cs
  let (second, cs) ← readPair cs
  let (nanos, cs) ← readFraction cs
  let (offset, cs) ← readOffset (cs.dropWhile isBlank)
  if (cs.dropWhile isBlank).isEmpty then
    ofLocal? ⟨year, month, day⟩ hour minute second nanos offset
  else none

end Instant

end Leasehold
