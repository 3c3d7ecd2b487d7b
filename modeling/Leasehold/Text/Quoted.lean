/-!
# Quoted texts

A text that is shown to an operator stands between quotes, and whatever could not be
seen or would be taken for a quote is escaped.

* `Text.Quoted.isShown`: the characters that are shown as they are.
* `Text.quoted`: a text between quotes.
-/

namespace Leasehold

namespace Text

namespace Quoted

/-- Characters that leave no mark of their own: controls, separators, format characters
and private ones. -/
def invisible : List (Nat × Nat) :=
  [(0, 31), (127, 160), (173, 173), (1536, 1541), (1564, 1564), (1757, 1757), (1807, 1807),
    (2192, 2193), (2274, 2274), (5760, 5760), (6158, 6158), (8192, 8207), (8232, 8239),
    (8287, 8303), (12288, 12288), (57344, 63743), (65279, 65279), (65529, 65531),
    (69821, 69821), (69837, 69837), (78896, 78911), (113824, 113827), (119155, 119162),
    (917504, 917631), (983040, 1114111)]

/-- Marks that join the character before them. -/
def combining : List (Nat × Nat) :=
  [(0x300, 0x36F), (0x483, 0x489), (0x591, 0x5BD), (0x610, 0x61A), (0x64B, 0x65F),
    (0x93A, 0x93A), (0x93C, 0x93C), (0x941, 0x948), (0x94D, 0x94D), (0xE31, 0xE31),
    (0xE34, 0xE3A), (0xE47, 0xE4E), (0x1AB0, 0x1ACE), (0x1DC0, 0x1DFF), (0x20D0, 0x20F0),
    (0x302A, 0x302F), (0x3099, 0x309A), (0xFE00, 0xFE0F), (0xFE20, 0xFE2F), (0xFF9E, 0xFF9F),
    (0xE0100, 0xE01EF)]

/-- Whether a number is in one of some ranges. -/
def within (ranges : List (Nat × Nat)) (n : Nat) : Bool :=
  ranges.any fun (low, high) => low ≤ n && n ≤ high

/-- Whether a character is shown as it is. -/
def isShown (c : Char) : Bool := !within invisible c.toNat && !within combining c.toNat

/-- A character within quotes. -/
def escaped (c : Char) : String :=
  if c = '"' then "\\\""
  else if c = '\\' then "\\\\"
  else if c = '\n' then "\\n"
  else if c = '\r' then "\\r"
  else if c = '\t' then "\\t"
  else if c.toNat = 0 then "\\0"
  else if isShown c then String.singleton c
  else "\\u\x7b" ++ String.ofList (Nat.toDigits 16 c.toNat) ++ "\x7d"

end Quoted

/-- A text between quotes. -/
def quoted (text : String) : String :=
  "\"" ++ String.join (text.toList.map Quoted.escaped) ++ "\""

end Text

end Leasehold
