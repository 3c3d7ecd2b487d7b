import Leasehold.Json.Parser

/-!
# YAML tokens

The tokens of a configuration file, with the places where they stand.  Block structure
is a matter of columns and is left to the reader of the tokens; flow collections change
what ends a plain scalar and are therefore counted here.

* `Yaml.Token`: a token and its place.
* `Yaml.Token.Shape`: the kinds of tokens.
* `Yaml.Token.ofText?`: the tokens of a text.

Anchors, aliases, tags, directives, explicit keys and block scalars are not tokens, and
a text with one of them has none.
-/

namespace Leasehold

namespace Yaml

/-- What stands at a place: an indicator, a scalar, or the mark of a document. -/
inductive Token.Shape where
  | dash
  | colon
  | comma
  | listOpen
  | listClose
  | mapOpen
  | mapClose
  | plain (text : String)
  | quoted (text : String)
  | documentStart
  | documentEnd
  deriving Repr, DecidableEq

/-- A token and its place; lines and columns start at zero. -/
structure Token where
  line : Nat
  column : Nat
  shape : Token.Shape
  deriving Repr, DecidableEq

/-- The part of a text that is still to be read, with its place. -/
structure Cursor where
  chars : List Char
  line : Nat
  column : Nat
  deriving Repr, DecidableEq

namespace Cursor

/-- The place after some characters. -/
def past (line column : Nat) : List Char → Nat × Nat
  | [] => (line, column)
  | c :: rest => if c = '\n' then past (line + 1) 0 rest else past line (column + 1) rest

/-- The cursor that has `rest` before it. -/
def upTo (cursor : Cursor) (rest : List Char) : Cursor :=
  let (line, column) :=
    past cursor.line cursor.column (cursor.chars.take (cursor.chars.length - rest.length))
  ⟨rest, line, column⟩

end Cursor

/-- A space or a tab. -/
def isBlank (c : Char) : Bool := c = ' ' || c = '\t'

/-- Whether the rest of a text begins with a blank or the end of a line. -/
def startsBlank : List Char → Bool
  | [] => true
  | c :: _ => isBlank c || c = '\n'

/-- An indicator of flow collections. -/
def isFlowIndicator (c : Char) : Bool := ",[]{}".contains c

/-- Whether the rest of a text begins with an indicator of flow collections. -/
def startsFlowIndicator : List Char → Bool
  | [] => false
  | c :: _ => isFlowIndicator c

/-- Ends of lines are line feeds. -/
def normalizeBreaks : List Char → List Char
  | [] => []
  | '\r' :: '\n' :: rest => '\n' :: normalizeBreaks rest
  | '\r' :: rest => '\n' :: normalizeBreaks rest
  | c :: rest => c :: normalizeBreaks rest

/-! ## Scalars -/

/-- Counts the ends of lines before the next character that is neither blank nor one. -/
def breaks : List Char → Nat → Nat × List Char
  | [], count => (count, [])
  | c :: rest, count =>
    if c = '\n' then breaks rest (count + 1)
    else if isBlank c then breaks rest count
    else (count, c :: rest)

/-- What some ends of lines within a scalar stand for: one is a space, and of several
the first is left out. -/
def folded (count : Nat) : List Char :=
  if count ≤ 1 then [' '] else List.replicate (count - 1) '\n'

/-- Whether only blanks stand before the end of the line. -/
def endsLine (cs : List Char) : Bool :=
  match cs.dropWhile isBlank with
  | '\n' :: _ => true
  | _ => false

/-- The character with a hexadecimal number. -/
def hexChar? (digits : List Char) : Option Char := do
  let value ← digits.foldlM (fun n c => (Json.hexDigit? c).map (16 * n + ·)) 0
  if value.isValidChar then some (Char.ofNat value) else none

/-- How many hexadecimal digits follow an escape. -/
def escapeDigits? (c : Char) : Option Nat :=
  if c = 'x' then some 2 else if c = 'u' then some 4 else if c = 'U' then some 8 else none

/-- The characters that escapes stand for. -/
def namedEscapes : List (Char × Nat) :=
  [('0', 0), ('a', 7), ('b', 8), ('t', 9), ('\t', 9), ('n', 10), ('v', 11), ('f', 12),
    ('r', 13), ('e', 27), (' ', 32), ('"', 34), ('/', 47), ('\\', 92), ('N', 0x85),
    ('_', 0xA0), ('L', 0x2028), ('P', 0x2029)]

/-- Reads a scalar up to its closing quote, for a number of characters. -/
def quotedTail (quote : Char) : Nat → List Char → Option (List Char × List Char)
  | 0, _ => none
  | fuel + 1, cs =>
    match cs with
    | [] => none
    | c :: rest =>
      if c = quote then
        match quote, rest with
        | '\'', '\'' :: rest => (quotedTail quote fuel rest).map fun (t, r) => ('\'' :: t, r)
        | _, _ => some ([], rest)
      else if c = '\n' || (isBlank c && endsLine rest) then
        -- Blanks at the end of a line are not part of the scalar.
        let (count, rest) := breaks (c :: rest) 0
        (quotedTail quote fuel rest).map fun (t, r) => (folded count ++ t, r)
      else if c = '\\' && quote = '"' then
        match rest with
        | [] => none
        -- An escaped end of line joins the two lines.
        | '\n' :: rest => quotedTail quote fuel (rest.dropWhile isBlank)
        | e :: rest =>
          match escapeDigits? e with
          | some count =>
            if rest.length < count then none
            else
              match hexChar? (rest.take count) with
              | some value =>
                (quotedTail quote fuel (rest.drop count)).map fun (t, r) => (value :: t, r)
              | none => none
          | none =>
            match namedEscapes.lookup e with
            | some value =>
              (quotedTail quote fuel rest).map fun (t, r) => (Char.ofNat value :: t, r)
            | none => none
      else (quotedTail quote fuel rest).map fun (t, r) => (c :: t, r)

/-- Reads a plain scalar up to the end of the line, a comment, a colon that ends a key,
or within a flow collection an indicator. -/
def plainTail (inFlow afterBlank : Bool) : List Char → List Char × List Char
  | [] => ([], [])
  | c :: rest =>
    if c = '\n' || (c = '#' && afterBlank) || (inFlow && isFlowIndicator c)
        || (c = ':' && (startsBlank rest || (inFlow && startsFlowIndicator rest))) then
      ([], c :: rest)
    else
      let (text, rest) := plainTail inFlow (isBlank c) rest
      (c :: text, rest)

/-- A text without the blanks at its end. -/
def trimEnd (cs : List Char) : List Char := (cs.reverse.dropWhile isBlank).reverse

/-- Characters that no plain scalar begins with. -/
def reserved : List Char := "&*!|>%@`".toList

/-! ## Tokens -/

/-- What was read so far: the number of open flow collections, whether the line has had
nothing but blanks, whether a blank stands before the cursor, and whether a scalar or a
flow collection ends there. -/
structure Scan where
  depth : Nat
  lineStart : Bool
  afterBlank : Bool
  closed : Bool
  deriving Repr, DecidableEq

/-- Whether the mark of a document stands at the cursor. -/
def isMark (mark : List Char) (cursor : Cursor) : Bool :=
  cursor.column = 0 && cursor.chars.take 3 == mark && startsBlank (cursor.chars.drop 3)

/-- The token at the cursor, the rest behind it, and how it changes what was read; blanks
and comments have been skipped. -/
def tokenAt? (scan : Scan) (cursor : Cursor) (c : Char) (rest : List Char) :
    Option (Token.Shape × List Char × Scan) :=
  let inFlow := 0 < scan.depth
  let next : Scan := { scan with lineStart := false, afterBlank := false, closed := false }
  if isMark "---".toList cursor && !inFlow then
    some (.documentStart, cursor.chars.drop 3, next)
  else if isMark "...".toList cursor && !inFlow then
    some (.documentEnd, cursor.chars.drop 3, next)
  else if c = ':' && (startsBlank rest || (inFlow && (startsFlowIndicator rest || scan.closed)))
  then some (.colon, rest, next)
  else if c = ',' then if inFlow then some (.comma, rest, next) else none
  else if c = ']' then
    if inFlow then some (.listClose, rest, { next with depth := scan.depth - 1, closed := true })
    else none
  else if c = '\x7d' then
    if inFlow then some (.mapClose, rest, { next with depth := scan.depth - 1, closed := true })
    else none
  -- Behind a scalar or a collection only the signs above may follow.
  else if scan.closed then none
  else if c = '[' then some (.listOpen, rest, { next with depth := scan.depth + 1 })
  else if c = '\x7b' then some (.mapOpen, rest, { next with depth := scan.depth + 1 })
  else if c = '-' && startsBlank rest then if inFlow then none else some (.dash, rest, next)
  else if c = '?' && startsBlank rest then none
  else if c = '"' || c = '\'' then
    (quotedTail c cursor.chars.length rest).map fun (text, rest) =>
      (.quoted (String.ofList text), rest, { next with closed := true })
  else if c = '#' || reserved.contains c then none
  else
    let (text, rest) := plainTail inFlow false rest
    let kept := trimEnd (c :: text)
    some (.plain (String.ofList kept), rest,
      { next with
        closed := kept.length = (c :: text).length
        afterBlank := kept.length < (c :: text).length })

/-- Reads tokens for a number of characters. -/
def scanFor : Nat → Scan → Cursor → Option (List Token)
  | 0, _, cursor => if cursor.chars.isEmpty then some [] else none
  | fuel + 1, scan, cursor =>
    match cursor.chars with
    | [] => some []
    | c :: rest =>
      if c = '\n' then
        scanFor fuel { scan with lineStart := true, afterBlank := true, closed := false }
          (cursor.upTo rest)
      else if c = '\t' && scan.lineStart && scan.depth = 0
          && !(endsLine rest || (rest.dropWhile isBlank).isEmpty) then none
      else if isBlank c then
        scanFor fuel { scan with afterBlank := true, closed := false } (cursor.upTo rest)
      else if c = '#' && scan.afterBlank then
        scanFor fuel scan (cursor.upTo (rest.dropWhile (· != '\n')))
      else
        match tokenAt? scan cursor c rest with
        | none => none
        | some (shape, rest, scan) =>
          (scanFor fuel scan (cursor.upTo rest)).map fun tokens =>
            ⟨cursor.line, cursor.column, shape⟩ :: tokens

/-- The tokens of a text. -/
def Token.ofText? (text : String) : Option (List Token) :=
  let chars := normalizeBreaks text.toList
  scanFor (chars.length + 1) ⟨0, true, true, false⟩ ⟨chars, 0, 0⟩

end Yaml

end Leasehold
