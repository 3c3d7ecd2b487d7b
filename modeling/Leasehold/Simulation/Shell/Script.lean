/-!
# Shell scripts

A script is a list of simple commands.  A command has words, which are made of literal
pieces and of parameters, and redirections of its output.

* `Shell.Piece`, `Shell.Word`, `Shell.Statement`: the parts of a script.
* `Shell.scriptOfText?`: the script of a text; loops, pipes and the like have none.
-/

namespace Leasehold

namespace Shell

/-- A piece of a word. -/
inductive Piece where
  | literal (text : String) (quoted : Bool)
  | parameter (name : String) (quoted : Bool)
  deriving Repr, DecidableEq

/-- A word; pieces that touch belong together. -/
abbrev Word := List Piece

/-- When a command runs: in any case, or depending on the status before it. -/
inductive Condition where
  | always
  | onSuccess
  | onFailure
  deriving Repr, DecidableEq

/-- Where an output goes: to where another output goes, to a file, or to the end of one. -/
inductive Destination where
  | output (number : Nat)
  | file (name : Word) (append : Bool)
  deriving Repr, DecidableEq

/-- A redirection of an output. -/
structure Redirection where
  output : Nat
  destination : Destination
  deriving Repr, DecidableEq

/-- A simple command. -/
structure Statement where
  condition : Condition
  words : List Word
  redirections : List Redirection
  deriving Repr, DecidableEq

/-- A lexical part of a script. -/
inductive Token where
  | word (word : Word)
  | separator (condition : Condition)
  | redirection (redirection : Redirection)
  | redirectionToFile (output : Nat) (append : Bool)
  deriving Repr, DecidableEq

/-! ## Words -/

/-- Parameters with a name of one character. -/
def shortParameters : List Char := "?$#@*!-".toList

/-- A character of the name of a variable. -/
def isNameChar (c : Char) : Bool := c.isAlphanum || c = '_'

/-- The name of the parameter behind a dollar sign, and the rest behind it. -/
def parameterOfChars? (cs : List Char) : Option (String × List Char) :=
  match cs with
  | '\x7b' :: rest =>
    let name := rest.takeWhile (· != '\x7d')
    some (String.ofList name, (rest.drop name.length).drop 1)
  | c :: rest =>
    if shortParameters.contains c || c.isDigit then some (String.singleton c, rest)
    else if c.isAlpha || c = '_' then
      let name := cs.takeWhile isNameChar
      some (String.ofList name, cs.drop name.length)
    else none
  | [] => none

/-- The pieces of a text between double quotes, for a number of characters, and the rest
behind the quote. -/
def doubleQuoted : Nat → List Char → Option (List Piece × List Char)
  | 0, _ => none
  | fuel + 1, cs =>
    match cs with
    | [] => none
    | '"' :: rest => some ([], rest)
    | '\\' :: c :: rest =>
      let text := if "$\"\\\n".contains c then String.singleton c else String.ofList ['\\', c]
      (doubleQuoted fuel rest).map fun (pieces, r) => (.literal text true :: pieces, r)
    | '$' :: rest =>
      match parameterOfChars? rest with
      | some (name, rest) =>
        (doubleQuoted fuel rest).map fun (pieces, r) => (.parameter name true :: pieces, r)
      | none => (doubleQuoted fuel rest).map fun (pieces, r) => (.literal "$" true :: pieces, r)
    | c :: rest =>
      (doubleQuoted fuel rest).map fun (pieces, r) =>
        (.literal (String.singleton c) true :: pieces, r)

/-- Characters that end a word. -/
def isWordEnd (c : Char) : Bool := " \t\n;&|<>()".contains c

/-- The pieces of a word up to its end, for a number of characters. -/
def wordOfChars? : Nat → List Char → Option (Word × List Char)
  | 0, _ => none
  | fuel + 1, cs =>
    match cs with
    | [] => some ([], [])
    | '\'' :: rest =>
      let text := rest.takeWhile (· != '\'')
      match rest.drop text.length with
      | [] => none
      | _ :: rest =>
        (wordOfChars? fuel rest).map fun (pieces, r) =>
          (.literal (String.ofList text) true :: pieces, r)
    | '"' :: rest =>
      match doubleQuoted (rest.length + 1) rest with
      | none => none
      | some (quoted, rest) =>
        (wordOfChars? fuel rest).map fun (pieces, r) =>
          (.literal "" true :: (quoted ++ pieces), r)
    | '\\' :: c :: rest =>
      (wordOfChars? fuel rest).map fun (pieces, r) =>
        (.literal (String.singleton c) true :: pieces, r)
    | '$' :: rest =>
      match rest, parameterOfChars? rest with
      | '(' :: _, _ => none
      | _, some (name, rest) =>
        (wordOfChars? fuel rest).map fun (pieces, r) => (.parameter name false :: pieces, r)
      | _, none =>
        (wordOfChars? fuel rest).map fun (pieces, r) => (.literal "$" false :: pieces, r)
    | c :: rest =>
      if isWordEnd c then some ([], c :: rest)
      else
        (wordOfChars? fuel rest).map fun (pieces, r) =>
          (.literal (String.singleton c) false :: pieces, r)

/-! ## Tokens -/

/-- The destination behind the sign of a redirection. -/
def redirectionOfChars (output : Nat) (cs : List Char) : Token × List Char :=
  match cs with
  | '>' :: rest => (.redirectionToFile output true, rest)
  | '&' :: c :: rest =>
    if c.isDigit then (.redirection ⟨output, .output (c.toNat - '0'.toNat)⟩, rest)
    else (.redirectionToFile output false, '&' :: c :: rest)
  | rest => (.redirectionToFile output false, rest)

/-- The tokens of a script, for a number of characters. -/
def tokensOfChars? : Nat → List Char → Option (List Token)
  | 0, _ => none
  | fuel + 1, cs =>
    let more (token : Token) (rest : List Char) : Option (List Token) :=
      (tokensOfChars? fuel rest).map (token :: ·)
    match cs with
    | [] => some []
    | '&' :: '&' :: rest => more (.separator .onSuccess) rest
    | '|' :: '|' :: rest => more (.separator .onFailure) rest
    | ';' :: rest => more (.separator .always) rest
    | '\n' :: rest => more (.separator .always) rest
    | '#' :: rest => tokensOfChars? fuel (rest.dropWhile (· != '\n'))
    | '>' :: rest =>
      let (token, rest) := redirectionOfChars 1 rest
      more token rest
    | '1' :: '>' :: rest =>
      let (token, rest) := redirectionOfChars 1 rest
      more token rest
    | '2' :: '>' :: rest =>
      let (token, rest) := redirectionOfChars 2 rest
      more token rest
    | c :: rest =>
      if c = ' ' || c = '\t' then tokensOfChars? fuel rest
      else if isWordEnd c then none
      else
        match wordOfChars? (cs.length + 1) cs with
        | some (word, rest) => more (.word word) rest
        | none => none

/-- Words that begin what is no simple command. -/
def compoundWords : List String :=
  ["if", "then", "else", "elif", "fi", "for", "while", "until", "do", "done", "case", "esac",
    "\x7b", "\x7d", "!"]

/-- The text of a word without quotes and parameters. -/
def plainText? (word : Word) : Option String :=
  let texts? : Option (List String) :=
    word.mapM fun (piece : Piece) =>
      match piece with
      | .literal text false => some text
      | _ => none
  texts?.map String.join

/-- The statements of tokens; the first joins those that were read already. -/
def statementsOfTokens? (current : Statement) : List Token → Option (List Statement)
  | [] => some (if current.words.isEmpty then [] else [current])
  | .word word :: rest =>
    if current.words.isEmpty && ((plainText? word).map compoundWords.contains).getD false then none
    else statementsOfTokens? { current with words := current.words ++ [word] } rest
  | .separator condition :: rest =>
    let next := statementsOfTokens? ⟨condition, [], []⟩ rest
    if current.words.isEmpty then
      if condition = .always && current.condition = .always then next else none
    else next.map (current :: ·)
  | .redirection redirection :: rest =>
    statementsOfTokens?
      { current with redirections := current.redirections ++ [redirection] } rest
  | .redirectionToFile output append :: .word name :: rest =>
    statementsOfTokens?
      { current with redirections := current.redirections ++ [⟨output, .file name append⟩] } rest
  | .redirectionToFile _ _ :: _ => none

/-- The script of a text. -/
def scriptOfText? (text : String) : Option (List Statement) :=
  let cs := text.toList
  (tokensOfChars? (cs.length + 1) cs).bind (statementsOfTokens? ⟨.always, [], []⟩)

end Shell

end Leasehold
