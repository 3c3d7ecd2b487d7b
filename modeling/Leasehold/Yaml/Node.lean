import Leasehold.Number.Decimal
import Leasehold.Number.Word
import Leasehold.Yaml.Token

/-!
# YAML nodes

* `Yaml.Node`: a scalar, a list or a map, as written.
* `Yaml.Node.ofTokens?`: the node of a document.
* `Yaml.Scalar`: what a scalar means, `Yaml.Scalar.ofPlain` for those without quotes.

In block structure a node belongs to the node around it as long as it stands further to
the right; a list under a key may also stand in the column of the key.
-/

namespace Leasehold

namespace Yaml

/-- A node as written. -/
inductive Node where
  | plain (text : String)
  | quoted (text : String)
  | list (items : List Node)
  | map (entries : List (Node × Node))
  deriving Repr, Inhabited

namespace Node

/-- The node where nothing is written. -/
def absent : Node := plain ""

/-- Whether the first token is a colon on a line. -/
def colonOn (line : Nat) : List Token → Bool
  | ⟨colonLine, _, .colon⟩ :: _ => colonLine == line
  | _ => false

/-- A plain scalar continues on the following lines as long as they stand to the right of
the node around it and have no key. -/
def continuePlain (around : Int) (line : Nat) (text : String) :
    List Token → String × List Token
  | ⟨nextLine, column, .plain more⟩ :: rest =>
    if line < nextLine && around < column && !colonOn nextLine rest then
      continuePlain around nextLine
        (text ++ String.ofList (folded (nextLine - line)) ++ more) rest
    else (text, ⟨nextLine, column, .plain more⟩ :: rest)
  | tokens => (text, tokens)

mutual

/-- A node within a flow collection. -/
def flow? : Nat → List Token → Option (Node × List Token)
  | 0, _ => none
  | fuel + 1, tokens =>
    match tokens with
    | ⟨line, _, .plain text⟩ :: rest =>
      let (text, rest) := continuePlain (-1) line text rest
      some (plain text, rest)
    | ⟨_, _, .quoted text⟩ :: rest => some (quoted text, rest)
    | ⟨_, _, .listOpen⟩ :: rest => (flowItems? fuel rest).map fun (items, r) => (list items, r)
    | ⟨_, _, .mapOpen⟩ :: rest =>
      (flowEntries? fuel rest).map fun (entries, r) => (map entries, r)
    | _ => none

/-- The node behind a colon within a flow collection; there may be none. -/
def flowValue? : Nat → List Token → Option (Node × List Token)
  | 0, _ => none
  | fuel + 1, tokens =>
    match tokens with
    | ⟨line, column, shape⟩ :: rest =>
      match shape with
      | .comma | .listClose | .mapClose => some (absent, ⟨line, column, shape⟩ :: rest)
      | _ => flow? fuel (⟨line, column, shape⟩ :: rest)
    | [] => none

/-- The items of a flow list up to its end; an item with a colon is a map of its own. -/
def flowItems? : Nat → List Token → Option (List Node × List Token)
  | 0, _ => none
  | fuel + 1, tokens =>
    match tokens with
    | ⟨_, _, .listClose⟩ :: rest => some ([], rest)
    | _ =>
      match flow? fuel tokens with
      | none => none
      | some (item, rest) =>
        let item? : Option (Node × List Token) :=
          match rest with
          | ⟨_, _, .colon⟩ :: rest =>
            (flowValue? fuel rest).map fun (value, rest) => (map [(item, value)], rest)
          | rest => some (item, rest)
        match item? with
        | some (item, ⟨_, _, .comma⟩ :: rest) =>
          (flowItems? fuel rest).map fun (items, rest) => (item :: items, rest)
        | some (item, ⟨_, _, .listClose⟩ :: rest) => some ([item], rest)
        | _ => none

/-- The entries of a flow map up to its end; a key may stand without a value. -/
def flowEntries? : Nat → List Token → Option (List (Node × Node) × List Token)
  | 0, _ => none
  | fuel + 1, tokens =>
    match tokens with
    | ⟨_, _, .mapClose⟩ :: rest => some ([], rest)
    | _ =>
      match flow? fuel tokens with
      | none => none
      | some (key, rest) =>
        let value? : Option (Node × List Token) :=
          match rest with
          | ⟨_, _, .colon⟩ :: rest => flowValue? fuel rest
          | rest => some (absent, rest)
        match value? with
        | some (value, ⟨_, _, .comma⟩ :: rest) =>
          (flowEntries? fuel rest).map fun (entries, rest) => ((key, value) :: entries, rest)
        | some (value, ⟨_, _, .mapClose⟩ :: rest) => some ([(key, value)], rest)
        | _ => none

end

/-- A node that does not begin with a dash and is no block map. -/
def inline? (around : Int) (fuel : Nat) (tokens : List Token) : Option (Node × List Token) :=
  match tokens with
  | ⟨line, _, .plain text⟩ :: rest =>
    let (text, rest) := continuePlain around line text rest
    some (plain text, rest)
  | _ => flow? fuel tokens

mutual

/-- The node that stands to the right of the node around it, if there is one. -/
def block? (around : Int) : Nat → List Token → Option (Node × List Token)
  | 0, _ => none
  | fuel + 1, tokens =>
    match tokens with
    | [] => some (absent, [])
    | ⟨line, column, shape⟩ :: rest =>
      if (column : Int) ≤ around then some (absent, tokens)
      else
        match shape with
        | .documentStart | .documentEnd => some (absent, tokens)
        | .dash => (items? column fuel tokens).map fun (items, rest) => (list items, rest)
        | .plain _ | .quoted _ =>
          if colonOn line rest then
            (entries? column fuel tokens).map fun (entries, rest) => (map entries, rest)
          else inline? around fuel tokens
        | _ => inline? around fuel tokens
termination_by structural fuel => fuel

/-- The items of a block list in a column. -/
def items? (column : Nat) : Nat → List Token → Option (List Node × List Token)
  | 0, _ => none
  | fuel + 1, tokens =>
    match tokens with
    | ⟨line, dashColumn, .dash⟩ :: rest =>
      if dashColumn = column then
        match block? column fuel rest with
        | none => none
        | some (item, rest) =>
          (items? column fuel rest).map fun (items, rest) => (item :: items, rest)
      else some ([], ⟨line, dashColumn, .dash⟩ :: rest)
    | _ => some ([], tokens)
termination_by structural fuel => fuel

/-- The value of a key in a column. -/
def value? (column line : Nat) : Nat → List Token → Option (Node × List Token)
  | 0, _ => none
  | fuel + 1, tokens =>
    match tokens with
    | ⟨nextLine, nextColumn, shape⟩ :: rest =>
      if nextLine = line then
        -- A list and a further key cannot begin on the line of a key.
        if shape = .dash || colonOn line rest then none else inline? column fuel tokens
      else if shape = .dash && nextColumn = column then
        (items? column fuel tokens).map fun (items, rest) => (list items, rest)
      else block? column fuel tokens
    | [] => some (absent, [])
termination_by structural fuel => fuel

/-- The entries of a block map in a column. -/
def entries? (column : Nat) : Nat → List Token → Option (List (Node × Node) × List Token)
  | 0, _ => none
  | fuel + 1, tokens =>
    match tokens with
    | ⟨line, keyColumn, shape⟩ :: rest =>
      let key? :=
        match shape with
        | .plain text => some (plain text)
        | .quoted text => some (quoted text)
        | _ => none
      match key? with
      | some key =>
        if keyColumn = column && colonOn line rest then
          match value? column line fuel (rest.drop 1) with
          | none => none
          | some (value, rest) =>
            (entries? column fuel rest).map fun (entries, rest) => ((key, value) :: entries, rest)
        else some ([], tokens)
      | none => some ([], tokens)
    | [] => some ([], [])
termination_by structural fuel => fuel

end

/-- The node of a single document; `none` within the answer stands for a text without
any document. -/
def ofTokens? (tokens : List Token) : Option (Option Node) :=
  -- Each token is looked at by at most four of the readers.
  let fuel := 4 * tokens.length + 8
  let finish (result : Option (Node × List Token)) : Option (Option Node) :=
    match result with
    | some (node, rest) =>
      if rest.all fun token => token.shape = .documentEnd then some (some node) else none
    | none => none
  match tokens with
  | [] => some none
  | ⟨_, _, .documentStart⟩ :: rest => finish (block? (-1) fuel rest)
  | tokens => finish (block? (-1) fuel tokens)

/-- The node of a text. -/
def ofText? (text : String) : Option (Option Node) := (Token.ofText? text).bind ofTokens?

end Node

/-- What a scalar means. -/
inductive Scalar where
  | null
  | bool (b : Bool)
  | int (n : Int)
  | real (text : String)
  | text (text : String)
  deriving Repr, DecidableEq

/-- The integer of a text: an optional sign and digits of a base, within 64 bits. -/
def intOfChars? (base : Nat) (cs : List Char) : Option Int :=
  let (negative, digits) :=
    match cs with
    | '-' :: rest => (true, rest)
    | '+' :: rest => (false, rest)
    | rest => (false, rest)
  if digits.isEmpty then none
  else
    let value? := digits.foldlM (fun (n : Nat) c =>
      (Json.hexDigit? c).bind fun d => if d < base then some (base * n + d) else none) 0
    value?.bind fun n =>
      let value : Int := if negative then -(n : Int) else n
      if Word.holdsInt 64 value then some value else none

namespace Scalar

/-- The words for numbers that no digits write. -/
def specialReals : List String :=
  [".inf", ".Inf", ".INF", "+.inf", "+.Inf", "+.INF", "-.inf", "-.Inf", "-.INF", ".nan", ".NaN",
    ".NAN"]

/-- Whether a text is written as a real number. -/
def isReal (text : String) : Bool :=
  specialReals.contains text
    || (text.toList.any Char.isDigit && (Binary64.ofText? text).isSome)

/-- The integer of a plain scalar, in base ten, sixteen or eight. -/
def int? (text : String) : Option Int :=
  match text.toList with
  | '0' :: 'x' :: rest => intOfChars? 16 rest
  | '0' :: 'o' :: rest => intOfChars? 8 rest
  | '+' :: rest => (intOfChars? 10 rest).or (intOfChars? 10 text.toList)
  | cs => intOfChars? 10 cs

/-- What a plain scalar means. -/
def ofPlain (written : String) : Scalar :=
  if ["", "~", "null"].contains written then null
  else if ["true", "True", "TRUE"].contains written then bool true
  else if ["false", "False", "FALSE"].contains written then bool false
  else
    match int? written with
    | some n => int n
    | none => if isReal written then real written else text written

end Scalar

end Yaml

end Leasehold
