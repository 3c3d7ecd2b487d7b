import Leasehold.Sql.Statement

/-!
# Reading statements

A database sees the text of a statement only.  It reads the text character by character: an
identifier ends at its mark unless the mark is doubled, a numbered placeholder ends where its digits
end, and everything else stands for itself.  A statement is written from pieces, and from the text
the same pieces are read again, whatever the identifiers hold.

* `Token`: what a text is read as.
* `Reader`: where in a token the reader stands.
* `tokens?`: a text as tokens; an identifier without its end is none.
* `Parted`: pieces of which no two run together.
* `tokens?_textFrom`: the text of such pieces is read as the pieces that it was written from.
* `placeholders_tokensFrom`: of these the placeholders are those of the slots, in order.
-/

namespace Leasehold

namespace Sql

/-! ## The reader -/

/-- What the text of a statement is read as. -/
inductive Token where
  | name (identifier : String)
  | placeholder (text : String)
  | sign (c : Char)
  deriving Repr, DecidableEq

/-- Where a reader stands.  Behind a mark within an identifier it cannot tell yet whether the mark
ends the identifier or is doubled. -/
inductive Reader where
  | between
  | inName (read : List Char)
  | afterMark (read : List Char)
  | inNumber (digits : List Char)
  | inLiteral
  deriving Repr, DecidableEq

/-- The placeholder with some digits. -/
def numbered (digits : List Char) : Token := .placeholder (String.ofList ('$' :: digits))

/-- The marks around literals. -/
def isLiteralMark (c : Char) : Bool := c = Char.ofNat 39 || c = '"'

namespace Reader

/-- Reads the first character of a token. -/
def start (dialect : Dialect) (c : Char) : Reader × List Token :=
  if c = dialect.quoteMark then (inName [], [])
  else if isLiteralMark c then (inLiteral, [])
  else
    match dialect with
    | .postgres => if c = '$' then (inNumber [], []) else (between, [.sign c])
    | _ => if c = '?' then (between, [.placeholder "?"]) else (between, [.sign c])

/-- Reads a character: where the reader stands then, and the tokens that are complete. -/
def advance (dialect : Dialect) : Reader → Char → Reader × List Token
  | between, c => start dialect c
  | inName read, c =>
    if c = dialect.quoteMark then (afterMark read, []) else (inName (read ++ [c]), [])
  | afterMark read, c =>
    if c = dialect.quoteMark then (inName (read ++ [c]), [])
    else
      let (next, tokens) := start dialect c
      (next, .name (String.ofList read) :: tokens)
  | inNumber digits, c =>
    if c.isDigit then (inNumber (digits ++ [c]), [])
    else
      let (next, tokens) := start dialect c
      (next, numbered digits :: tokens)
  | inLiteral, _ => (inLiteral, [])

/-- The token that the end of a text completes.  Nothing that is sent has a literal in it, and the
reader does not go on from one. -/
def finish : Reader → Option (List Token)
  | between => some []
  | inName _ => none
  | afterMark read => some [.name (String.ofList read)]
  | inNumber digits => some [numbered digits]
  | inLiteral => none

/-- Reads characters to their end. -/
def read (dialect : Dialect) : Reader → List Char → Option (List Token)
  | reader, [] => reader.finish
  | reader, c :: rest =>
    let (next, tokens) := reader.advance dialect c
    (next.read dialect rest).map (tokens ++ ·)

end Reader

/-- A text as tokens. -/
def tokens? (dialect : Dialect) (text : String) : Option (List Token) :=
  Reader.between.read dialect text.toList

/-- The placeholder that a token is. -/
def Token.placeholder? : Token → Option String
  | placeholder text => some text
  | _ => none

/-- The placeholders in a text, in order. -/
def placeholders? (dialect : Dialect) (text : String) : Option (List String) :=
  (tokens? dialect text).map fun tokens => tokens.filterMap Token.placeholder?

/-! ## Reading one piece -/

namespace Reader

variable {dialect : Dialect}

/-- A character that can neither begin an identifier, a literal or a placeholder nor go on
with one. -/
def IsPlain (c : Char) : Prop :=
  c ≠ Char.ofNat 96 ∧ isLiteralMark c = false ∧ c ≠ '$' ∧ c ≠ '?'

instance (c : Char) : Decidable (IsPlain c) := by unfold IsPlain; infer_instance

theorem quoteMark_ne_of_isPlain (dialect : Dialect) {c : Char} (h : IsPlain c) :
    c ≠ dialect.quoteMark := by
  rintro rfl
  cases dialect
  · exact h.1 rfl
  · exact absurd h.2.1 (by decide)
  · exact absurd h.2.1 (by decide)

theorem start_of_isPlain {c : Char} (h : IsPlain c) :
    start dialect c = (between, [.sign c]) := by
  have hMark := quoteMark_ne_of_isPlain dialect h
  cases dialect <;>
    simp only [start, if_neg hMark, h.2.1, if_neg Bool.false_ne_true, if_neg h.2.2.1,
      if_neg h.2.2.2]

/-- Plain characters are read as they are. -/
theorem read_plain {text : List Char} (h : ∀ c ∈ text, IsPlain c) (rest : List Char) :
    between.read dialect (text ++ rest)
      = (between.read dialect rest).map (text.map Token.sign ++ ·) := by
  induction text with
  | nil => simp
  | cons c text ih =>
      have hText := ih fun d hd => h d (List.mem_cons_of_mem c hd)
      rw [List.cons_append, read, advance, start_of_isPlain (h c List.mem_cons_self)]
      simp only [hText, Option.map_map]
      rfl

/-- Within an identifier a doubled mark stands for a mark, and the rest is read as it is. -/
theorem read_doubled (name read rest : List Char) :
    (inName read).read dialect (doubled dialect.quoteMark name ++ dialect.quoteMark :: rest)
      = (afterMark (read ++ name)).read dialect rest := by
  induction name generalizing read with
  | nil => simp [doubled, Reader.read, advance]
  | cons c name ih =>
      have hName := ih (read ++ [c])
      rw [List.append_assoc, List.singleton_append] at hName
      by_cases hMark : c = dialect.quoteMark
      · subst hMark
        rw [doubled, if_pos rfl, List.cons_append, List.cons_append, Reader.read]
        simp only [advance, if_true, Reader.read, List.nil_append, Option.map_id', hName]
      · rw [doubled, if_neg hMark, List.cons_append, Reader.read]
        simp only [advance, if_neg hMark, List.nil_append, Option.map_id', hName]

/-- A mark without another behind it ends the identifier. -/
theorem read_afterMark (read : List Char) {rest : List Char}
    (h : ∀ c ∈ rest.head?, c ≠ dialect.quoteMark) :
    (afterMark read).read dialect rest
      = (between.read dialect rest).map (.name (String.ofList read) :: ·) := by
  cases rest with
  | nil => rfl
  | cons c rest =>
      rw [Reader.read, Reader.read, advance, advance, if_neg (h c rfl), Option.map_map]
      rfl

/-- An identifier between its marks is read as itself. -/
theorem read_quotedChars (name : String) {rest : List Char}
    (h : ∀ c ∈ rest.head?, c ≠ dialect.quoteMark) :
    between.read dialect (quotedChars dialect.quoteMark name.toList ++ rest)
      = (between.read dialect rest).map (.name name :: ·) := by
  rw [quotedChars, List.append_assoc, List.cons_append, List.singleton_append, Reader.read]
  simp only [advance, start, if_true, List.nil_append, Option.map_id', read_doubled,
    read_afterMark name.toList h, String.ofList_toList]

/-- Digits without another behind them end the placeholder. -/
theorem read_inNumber (read : List Char) {digits rest : List Char}
    (hDigits : ∀ c ∈ digits, c.isDigit = true) (h : ∀ c ∈ rest.head?, c.isDigit = false) :
    (inNumber read).read dialect (digits ++ rest)
      = (between.read dialect rest).map (numbered (read ++ digits) :: ·) := by
  induction digits generalizing read with
  | nil =>
      cases rest with
      | nil => simp [Reader.read, finish]
      | cons c rest =>
          rw [List.nil_append, List.append_nil, Reader.read, Reader.read, advance, advance, h c rfl,
            if_neg Bool.false_ne_true, Option.map_map]
          rfl
  | cons c digits ih =>
      have hRest := ih (read ++ [c]) fun d hd => hDigits d (List.mem_cons_of_mem c hd)
      rw [List.append_assoc, List.singleton_append] at hRest
      rw [List.cons_append, Reader.read, advance, hDigits c List.mem_cons_self, if_pos rfl]
      simp only [List.nil_append, Option.map_id', hRest]

/-- A placeholder is read as itself. -/
theorem read_placeholder (index : Nat) {rest : List Char}
    (h : ∀ c ∈ rest.head?, c.isDigit = false) :
    between.read dialect ((dialect.placeholder index).toList ++ rest)
      = (between.read dialect rest).map (.placeholder (dialect.placeholder index) :: ·) := by
  cases dialect
  case postgres =>
    have hDigits : ∀ c ∈ (toString index).toList, c.isDigit = true := by
      intro c hc
      have hChars : (toString index).toList = Nat.toDigits 10 index := by
        rw [Nat.toString_eq_ofList_toDigits, String.toList_ofList]
      rw [hChars] at hc
      exact Nat.isDigit_of_mem_toDigits (by decide) (by decide) hc
    have hText : (Dialect.postgres.placeholder index).toList = '$' :: (toString index).toList := by
      simp [Dialect.placeholder]
    have hToken : numbered (toString index).toList
        = .placeholder (Dialect.postgres.placeholder index) := by
      rw [numbered, ← hText, String.ofList_toList]
    have hStart : start .postgres '$' = (inNumber [], []) := by decide
    rw [hText, List.cons_append, Reader.read, advance, hStart]
    simp only [List.nil_append, Option.map_id', read_inNumber [] hDigits h, hToken]
  all_goals
    have hText : "?".toList = ['?'] := by decide
    simp only [Dialect.placeholder, hText, List.singleton_append, Reader.read]
    rfl

end Reader

/-! ## Reading all pieces -/

/-- A word that is read as it is, and that ends whatever stands before it. -/
def IsPlainWord (text : String) : Prop :=
  (∀ c ∈ text.toList, Reader.IsPlain c) ∧ text.toList.head?.any (!·.isDigit) = true

-- By name, since going through all characters instead of those of the text is an instance too.
instance (text : String) : Decidable (IsPlainWord text) :=
  @instDecidableAnd _ _ (List.decidableBAll Reader.IsPlain text.toList) inferInstance

/-- Whether a piece is a word. -/
def Piece.isWord : Piece → Bool
  | word _ => true
  | _ => false

/-- Pieces that can stand behind any other: none, or a word and what follows it. -/
def Follows (pieces : List Piece) : Prop := ∀ piece ∈ pieces.head?, piece.isWord = true

/-- Pieces of which no two run together: behind an identifier and behind a slot stands a word, or
nothing. -/
inductive Parted : List Piece → Prop where
  | nil : Parted []
  | word {text : String} {rest : List Piece} (hText : IsPlainWord text) (hRest : Parted rest) :
    Parted (.word text :: rest)
  | name {identifier : String} {rest : List Piece} (hFollows : Follows rest)
    (hRest : Parted rest) : Parted (.name identifier :: rest)
  | slot {value : Value} {rest : List Piece} (hFollows : Follows rest) (hRest : Parted rest) :
    Parted (.slot value :: rest)

@[simp]
theorem follows_nil : Follows [] := fun _ h => nomatch h

@[simp]
theorem follows_word (text : String) (rest : List Piece) : Follows (.word text :: rest) := by
  intro piece hPiece
  cases hPiece
  rfl

theorem Follows.append {front back : List Piece} (hFront : Follows front) (hBack : Follows back) :
    Follows (front ++ back) := by
  cases front with
  | nil => exact hBack
  | cons piece front => exact hFront

/-- Parted pieces behind each other. -/
theorem Parted.append {front back : List Piece} (hFront : Parted front) (hBack : Parted back)
    (hFollows : Follows back) : Parted (front ++ back) := by
  induction hFront with
  | nil => exact hBack
  | word hText _ ih => exact .word hText ih
  | name hBehind _ ih => exact .name (hBehind.append hFollows) ih
  | slot hBehind _ ih => exact .slot (hBehind.append hFollows) ih

/-- Lists of pieces with a word between them. -/
theorem parted_separated {text : String} (hText : IsPlainWord text) :
    ∀ {lists : List (List Piece)}, (∀ pieces ∈ lists, Parted pieces) →
      Parted (Piece.separated text lists)
  | [], _ => .nil
  | [_], h => h _ List.mem_cons_self
  | first :: second :: rest, h =>
    have hRest : Parted (Piece.separated text (second :: rest)) :=
      parted_separated hText fun pieces hPieces => h pieces (List.mem_cons_of_mem first hPieces)
    (h first List.mem_cons_self).append (.word hText hRest) (follows_word _ _)

namespace Statement

variable {dialect : Dialect}

/-- The tokens of pieces, the first slot having a given index. -/
def tokensFrom (dialect : Dialect) : Nat → List Piece → List Token
  | _, [] => []
  | index, .word text :: rest => text.toList.map .sign ++ tokensFrom dialect index rest
  | index, .name identifier :: rest => .name identifier :: tokensFrom dialect index rest
  | index, .bareName identifier :: rest => .name identifier :: tokensFrom dialect index rest
  | index, .slot _ :: rest =>
    .placeholder (dialect.placeholder index) :: tokensFrom dialect (index + 1) rest

/-- What can stand behind any piece begins with neither a mark nor a digit. -/
theorem head?_textFrom (dialect : Dialect) {pieces : List Piece} (hParted : Parted pieces)
    (hFollows : Follows pieces) (index : Nat) :
    ∀ c ∈ (textFrom dialect index pieces).toList.head?,
      c ≠ dialect.quoteMark ∧ c.isDigit = false := by
  intro c hc
  cases hParted with
  | nil => exact absurd hc (by simp [textFrom])
  | word hText _ =>
      obtain ⟨hPlain, hFirst⟩ := hText
      obtain ⟨d, hHead, hDigit⟩ := (Option.any_eq_true _ _).mp hFirst
      rw [textFrom, String.toList_append, List.head?_append, hHead, Option.some_or] at hc
      obtain rfl : d = c := Option.some.inj hc
      exact ⟨Reader.quoteMark_ne_of_isPlain dialect (hPlain d (List.mem_of_head? hHead)),
        (Bool.not_eq_true' _).mp hDigit⟩
  | name => exact absurd (hFollows _ rfl) Bool.false_ne_true
  | slot => exact absurd (hFollows _ rfl) Bool.false_ne_true

/-- **The text is read as it was written.**  Reading the text of parted pieces gives every word
character by character, every identifier as it is, and for every slot its placeholder. -/
theorem tokens?_textFrom {pieces : List Piece} (h : Parted pieces) (index : Nat) :
    tokens? dialect (textFrom dialect index pieces) = some (tokensFrom dialect index pieces) := by
  rw [tokens?]
  induction h generalizing index with
  | nil => rfl
  | word hText _ ih =>
      rw [textFrom, String.toList_append, Reader.read_plain hText.1, ih]
      rfl
  | name hFollows hRest ih =>
      have hHead := fun c hc => (head?_textFrom dialect hRest hFollows index c hc).1
      rw [textFrom, String.toList_append, String.toList_ofList, Reader.read_quotedChars _ hHead, ih]
      rfl
  | slot hFollows hRest ih =>
      have hHead := fun c hc => (head?_textFrom dialect hRest hFollows (index + 1) c hc).2
      rw [textFrom, String.toList_append, Reader.read_placeholder _ hHead, ih]
      rfl

/-- No word is read as a placeholder. -/
theorem filterMap_placeholder?_sign (text : List Char) :
    (text.map Token.sign).filterMap Token.placeholder? = [] :=
  List.filterMap_eq_nil_iff.mpr fun token hToken => by
    obtain ⟨c, -, rfl⟩ := List.mem_map.mp hToken
    rfl

/-- The placeholders among the tokens of pieces are those of their slots, numbered in order. -/
theorem placeholders_tokensFrom (pieces : List Piece) (index : Nat) :
    (tokensFrom dialect index pieces).filterMap Token.placeholder?
      = (List.range' index (pieces.filterMap slot?).length).map dialect.placeholder := by
  induction pieces generalizing index with
  | nil => rfl
  | cons piece rest ih =>
      cases piece with
      | word text =>
          rw [tokensFrom, List.filterMap_append, filterMap_placeholder?_sign, ih]
          rfl
      | name identifier => exact ih index
      | bareName identifier => exact ih index
      | slot value =>
          have hRest := ih (index + 1)
          simp only [tokensFrom, List.filterMap_cons, Token.placeholder?, slot?, List.length_cons,
            List.range'_succ, List.map_cons, hRest]

end Statement

end Sql

end Leasehold
