import Leasehold.Proofs.Sql.Parameters
import Leasehold.Proofs.Store.Representation

/-!
# The database that is addressed

A store that names tables with their databases creates the database before the table.  The two
statements write its name in two ways: a table is named with every mark inside the identifiers
doubled, and the database to be created is put between marks as it is.  A database reads both by
the same rule.  So every statement about a table is about the table of the space, and the database
that is created is the one of the space exactly if there is no mark in its name.

* `qualifications?`: the tables that a text names with their databases.
* `Statement.qualifications?_text`: a statement about a table names this table and no other.
* `Creates`: a text that creates one database and says nothing more.
* `doubled_or_unended_or_ended`: where an identifier without doubling ends.
* `creates_iff_doubled`: the database that is created is read with one mark of each pair.
* `addressed_database_created_iff`: when the database that is addressed is created.
* `not_createsAddressed`: a name with a mark in it, whose end is read as another statement.
-/

namespace Leasehold

namespace Sql

variable {dialect : Dialect}

/-! ## Tables with their databases -/

/-- The table that is named with its database where some tokens begin. -/
def qualification? : Token → List Token → Option (String × String)
  | .name database, .sign '.' :: .name table :: _ => some (database, table)
  | _, _ => none

/-- The tables that tokens name with their databases, in order. -/
def qualifications : List Token → List (String × String)
  | [] => []
  | token :: rest => (qualification? token rest).toList ++ qualifications rest

/-- The tables that a text names with their databases. -/
def qualifications? (dialect : Dialect) (text : String) : Option (List (String × String)) :=
  (tokens? dialect text).map qualifications

/-- No table is named where no dot follows. -/
theorem qualification?_of_head?_ne (token : Token) {rest : List Token}
    (h : rest.head? ≠ some (.sign '.')) : qualification? token rest = none := by
  unfold qualification?
  split
  · exact absurd rfl h
  · rfl

/-- Without a dot in them, tokens name no table, and none together with what follows. -/
theorem qualifications_append {front back : List Token} (hFront : .sign '.' ∉ front)
    (hBack : back.head? ≠ some (.sign '.')) :
    qualifications (front ++ back) = qualifications back := by
  induction front with
  | nil => rfl
  | cons token rest ih =>
      obtain ⟨-, hRest⟩ := not_or.mp (mt List.mem_cons.mpr hFront)
      have hHead : (rest ++ back).head? ≠ some (.sign '.') := by
        cases rest with
        | nil => exact hBack
        | cons next rest =>
            intro hDot
            exact hRest (by simp [Option.some.inj hDot])
      rw [List.cons_append, qualifications, qualification?_of_head?_ne token hHead, ih hRest]
      rfl

theorem qualifications_eq_nil {tokens : List Token} (h : .sign '.' ∉ tokens) :
    qualifications tokens = [] := by
  rw [← List.append_nil tokens]
  exact qualifications_append h (by simp)

/-! ## Pieces without dots -/

/-- Pieces without a dot, but for those within identifiers. -/
inductive Dotless : List Piece → Prop where
  | nil : Dotless []
  | word {text : String} {rest : List Piece} (hText : '.' ∉ text.toList) (hRest : Dotless rest) :
    Dotless (.word text :: rest)
  | name {identifier : String} {rest : List Piece} (hRest : Dotless rest) :
    Dotless (.name identifier :: rest)
  | slot {value : Value} {rest : List Piece} (hRest : Dotless rest) :
    Dotless (.slot value :: rest)

theorem Dotless.append {front back : List Piece} (hFront : Dotless front) (hBack : Dotless back) :
    Dotless (front ++ back) := by
  induction hFront with
  | nil => exact hBack
  | word hText _ ih => exact .word hText ih
  | name _ ih => exact .name ih
  | slot _ ih => exact .slot ih

/-- Pieces without dots with such a word between them. -/
theorem dotless_separated {α : Type} {word : String} (hWord : '.' ∉ word.toList)
    {pieces : α → List Piece} (h : ∀ x, Dotless (pieces x)) :
    ∀ xs : List α, Dotless (Piece.separated word (xs.map pieces))
  | [] => .nil
  | [x] => h x
  | x :: y :: rest => (h x).append (.word hWord (dotless_separated hWord h (y :: rest)))

theorem dotless_equation (entry : String × Value) : Dotless (equationPieces entry) :=
  .name (.word (by decide) (.slot .nil))

theorem dotless_where (condition : Condition) :
    Dotless (.word " WHERE " :: conditionPieces condition) := by
  refine .word (by decide) ?_
  rw [conditionPieces]
  split
  · exact .word (by decide) .nil
  · exact dotless_separated (by decide) dotless_equation condition.clauses

theorem dotless_column (dialect : Dialect) (column : ColumnDefinition) :
    Dotless (column.pieces dialect) := by
  obtain ⟨name, kind, isKey⟩ := column
  have hType : '.' ∉ (" " ++ dialect.columnType kind ++ " NOT NULL").toList := by
    cases dialect <;> cases kind <;> decide
  cases isKey
  · exact .name (.word hType .nil)
  · exact .name (.word hType (.word (by decide) .nil))

namespace Statement

theorem dotless_insert (entries : List (String × Value)) : Dotless (insertPieces entries) := by
  have hNames : Dotless (Piece.separated ", " (entries.map fun entry => [.name entry.1])) :=
    dotless_separated (by decide) (fun _ => .name .nil) entries
  have hSlots : Dotless (Piece.separated ", " (entries.map fun entry => [.slot entry.2])) :=
    dotless_separated (by decide) (fun _ => .slot .nil) entries
  rw [insertPieces]
  split
  · exact .word (by decide) .nil
  · exact ((Dotless.word (by decide) hNames).append (.word (by decide) hSlots)).append
      (.word (by decide) .nil)

/-! ## Statements about tables -/

theorem tokensFrom_append (front back : List Piece) (index : Nat) :
    tokensFrom dialect index (front ++ back)
      = tokensFrom dialect index front
        ++ tokensFrom dialect (index + (front.filterMap slot?).length) back := by
  induction front generalizing index with
  | nil => rfl
  | cons piece front ih =>
      cases piece with
      | word text => simp only [List.cons_append, tokensFrom, ih, List.append_assoc]; rfl
      | name identifier => simp only [List.cons_append, tokensFrom, ih]; rfl
      | bareName identifier => simp only [List.cons_append, tokensFrom, ih]; rfl
      | slot value =>
          simp only [List.cons_append, tokensFrom, ih, List.filterMap_cons, slot?,
            List.length_cons, Nat.add_right_comm index 1, Nat.add_assoc]

theorem not_mem_tokensFrom {pieces : List Piece} (h : Dotless pieces) (index : Nat) :
    .sign '.' ∉ tokensFrom dialect index pieces := by
  induction h generalizing index with
  | nil => exact List.not_mem_nil
  | word hText _ ih =>
      simp only [tokensFrom, List.mem_append, List.mem_map, Token.sign.injEq, exists_eq_right,
        not_or]
      exact ⟨hText, ih index⟩
  | name _ ih => simpa [tokensFrom] using ih index
  | slot _ ih => simpa [tokensFrom] using ih (index + 1)

/-- The table that a statement is about. -/
def table? : Statement → Option TableRef
  | createDatabase _ => none
  | createTable table _ => some table
  | count table _ => some table
  | select table _ _ => some table
  | insert table _ => some table
  | update table _ _ => some table

variable {statement : Statement} {table : TableRef}

/-- A statement names its table once, and joins no other identifiers. -/
theorem exists_pieces_of_table? (dialect : Dialect) (h : statement.table? = some table) :
    ∃ front back, statement.pieces dialect = front ++ (table.pieces ++ back) ∧
      Dotless front ∧ Dotless back := by
  cases statement with
  | createDatabase => cases h
  | createTable found columns =>
      obtain rfl := Option.some.inj h
      have hColumns : Dotless (.word " ( " ::
          Piece.separated ", " (columns.map (ColumnDefinition.pieces dialect))) :=
        .word (by decide) (dotless_separated (by decide) (dotless_column dialect) columns)
      have hEnd : Dotless [.word " )"] := .word (by decide) .nil
      exact ⟨[.word "CREATE TABLE IF NOT EXISTS "], _, by simp [pieces], .word (by decide) .nil,
        hColumns.append hEnd⟩
  | count found condition =>
      obtain rfl := Option.some.inj h
      exact ⟨[.word "SELECT COUNT(*) AS ", .name "cnt", .word " FROM "], _, by simp [pieces],
        .word (by decide) (.name (.word (by decide) .nil)), dotless_where condition⟩
  | select found columns condition =>
      obtain rfl := Option.some.inj h
      have hColumns : Dotless (.word "SELECT " ::
          Piece.separated ", " (columns.map fun column => [.name column])) :=
        .word (by decide) (dotless_separated (by decide) (fun _ => .name .nil) columns)
      exact ⟨_ ++ [.word " FROM "], _, by simp [pieces],
        hColumns.append (.word (by decide) .nil), dotless_where condition⟩
  | insert found entries =>
      obtain rfl := Option.some.inj h
      exact ⟨[.word "INSERT INTO "], insertPieces entries, rfl, .word (by decide) .nil,
        dotless_insert entries⟩
  | update found entries condition =>
      obtain rfl := Option.some.inj h
      have hEntries : Dotless (.word " SET " ::
          Piece.separated ", " (entries.map equationPieces)) :=
        .word (by decide) (dotless_separated (by decide) dotless_equation entries)
      exact ⟨[.word "UPDATE "], _, by simp [pieces], .word (by decide) .nil,
        hEntries.append (dotless_where condition)⟩

/-- Columns are read as they were written. -/
theorem parted_column (dialect : Dialect) (column : ColumnDefinition) :
    Parted (column.pieces dialect) := by
  obtain ⟨name, kind, isKey⟩ := column
  have hType : IsPlainWord (" " ++ dialect.columnType kind ++ " NOT NULL") := by
    cases dialect <;> cases kind <;> decide
  cases isKey
  · exact .name (follows_word _ _) (.word hType .nil)
  · exact .name (follows_word _ _) (.word hType (.word (by decide) .nil))

/-- A statement about a table is read as it was written. -/
theorem parted_of_table? (dialect : Dialect) (h : statement.table? = some table) :
    Parted (statement.pieces dialect) := by
  cases statement with
  | createDatabase => cases h
  | createTable found columns =>
      have hColumns : Parted (.word " ( " ::
          Piece.separated ", " (columns.map (ColumnDefinition.pieces dialect))) :=
        .word (by decide) (parted_separated (by decide) fun pieces hPieces => by
          obtain ⟨column, -, rfl⟩ := List.mem_map.mp hPieces
          exact parted_column dialect column)
      have hEnd : Parted [.word " )"] := .word (by decide) .nil
      exact (Parted.word (by decide) ((parted_table found).append hColumns
        (follows_word _ _))).append hEnd (follows_word _ _)
  | count => exact parted_pieces dialect rfl
  | select => exact parted_pieces dialect rfl
  | insert => exact parted_pieces dialect rfl
  | update => exact parted_pieces dialect rfl

/-- **A statement names its table.**  The text of a statement about a table of some database names
this table of this database, and no other. -/
theorem qualifications?_text (dialect : Dialect) {database : String}
    (h : statement.table? = some table) (hDatabase : table.database? = some database) :
    qualifications? dialect (statement.text dialect) = some [(database, table.table)] := by
  obtain ⟨front, back, hPieces, hFront, hBack⟩ := exists_pieces_of_table? dialect h
  rw [qualifications?, text, tokens?_textFrom (parted_of_table? dialect h), Option.map_some,
    hPieces, tokensFrom_append, TableRef.pieces, hDatabase]
  have hNone := @not_mem_tokensFrom dialect back hBack (1 + (front.filterMap slot?).length)
  have hHead : (Token.name database :: .sign '.' :: .name table.table ::
      tokensFrom dialect (1 + (front.filterMap slot?).length) back).head? ≠ some (.sign '.') := by
    simp
  have hTokens := qualifications_append (@not_mem_tokensFrom dialect front hFront 1) hHead
  have hRest : qualifications (.name table.table ::
      tokensFrom dialect (1 + (front.filterMap slot?).length) back) = [] :=
    qualifications_eq_nil (by simpa using hNone)
  refine congrArg some (hTokens.trans ?_)
  rw [qualifications, qualifications, hRest]
  rfl

end Statement

/-! ## Identifiers without doubling -/

theorem length_doubled (mark : Char) (name : List Char) :
    (doubled mark name).length = name.length + name.count mark := by
  induction name with
  | nil => rfl
  | cons c name ih =>
      by_cases h : c = mark
      · subst h
        rw [doubled, if_pos rfl, List.count_cons_self]
        simp only [List.length_cons, ih]
        omega
      · rw [doubled, if_neg h, List.count_cons_of_ne h, List.length_cons, List.length_cons, ih]
        omega

/-- Doubling leaves exactly the names without marks as they are. -/
theorem doubled_eq_self_iff (mark : Char) (name : List Char) :
    doubled mark name = name ↔ mark ∉ name := by
  refine ⟨fun h => ?_, fun h => ?_⟩
  · have hLength := length_doubled mark name
    rw [h] at hLength
    exact List.count_eq_zero.mp (by omega)
  · induction name with
    | nil => rfl
    | cons c name ih =>
        obtain ⟨hFirst, hRest⟩ := not_or.mp (mt List.mem_cons.mpr h)
        rw [doubled, if_neg (Ne.symm hFirst), ih hRest]

/-- Either the marks of a text stand in pairs, so that it is the doubled form of a name, or one of
them stands before something that is no mark. -/
theorem exists_doubled_or_ended (mark : Char) :
    ∀ text : List Char, (∃ name, text = doubled mark name) ∨
      ∃ name rest, text = doubled mark name ++ mark :: rest ∧ ∀ c ∈ rest.head?, c ≠ mark
  | [] => .inl ⟨[], rfl⟩
  | c :: text => by
      by_cases hMark : c = mark
      · subst hMark
        match text with
        | [] => exact .inr ⟨[], [], rfl, fun _ h => nomatch h⟩
        | d :: text =>
            by_cases hPair : d = c
            · subst hPair
              -- Two marks together stand for one in the name.
              rcases exists_doubled_or_ended d text with ⟨name, rfl⟩ | ⟨name, rest, rfl, hRest⟩
              · exact .inl ⟨d :: name, by rw [doubled, if_pos rfl]⟩
              · exact .inr ⟨d :: name, rest, by rw [doubled, if_pos rfl]; rfl, hRest⟩
            · refine .inr ⟨[], d :: text, rfl, fun e he => ?_⟩
              obtain rfl : d = e := Option.some.inj he
              exact hPair
      · rcases exists_doubled_or_ended mark text with ⟨name, rfl⟩ | ⟨name, rest, rfl, hRest⟩
        · exact .inl ⟨c :: name, by rw [doubled, if_neg hMark]⟩
        · exact .inr ⟨c :: name, rest, by rw [doubled, if_neg hMark]; rfl, hRest⟩

/-- **Where an identifier without doubling ends**: with the text, nowhere, or within the text. -/
theorem doubled_or_unended_or_ended (mark : Char) (text : String) :
    (∃ name : String, text.toList = doubled mark name.toList) ∨
    (∃ name : String, text.toList = doubled mark name.toList ++ [mark]) ∨
    ∃ (name : String) (c : Char) (rest : List Char),
      text.toList = doubled mark name.toList ++ mark :: c :: rest ∧ c ≠ mark := by
  rcases exists_doubled_or_ended mark text.toList with ⟨name, hText⟩ | ⟨name, rest, hText, hRest⟩
  · exact .inl ⟨String.ofList name, by rwa [String.toList_ofList]⟩
  · rw [← @String.toList_ofList name] at hText
    cases rest with
    | nil => exact .inr (.inl ⟨_, hText⟩)
    | cons c rest => exact .inr (.inr ⟨_, c, rest, hText, hRest c rfl⟩)

namespace Reader

/-- After any character a reader stands within a token or has found one. -/
theorem advance_progress (dialect : Dialect) (reader : Reader) (c : Char) :
    (reader.advance dialect c).1 ≠ between ∨ (reader.advance dialect c).2 ≠ [] := by
  cases reader with
  | between =>
      simp only [advance, start]
      repeat' split
      all_goals simp
  | inName read => simp only [advance]; split <;> simp
  | afterMark read => simp only [advance]; split <;> simp
  | inNumber digits => simp only [advance]; split <;> simp
  | inLiteral => exact .inl (by simp [advance])

/-- Some text, and the rest of a token, hold a token at least. -/
theorem read_ne_nil {reader : Reader} {text : List Char} (h : reader ≠ between ∨ text ≠ []) :
    reader.read dialect text ≠ some [] := by
  induction text generalizing reader with
  | nil =>
      have hInside : reader ≠ between := h.resolve_right fun hNe => hNe rfl
      cases reader <;> simp_all [read, finish]
  | cons c text ih =>
      intro hNone
      rw [read] at hNone
      obtain ⟨found, hFound, hAppend⟩ := Option.map_eq_some_iff.mp hNone
      obtain ⟨hTokens, rfl⟩ := List.append_eq_nil_iff.mp hAppend
      rcases advance_progress dialect reader c with hNext | hSome
      · exact ih (.inl hNext) hFound
      · exact hSome hTokens

end Reader

/-! ## The database that is created -/

/-- The words before the database that is to be created, as a database reads them. -/
def creationSigns (dialect : Dialect) : List Token :=
  (Statement.createDatabaseWords dialect).toList.map .sign

/-- **A text that creates a database**, and says nothing more. -/
def Creates (dialect : Dialect) (text name : String) : Prop :=
  tokens? dialect text = some (creationSigns dialect ++ [.name name])

/-- The name stands between marks as it is. -/
theorem tokens?_createDatabase (dialect : Dialect) (name : String) :
    tokens? dialect ((Statement.createDatabase name).text dialect)
      = ((Reader.inName []).read dialect (name.toList ++ [dialect.quoteMark])).map
          (creationSigns dialect ++ ·) := by
  have hWords : IsPlainWord (Statement.createDatabaseWords dialect) := by
    cases dialect <;> decide
  have hText : ((Statement.createDatabase name).text dialect).toList
      = (Statement.createDatabaseWords dialect).toList
        ++ dialect.quoteMark :: (name.toList ++ [dialect.quoteMark]) := by
    simp [Statement.text, Statement.pieces, Statement.textFrom, bracketedChars]
  rw [tokens?, hText, Reader.read_plain hWords.1, Reader.read]
  simp only [Reader.advance, Reader.start, if_true, List.nil_append, Option.map_id']
  rfl

/-- A name whose marks stand in pairs is read with one of each pair. -/
theorem creates_of_doubled {database name : String}
    (h : database.toList = doubled dialect.quoteMark name.toList) :
    Creates dialect ((Statement.createDatabase database).text dialect) name := by
  have hRead := @Reader.read_doubled dialect name.toList [] []
  rw [Creates, tokens?_createDatabase, h, hRead, List.nil_append, Reader.read, Reader.finish,
    String.ofList_toList]
  rfl

/-- **Injection.**  A mark that is not doubled ends the name, and what stands behind it is read as
the rest of the statement, or as other statements. -/
theorem tokens?_of_ended {database name : String} {c : Char} {rest : List Char}
    (h : database.toList = doubled dialect.quoteMark name.toList ++ dialect.quoteMark :: c :: rest)
    (hMark : c ≠ dialect.quoteMark) :
    tokens? dialect ((Statement.createDatabase database).text dialect)
      = (tokens? dialect (String.ofList (c :: rest ++ [dialect.quoteMark]))).map fun tokens =>
          creationSigns dialect ++ .name name :: tokens := by
  have hHead : ∀ d ∈ (c :: rest ++ [dialect.quoteMark]).head?, d ≠ dialect.quoteMark := by
    intro d hd
    obtain rfl : c = d := Option.some.inj hd
    exact hMark
  have hRead := @Reader.read_doubled dialect name.toList []
    (c :: rest ++ [dialect.quoteMark])
  rw [tokens?_createDatabase, h, List.append_assoc, List.cons_append, hRead, List.nil_append,
    Reader.read_afterMark _ hHead, String.ofList_toList, tokens?, String.toList_ofList,
    Option.map_map]
  rfl

/-- A mark that is not doubled at the end of the name leaves the name without an end. -/
theorem tokens?_of_unended {database name : String}
    (h : database.toList = doubled dialect.quoteMark name.toList ++ [dialect.quoteMark]) :
    tokens? dialect ((Statement.createDatabase database).text dialect) = none := by
  have hRead := @Reader.read_doubled dialect name.toList [] [dialect.quoteMark]
  rw [tokens?_createDatabase, h, List.append_assoc, List.singleton_append, hRead, List.nil_append,
    Reader.read, Reader.advance]
  simp only [if_true, Reader.read, Reader.finish, Option.map_none]

/-- **Which database is created**: the one of whose name the statement has the doubled form. -/
theorem creates_iff_doubled (dialect : Dialect) (database name : String) :
    Creates dialect ((Statement.createDatabase database).text dialect) name
      ↔ database.toList = doubled dialect.quoteMark name.toList := by
  refine ⟨fun h => ?_, creates_of_doubled⟩
  rcases doubled_or_unended_or_ended dialect.quoteMark database with
    ⟨read, hRead⟩ | ⟨read, hRead⟩ | ⟨read, c, rest, hRead, hMark⟩
  · have hSame := (creates_of_doubled hRead).symm.trans h
    obtain rfl : read = name := by simpa using hSame
    exact hRead
  · rw [Creates, tokens?_of_unended hRead] at h
    cases h
  · -- What stands behind the name is read as something.
    have hMore : tokens? dialect (String.ofList (c :: rest ++ [dialect.quoteMark])) ≠ some [] :=
      Reader.read_ne_nil (.inr (by simp))
    rw [Creates, tokens?_of_ended hRead hMark] at h
    obtain ⟨tokens, hTokens, hSame⟩ := Option.map_eq_some_iff.mp h
    obtain ⟨-, rfl⟩ := List.cons.inj (List.append_cancel_left hSame)
    exact absurd hTokens hMore

/-- With a mark in its name, a database is not even the first that the statement names. -/
theorem not_mem_of_tokens? {database : String} {more : List Token}
    (h : tokens? dialect ((Statement.createDatabase database).text dialect)
      = some (creationSigns dialect ++ .name database :: more)) :
    dialect.quoteMark ∉ database.toList := by
  rcases doubled_or_unended_or_ended dialect.quoteMark database with
    ⟨read, hRead⟩ | ⟨read, hRead⟩ | ⟨read, c, rest, hRead, hMark⟩
  · have hSame := (creates_of_doubled hRead).symm.trans h
    have hName : read = database :=
      Token.name.inj (List.cons.inj (List.append_cancel_left (Option.some.inj hSame))).1
    rw [hName] at hRead
    exact (doubled_eq_self_iff _ _).mp hRead.symm
  · rw [tokens?_of_unended hRead] at h
    cases h
  · rw [tokens?_of_ended hRead hMark] at h
    obtain ⟨tokens, -, hSame⟩ := Option.map_eq_some_iff.mp h
    have hName : read = database :=
      Token.name.inj (List.cons.inj (List.append_cancel_left hSame)).1
    -- The name that is read is shorter than the database.
    have hLength := congrArg List.length hRead
    rw [hName, List.length_append, length_doubled, List.length_cons] at hLength
    omega

/-! ## What a space is sent to -/

variable {σ : Type} {session : Session}

/-- The database is created first, and the table behind it unless this fails. -/
theorem sent_ensure (run : σ → Statement → Result × σ) (hQualified : session.qualified = true)
    (hSchemas : session.dialect.hasSchemas = true) (state : σ) (space : Space) :
    sent run session state (.ensure space)
      = .createDatabase space.database ::
          if (run state (.createDatabase space.database)).1.isFailure then []
          else [.createTable (session.tableRef space) (Session.definitions space)] := by
  have hPlan : session.plan (.ensure space)
      = .ok [.createDatabase space.database,
          .createTable (session.tableRef space) (Session.definitions space)] := by
    simp [Session.plan, Session.createDatabase, hQualified, hSchemas]
  rw [sent, serve, hPlan]
  cases hFailure : (run state (.createDatabase space.database)).1.isFailure <;>
    simp [send, hFailure]

/-- The statement of a call is about the table of its space. -/
theorem table?_of_plan {call : Call} {space : Space} {statement : Statement}
    (hParameters : call.parameters?.isSome = true) (hSpace : call.space? = some space)
    (hPlan : session.plan call = .ok [statement]) :
    statement.table? = some (session.tableRef space) := by
  cases call with
  | mode => cases hParameters
  | health => cases hParameters
  | ensure => cases hParameters
  | count => cases hSpace; cases hPlan; rfl
  | search => cases hSpace; cases hPlan; rfl
  | insert found record =>
      cases hSpace
      rw [Session.plan] at hPlan
      split at hPlan
      · cases hPlan
      · cases hPlan; rfl
  | update found condition fields =>
      cases hSpace
      rw [Session.plan] at hPlan
      split at hPlan
      · cases hPlan
      · split at hPlan
        · cases hPlan
        · cases hPlan; rfl

/-- **When the database that is addressed is created.**  A store on a server that names tables with
their databases names the table of the space in every statement about it, on whatever database and
whatever the names hold.  Before the table it creates the database.  This statement is one statement
about one database exactly if the marks in its name stand in pairs, and the database is then the one
with one mark of each pair; so it is the database that is addressed exactly if there is no mark in
its name.  Otherwise it does not even begin with this database, and what stands behind a mark that
is not doubled is read as statement text. -/
theorem addressed_database_created_iff (run : σ → Statement → Result × σ)
    (hQualified : session.qualified = true) (hSchemas : session.dialect.hasSchemas = true)
    (state : σ) (space : Space) :
    (∀ call : Call, call.space? = some space → call.parameters?.isSome = true →
      call.isSent = true → ∃ statement, sent run session state call = [statement] ∧
        qualifications? session.dialect (statement.text session.dialect)
          = some [(space.database, space.table)]) ∧
    (∃ rest, sent run session state (.ensure space) = .createDatabase space.database :: rest ∧
      (rest = [] ↔ (run state (.createDatabase space.database)).1.isFailure = true) ∧
      ∀ statement ∈ rest, qualifications? session.dialect (statement.text session.dialect)
        = some [(space.database, space.table)]) ∧
    (Creates session.dialect ((Statement.createDatabase space.database).text session.dialect)
      space.database ↔ session.dialect.quoteMark ∉ space.database.toList) ∧
    (∀ name, Creates session.dialect
      ((Statement.createDatabase space.database).text session.dialect) name
        ↔ space.database.toList = doubled session.dialect.quoteMark name.toList) ∧
    (∀ more, tokens? session.dialect
      ((Statement.createDatabase space.database).text session.dialect)
        = some (creationSigns session.dialect ++ .name space.database :: more) →
          session.dialect.quoteMark ∉ space.database.toList) ∧
    ∀ name c rest, c ≠ session.dialect.quoteMark →
      space.database.toList = doubled session.dialect.quoteMark (String.toList name)
        ++ session.dialect.quoteMark :: c :: rest →
      tokens? session.dialect ((Statement.createDatabase space.database).text session.dialect)
        = (tokens? session.dialect
            (String.ofList (c :: rest ++ [session.dialect.quoteMark]))).map fun tokens =>
              creationSigns session.dialect ++ .name name :: tokens := by
  have hTable : (session.tableRef space).database? = some space.database := by
    rw [Session.tableRef, hQualified, if_pos rfl]
  refine ⟨?calls, ⟨_, sent_ensure run hQualified hSchemas state space, ?ends, ?table⟩, ?created,
    creates_iff_doubled session.dialect space.database, fun _ => not_mem_of_tokens?,
    fun _ _ _ hMark hDatabase => tokens?_of_ended hDatabase hMark⟩
  case calls =>
    intro call hSpace hParameters hSent
    obtain ⟨statement, hPlan⟩ := Session.exists_plan session hSent hParameters
    exact ⟨statement, sent_of_plan run state hPlan,
      Statement.qualifications?_text _ (table?_of_plan hParameters hSpace hPlan) hTable⟩
  case ends => split <;> simp_all
  case table =>
    intro statement hStatement
    split at hStatement
    · cases hStatement
    · rw [List.mem_singleton.mp hStatement]
      exact Statement.qualifications?_text _ rfl hTable
  case created =>
    rw [creates_iff_doubled, eq_comm, doubled_eq_self_iff]

/-- A space whose names hold the mark of another dialect, a dot and the end of a statement. -/
def quotedSpace : Space := Space.keyed "d\"; x.y" "t`$1" "k"

/-- On MySQL its database is the one that is created, and an update is about its table. -/
theorem addressed_database_created_quotedSpace :
    Creates .mysql ((Statement.createDatabase quotedSpace.database).text .mysql)
      quotedSpace.database ∧
    ∃ statement, sent (fun (state : Unit) _ => (.affected 0, state)) ⟨.mysql, true⟩ ()
        (.update quotedSpace .always (.ofList [("k", .text "v")])) = [statement] ∧
      qualifications? .mysql (statement.text .mysql)
        = some [(quotedSpace.database, quotedSpace.table)] := by
  obtain ⟨hCalls, -, hCreated, -⟩ := @addressed_database_created_iff Unit ⟨.mysql, true⟩
    (fun state _ => (.affected 0, state)) rfl rfl () quotedSpace
  exact ⟨hCreated.mpr (by decide), hCalls _ rfl rfl (by decide)⟩

/-- On every server the first statement creates the database with which the tables are named, and
says nothing more. -/
def CreatesAddressed : Prop :=
  ∀ (session : Session) (space : Space), session.qualified = true →
    session.dialect.hasSchemas = true → ∀ statement ∈ session.createDatabase space,
      Creates session.dialect (statement.text session.dialect) space.database

/-- A name that ends the statement and begins another one. -/
def endedSpace : Space := Space.keyed "x\"; DROP SCHEMA \"y" "t" "k"

/-- A database with a mark in its name is not created. -/
theorem not_createsAddressed : ¬ CreatesAddressed := by
  intro h
  have hCreates := h ⟨.postgres, true⟩ endedSpace rfl rfl _ List.mem_cons_self
  rw [creates_iff_doubled, eq_comm, doubled_eq_self_iff] at hCreates
  exact hCreates (by decide)

example : tokens? .postgres ((Statement.createDatabase endedSpace.database).text .postgres)
    = some (creationSigns .postgres ++ .name "x" :: "; DROP SCHEMA ".toList.map .sign
      ++ [.name "y"]) := by decide

end Sql
end Leasehold
