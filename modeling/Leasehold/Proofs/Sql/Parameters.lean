import Leasehold.Proofs.Data.OrderedMap
import Leasehold.Proofs.Sql.Reading
import Leasehold.Proofs.Text.ByteOrder
import Leasehold.Sql.Store

/-!
# Values are parameters

What a call writes and what it compares with reaches a database beside the text of the statement
and never in it.  The text is the same for all calls that differ in their values only, and its
placeholders and the bound values are made in two places that have to agree place by place.

* `Call.withoutValues`: what is left of a call without its values.
* `Call.parameters?`: the values of a call in the order in which they are bound.
* `Session.plan_withoutValues`: a statement is built from the rest of the call.
* `Statement.parted_pieces`: a statement is read as it was written.
* `Statement.values_of_plan`: the bound values are the values of the call.
* `Statement.equations_pieces`, `Statement.zip_insert`: each value stands beside its column.
* `sent_values_as_parameters`: what is sent for a call, whatever its values.
-/

namespace Leasehold

/-! ## Calls without their values -/

/-- Entries with nothing in place of every value. -/
def namesOnly (entries : List (String × Value)) : List (String × Value) :=
  entries.map fun entry => (entry.1, .null)

/-- A call with nothing in place of every value: what it asks for, its space and its columns in
order. -/
def Call.withoutValues : Call → Call
  | .count space condition => .count space ⟨namesOnly condition.clauses⟩
  | .search space condition => .search space ⟨namesOnly condition.clauses⟩
  | .insert space record => .insert space ⟨namesOnly record.entries⟩
  | .update space condition fields =>
    .update space ⟨namesOnly condition.clauses⟩ ⟨namesOnly fields.entries⟩
  | call => call

/-- The values of a call that reads or writes rows: those of the record or of the fields in the
order of their columns, then those of the condition in the order of its clauses. -/
def Call.parameters? : Call → Option (List Value)
  | .count _ condition => some (condition.clauses.map Prod.snd)
  | .search _ condition => some (condition.clauses.map Prod.snd)
  | .insert _ record => some record.values
  | .update _ condition fields => some (fields.values ++ condition.clauses.map Prod.snd)
  | _ => none

theorem Call.isSome_parameters?_withoutValues (call : Call) :
    call.withoutValues.parameters?.isSome = call.parameters?.isSome := by
  cases call <;> rfl

/-- Whether a call is sent: what it writes fits the space, and an update writes something. -/
def Call.isSent : Call → Bool
  | .insert space record => (space.check record).isOk
  | .update space _ fields => (space.check fields).isOk && !fields.isEmpty
  | _ => true

/-- Nothing fits wherever a value fits. -/
theorem Space.checkEntries_namesOnly {space : Space} {entries : List (String × Value)}
    (h : space.checkEntries entries = .ok ()) :
    space.checkEntries (namesOnly entries) = .ok () := by
  induction entries with
  | nil => rfl
  | cons entry rest ih =>
      rw [checkEntries] at h
      split at h
      case h_1 hEntry =>
        have hNothing : space.checkEntry (entry.1, .null) = .ok () := by
          unfold checkEntry at hEntry ⊢
          split at hEntry
          case h_1 => cases hEntry
          case h_2 hColumn => rw [hColumn]; rfl
        rw [namesOnly, List.map_cons, checkEntries, hNothing]
        exact ih h
      case h_2 => cases h

namespace Sql

/-! ## The text without the values -/

/-- A piece with nothing in place of its value. -/
def Piece.withoutValue : Piece → Piece
  | .slot _ => .slot .null
  | piece => piece

@[simp]
theorem Piece.map_withoutValue_separated (word : String) (lists : List (List Piece)) :
    (Piece.separated word lists).map Piece.withoutValue
      = Piece.separated word (lists.map (List.map Piece.withoutValue)) := by
  fun_induction Piece.separated word lists with
  | case1 => rfl
  | case2 => rfl
  | case3 pieces rest hMore ih =>
      cases rest with
      | nil => exact absurd rfl hMore
      | cons second rest =>
          rw [List.map_append, List.map_cons, ih]
          rfl

@[simp]
theorem map_withoutValue_table (table : TableRef) :
    table.pieces.map Piece.withoutValue = table.pieces := by
  rw [TableRef.pieces]
  split <;> rfl

@[simp]
theorem map_withoutValue_equations (entries : List (String × Value)) :
    (entries.map equationPieces).map (List.map Piece.withoutValue)
      = (namesOnly entries).map equationPieces := by
  rw [namesOnly, List.map_map, List.map_map]
  rfl

@[simp]
theorem map_withoutValue_condition (condition : Condition) :
    (conditionPieces condition).map Piece.withoutValue
      = conditionPieces ⟨namesOnly condition.clauses⟩ := by
  obtain ⟨clauses⟩ := condition
  cases clauses with
  | nil => rfl
  | cons clause rest =>
      rw [conditionPieces, if_neg (by simp), conditionPieces, if_neg (by simp [namesOnly]),
        Piece.map_withoutValue_separated, map_withoutValue_equations]

namespace Statement

/-- A statement with nothing in place of every value. -/
def withoutValues : Statement → Statement
  | .count table condition => .count table ⟨namesOnly condition.clauses⟩
  | .select table columns condition => .select table columns ⟨namesOnly condition.clauses⟩
  | .insert table entries => .insert table (namesOnly entries)
  | .update table entries condition =>
    .update table (namesOnly entries) ⟨namesOnly condition.clauses⟩
  | statement => statement

theorem map_withoutValue_insert (entries : List (String × Value)) :
    (insertPieces entries).map Piece.withoutValue = insertPieces (namesOnly entries) := by
  cases entries with
  | nil => rfl
  | cons entry rest =>
      rw [insertPieces, if_neg (by simp), insertPieces, if_neg (by simp [namesOnly])]
      simp [namesOnly, Piece.withoutValue, Function.comp_def]

theorem pieces_withoutValues (dialect : Dialect) {statement : Statement}
    (h : statement.takesValues = true) :
    statement.withoutValues.pieces dialect
      = (statement.pieces dialect).map Piece.withoutValue := by
  cases statement with
  | createDatabase => cases h
  | createTable => cases h
  | count => simp [withoutValues, pieces, Piece.withoutValue]
  | select => simp [withoutValues, pieces, Piece.withoutValue, Function.comp_def]
  | insert => simp [withoutValues, pieces, Piece.withoutValue, map_withoutValue_insert]
  | update => simp [withoutValues, pieces, Piece.withoutValue, -List.map_map]

/-- The text leaves the values out. -/
theorem textFrom_map_withoutValue (dialect : Dialect) (index : Nat) (pieces : List Piece) :
    textFrom dialect index (pieces.map Piece.withoutValue) = textFrom dialect index pieces := by
  induction pieces generalizing index with
  | nil => rfl
  | cons piece rest ih =>
      cases piece <;> simp only [List.map_cons, Piece.withoutValue, textFrom, ih]

theorem text_withoutValues (dialect : Dialect) {statement : Statement}
    (h : statement.takesValues = true) :
    statement.withoutValues.text dialect = statement.text dialect := by
  rw [text, pieces_withoutValues dialect h, textFrom_map_withoutValue]
  rfl

end Statement

/-! ## The bound values -/

/-- What is read of pieces is not read of the words between them. -/
theorem Piece.filterMap_separated {β : Type} (read : Piece → Option β) (word : String)
    (hWord : read (.word word) = none) (lists : List (List Piece)) :
    (Piece.separated word lists).filterMap read = lists.flatMap (List.filterMap read) := by
  fun_induction Piece.separated word lists with
  | case1 => rfl
  | case2 => simp
  | case3 pieces rest _ ih =>
      rw [List.filterMap_append, List.filterMap_cons, hWord, ih]
      rfl

@[simp]
theorem Piece.filterMap_slot?_separated (word : String) (lists : List (List Piece)) :
    (Piece.separated word lists).filterMap Statement.slot?
      = lists.flatMap (List.filterMap Statement.slot?) :=
  filterMap_separated Statement.slot? word rfl lists

/-- Identifiers hold no values. -/
@[simp]
theorem filterMap_slot?_names {α : Type} (name : α → String) (xs : List α) :
    (xs.map fun x => [Piece.name (name x)]).flatMap (List.filterMap Statement.slot?) = [] := by
  rw [List.flatMap_map]
  exact List.flatMap_eq_nil_iff.mpr fun _ _ => rfl

/-- Slots hold their values. -/
@[simp]
theorem filterMap_slot?_slots {α : Type} (value : α → Value) (xs : List α) :
    (xs.map fun x => [Piece.slot (value x)]).flatMap (List.filterMap Statement.slot?)
      = xs.map value := by
  rw [List.flatMap_map]
  exact List.flatMap_pure_eq_map _ _

@[simp]
theorem filterMap_slot?_table (table : TableRef) :
    table.pieces.filterMap Statement.slot? = [] := by
  rw [TableRef.pieces]
  split <;> rfl

@[simp]
theorem filterMap_slot?_equations (entries : List (String × Value)) :
    (entries.map equationPieces).flatMap (List.filterMap Statement.slot?)
      = entries.map Prod.snd := by
  rw [List.flatMap_map]
  exact List.flatMap_pure_eq_map _ _

@[simp]
theorem filterMap_slot?_condition (condition : Condition) :
    (conditionPieces condition).filterMap Statement.slot? = condition.clauses.map Prod.snd := by
  obtain ⟨clauses⟩ := condition
  cases clauses with
  | nil => rfl
  | cons clause rest =>
      rw [conditionPieces, if_neg (by simp), Piece.filterMap_slot?_separated,
        filterMap_slot?_equations]

namespace Statement

theorem filterMap_slot?_insert (entries : List (String × Value)) :
    (insertPieces entries).filterMap slot? = entries.map Prod.snd := by
  rw [insertPieces]
  split
  case isTrue hNone =>
    rw [List.isEmpty_iff.mp hNone]
    rfl
  case isFalse =>
    simp only [List.filterMap_cons, List.filterMap_append, List.filterMap_nil, slot?,
      Piece.filterMap_slot?_separated, filterMap_slot?_names, filterMap_slot?_slots,
      List.cons_append, List.nil_append, List.append_nil]

/-- **The bound values.**  The statement of a call is bound to the values of that call: no value is
missing, none is bound twice, and none is out of its place. -/
theorem values_of_plan {session : Session} {call : Call} {statement : Statement}
    {parameters : List Value} (hPlan : session.plan call = .ok [statement])
    (hParameters : call.parameters? = some parameters) (dialect : Dialect) :
    statement.takesValues = true ∧ statement.values dialect = parameters := by
  cases call with
  | mode => cases hParameters
  | health => cases hParameters
  | ensure => cases hParameters
  | count =>
      cases hPlan
      cases hParameters
      exact ⟨rfl, by simp [values, pieces, slot?, List.filterMap_cons]⟩
  | search =>
      cases hPlan
      cases hParameters
      exact ⟨rfl, by simp [values, pieces, slot?, List.filterMap_cons, -List.map_map]⟩
  | insert space record =>
      rw [Session.plan] at hPlan
      split at hPlan
      · cases hPlan
      · cases hPlan
        cases hParameters
        exact ⟨rfl, by simp [values, pieces, slot?, List.filterMap_cons, filterMap_slot?_insert,
          OrderedMap.values]⟩
  | update space condition fields =>
      rw [Session.plan] at hPlan
      split at hPlan
      · cases hPlan
      · split at hPlan
        · cases hPlan
        · cases hPlan
          cases hParameters
          exact ⟨rfl, by simp [values, pieces, slot?, List.filterMap_cons, OrderedMap.values]⟩

end Statement

/-! ## The columns of the values -/

/-- The values that pieces compare with a column or assign to one, each with its column: the
identifier, the sign and the slot stand side by side. -/
def Piece.equations : List Piece → List (String × Value)
  | .name column :: .word sign :: .slot value :: rest =>
    if sign = " = " then (column, value) :: Piece.equations rest else Piece.equations rest
  | _ :: rest => Piece.equations rest
  | [] => []

/-- The identifier in a piece. -/
def Piece.identifier? : Piece → Option String
  | .name identifier => some identifier
  | _ => none

namespace Piece

@[simp]
theorem equations_word (word : String) (rest : List Piece) :
    equations (.word word :: rest) = equations rest := by
  simp [equations]

/-- An identifier before another word than the sign is not compared. -/
theorem equations_name {sign : String} (h : sign ≠ " = ") (identifier : String)
    (rest : List Piece) :
    equations (.name identifier :: .word sign :: rest) = equations rest := by
  cases rest with
  | nil => simp [equations]
  | cons piece rest => cases piece <;> simp [equations, h]

theorem equations_equation (entry : String × Value) (rest : List Piece) :
    equations (equationPieces entry ++ rest) = entry :: equations rest := by
  simp [equationPieces, equations]

theorem equations_separated (word : String) (entries : List (String × Value))
    (rest : List Piece) :
    equations (separated word (entries.map equationPieces) ++ rest)
      = entries ++ equations rest := by
  induction entries with
  | nil => rfl
  | cons entry others ih =>
      cases others with
      | nil => exact equations_equation entry rest
      | cons next others =>
          have hSplit : separated word ((entry :: next :: others).map equationPieces)
              = equationPieces entry
                ++ .word word :: separated word ((next :: others).map equationPieces) := rfl
          rw [hSplit, List.append_assoc, equations_equation, List.cons_append, equations_word, ih]
          rfl

theorem equations_names {sign : String} (h : sign ≠ " = ") (columns : List String)
    (rest : List Piece) :
    equations (separated ", " (columns.map fun column => [.name column]) ++ .word sign :: rest)
      = equations rest := by
  induction columns with
  | nil => exact equations_word sign rest
  | cons column others ih =>
      cases others with
      | nil => exact equations_name h column rest
      | cons next others =>
          have hSplit : separated ", " ((column :: next :: others).map fun column => [.name column])
              = .name column :: .word ", "
                :: separated ", " ((next :: others).map fun column => [.name column]) := rfl
          rw [hSplit, List.cons_append, List.cons_append, equations_name (by decide), ih]

theorem equations_table {sign : String} (h : sign ≠ " = ") (table : TableRef)
    (rest : List Piece) :
    equations (table.pieces ++ .word sign :: rest) = equations rest := by
  rw [TableRef.pieces]
  split
  · rw [List.cons_append, List.cons_append, equations_name (by decide)]
    exact equations_name h _ rest
  · exact equations_name h _ rest

theorem equations_condition (condition : Condition) :
    equations (conditionPieces condition) = condition.clauses := by
  rw [conditionPieces]
  split
  case isTrue hNone => exact (List.isEmpty_iff.mp hNone).symm
  case isFalse =>
    have h := equations_separated " AND " condition.clauses []
    rwa [List.append_nil, equations, List.append_nil] at h

end Piece

namespace Statement

/-- What a statement assigns to columns and compares with them, in the order of its text. -/
def equated : Statement → List (String × Value)
  | count _ condition => condition.clauses
  | select _ _ condition => condition.clauses
  | update _ entries condition => entries ++ condition.clauses
  | _ => []

/-- **The column of each value.**  In a statement that is no insertion the slot of each value stands
beside the column for which the value is meant. -/
theorem equations_pieces (dialect : Dialect) {statement : Statement}
    (hTakes : statement.takesValues = true)
    (hInsert : ∀ table entries, statement ≠ insert table entries) :
    Piece.equations (statement.pieces dialect) = statement.equated := by
  cases statement with
  | createDatabase => cases hTakes
  | createTable => cases hTakes
  | insert table entries => exact absurd rfl (hInsert table entries)
  | count table condition =>
      simp only [pieces, equated, List.cons_append, List.nil_append, Piece.equations_word,
        Piece.equations_name (show " FROM " ≠ " = " by decide),
        Piece.equations_table (show " WHERE " ≠ " = " by decide), Piece.equations_condition]
  | select table columns condition =>
      simp only [pieces, equated, List.cons_append, List.append_assoc, Piece.equations_word,
        Piece.equations_names (show " FROM " ≠ " = " by decide),
        Piece.equations_table (show " WHERE " ≠ " = " by decide), Piece.equations_condition]
  | update table entries condition =>
      simp only [pieces, equated, List.cons_append, List.append_assoc, Piece.equations_word,
        Piece.equations_table (show " SET " ≠ " = " by decide), Piece.equations_separated,
        Piece.equations_condition]

/-- In an insertion the columns and the slots of the values stand in the same order. -/
theorem zip_insert (entries : List (String × Value)) :
    ((insertPieces entries).filterMap Piece.identifier?).zip
      ((insertPieces entries).filterMap slot?) = entries := by
  have hNames : (insertPieces entries).filterMap Piece.identifier? = entries.map Prod.fst := by
    rw [insertPieces]
    split
    case isTrue hNone =>
      rw [List.isEmpty_iff.mp hNone]
      rfl
    case isFalse =>
      have hColumns : (entries.map fun entry => [Piece.name entry.1]).flatMap
          (List.filterMap Piece.identifier?) = entries.map Prod.fst := by
        rw [List.flatMap_map]
        exact List.flatMap_pure_eq_map _ _
      have hSlots : (entries.map fun entry => [Piece.slot entry.2]).flatMap
          (List.filterMap Piece.identifier?) = [] := by
        rw [List.flatMap_map]
        exact List.flatMap_eq_nil_iff.mpr fun _ _ => rfl
      simp only [List.filterMap_cons, List.filterMap_append, List.filterMap_nil, Piece.identifier?,
        Piece.filterMap_separated Piece.identifier? ", " rfl, hColumns, hSlots, List.cons_append,
        List.append_nil]
  rw [hNames, filterMap_slot?_insert, List.zip_map', List.map_id']

end Statement

/-! ## Reading a statement -/

theorem parted_table (table : TableRef) : Parted table.pieces := by
  have hTable : Parted [.name table.table] := .name follows_nil .nil
  rw [TableRef.pieces]
  split
  · exact .name (follows_word _ _) (.word (by decide) hTable)
  · exact hTable

theorem parted_equation (entry : String × Value) : Parted (equationPieces entry) :=
  .name (follows_word _ _) (.word (by decide) (.slot follows_nil .nil))

theorem parted_condition (condition : Condition) : Parted (conditionPieces condition) := by
  rw [conditionPieces]
  split
  · exact .word (by decide) .nil
  · exact parted_separated (by decide) fun pieces hPieces => by
      obtain ⟨clause, -, rfl⟩ := List.mem_map.mp hPieces
      exact parted_equation clause

/-- Identifiers with a word between them. -/
theorem parted_names {α : Type} (name : α → String) (xs : List α) :
    Parted (Piece.separated ", " (xs.map fun x => [.name (name x)])) :=
  parted_separated (by decide) fun pieces hPieces => by
    obtain ⟨x, -, rfl⟩ := List.mem_map.mp hPieces
    exact .name follows_nil .nil

/-- Slots with a word between them. -/
theorem parted_slots {α : Type} (value : α → Value) (xs : List α) :
    Parted (Piece.separated ", " (xs.map fun x => [.slot (value x)])) :=
  parted_separated (by decide) fun pieces hPieces => by
    obtain ⟨x, -, rfl⟩ := List.mem_map.mp hPieces
    exact .slot follows_nil .nil

/-- The assignments of an update. -/
theorem parted_assignments (entries : List (String × Value)) :
    Parted (Piece.separated ", " (entries.map equationPieces)) :=
  parted_separated (by decide) fun pieces hPieces => by
    obtain ⟨entry, -, rfl⟩ := List.mem_map.mp hPieces
    exact parted_equation entry

/-- The end of a statement that has a condition. -/
theorem parted_where (condition : Condition) :
    Parted (.word " WHERE " :: conditionPieces condition) :=
  .word (by decide) (parted_condition condition)

namespace Statement

theorem parted_insert (entries : List (String × Value)) : Parted (insertPieces entries) := by
  have hEnd : Parted [.word ")"] := .word (by decide) .nil
  rw [insertPieces]
  split
  · exact .word (by decide) .nil
  · have hNames : Parted (.word " (" :: Piece.separated ", " (entries.map fun e => [.name e.1])) :=
      .word (by decide) (parted_names Prod.fst entries)
    have hValues : Parted (.word ") VALUES (" ::
        Piece.separated ", " (entries.map fun e => [.slot e.2])) :=
      .word (by decide) (parted_slots Prod.snd entries)
    exact (hNames.append hValues (follows_word _ _)).append hEnd (follows_word _ _)

/-- A statement that values can be bound to is read as it was written. -/
theorem parted_pieces (dialect : Dialect) {statement : Statement}
    (h : statement.takesValues = true) : Parted (statement.pieces dialect) := by
  cases statement with
  | createDatabase => cases h
  | createTable => cases h
  | count table condition =>
      exact .word (by decide) (.name (follows_word _ _) (.word (by decide)
        ((parted_table table).append (parted_where condition) (follows_word _ _))))
  | select table columns condition =>
      have hFrom : Parted (.word " FROM " :: table.pieces) :=
        .word (by decide) (parted_table table)
      exact (Parted.word (by decide) ((parted_names id columns).append hFrom
        (follows_word _ _))).append (parted_where condition) (follows_word _ _)
  | insert table entries =>
      exact .word (by decide) ((parted_table table).append (parted_insert entries) (by
        rw [insertPieces]
        split <;> exact follows_word _ _))
  | update table entries condition =>
      have hSet : Parted (.word " SET " :: Piece.separated ", " (entries.map equationPieces)) :=
        .word (by decide) (parted_assignments entries)
      exact (Parted.word (by decide) ((parted_table table).append hSet
        (follows_word _ _))).append (parted_where condition) (follows_word _ _)

/-- **Places agree.**  The placeholders in the text of a statement are as many as its values, and
numbered from one in order. -/
theorem placeholders?_text (dialect : Dialect) {statement : Statement}
    (h : statement.takesValues = true) :
    placeholders? dialect (statement.text dialect)
      = some ((List.range' 1 (statement.values dialect).length).map dialect.placeholder) := by
  rw [placeholders?, text, tokens?_textFrom (parted_pieces dialect h), Option.map_some,
    placeholders_tokensFrom]
  rfl

end Statement

/-! ## What is sent -/

namespace Session

/-- **A statement is built from the rest of the call.**  Without its values a call is served by the
same statements without theirs. -/
theorem plan_withoutValues {session : Session} {call : Call} {statements : List Statement}
    (h : session.plan call = .ok statements) :
    session.plan call.withoutValues = .ok (statements.map Statement.withoutValues) := by
  cases call with
  | mode => cases h; rfl
  | health => cases h; rfl
  | ensure space =>
      cases h
      simp only [Call.withoutValues, plan, createDatabase]
      split <;> rfl
  | count => cases h; rfl
  | search => cases h; rfl
  | insert space record =>
      rw [plan] at h
      split at h
      case h_1 => cases h
      case h_2 hCheck =>
        cases h
        have hNothing : space.check ⟨namesOnly record.entries⟩ = .ok () :=
          Space.checkEntries_namesOnly hCheck
        rw [Call.withoutValues, plan, hNothing]
        rfl
  | update space condition fields =>
      rw [plan] at h
      split at h
      case h_1 => cases h
      case h_2 hCheck =>
        split at h
        · cases h
        case isFalse hSome =>
          cases h
          have hNothing : space.check ⟨namesOnly fields.entries⟩ = .ok () :=
            Space.checkEntries_namesOnly hCheck
          have hKept : OrderedMap.isEmpty (⟨namesOnly fields.entries⟩ : Record)
              = fields.isEmpty := by
            rw [OrderedMap.isEmpty, OrderedMap.isEmpty, namesOnly, List.isEmpty_map]
          rw [Call.withoutValues, plan, hNothing]
          simp only [hKept, if_neg hSome]
          rfl

/-- A call with values has one statement if it is sent. -/
theorem exists_plan (session : Session) {call : Call} (hSent : call.isSent = true)
    (hParameters : call.parameters?.isSome = true) :
    ∃ statement, session.plan call = .ok [statement] := by
  cases call with
  | mode => cases hParameters
  | health => cases hParameters
  | ensure => cases hParameters
  | count => exact ⟨_, rfl⟩
  | search => exact ⟨_, rfl⟩
  | insert space record =>
      rw [Call.isSent] at hSent
      rw [plan]
      cases hCheck : space.check record with
      | error e => rw [hCheck] at hSent; cases hSent
      | ok => exact ⟨_, rfl⟩
  | update space condition fields =>
      rw [Call.isSent, Bool.and_eq_true] at hSent
      rw [plan]
      cases hCheck : space.check fields with
      | error e => rw [hCheck] at hSent; cases hSent.1
      | ok =>
          rw [(Bool.not_eq_true' _).mp hSent.2]
          exact ⟨_, rfl⟩

/-- A call that is not sent has no statement. -/
theorem exists_plan_error (session : Session) {call : Call} (hSent : call.isSent = false) :
    ∃ e, session.plan call = .error e := by
  cases call with
  | mode => cases hSent
  | health => cases hSent
  | ensure => cases hSent
  | count => cases hSent
  | search => cases hSent
  | insert space record =>
      rw [Call.isSent] at hSent
      rw [plan]
      cases hCheck : space.check record with
      | error e => exact ⟨_, rfl⟩
      | ok => rw [hCheck] at hSent; cases hSent
  | update space condition fields =>
      rw [Call.isSent, Bool.and_eq_false_iff] at hSent
      rw [plan]
      cases hCheck : space.check fields with
      | error e => exact ⟨_, rfl⟩
      | ok =>
          rcases hSent with hChecked | hEmpty
          · rw [hCheck] at hChecked
            cases hChecked
          · rw [(Bool.not_eq_false' _).mp hEmpty]
            exact ⟨_, rfl⟩

end Session

variable {σ : Type}

/-- The statements that a database is sent for a call. -/
def sent (run : σ → Statement → Result × σ) (session : Session) (state : σ) (call : Call) :
    List Statement :=
  (serve run session state call).2.1

theorem sent_of_plan (run : σ → Statement → Result × σ) {session : Session} (state : σ)
    {call : Call} {statement : Statement} (h : session.plan call = .ok [statement]) :
    sent run session state call = [statement] := by
  simp [sent, serve, h, send]

theorem sent_of_error (run : σ → Statement → Result × σ) {session : Session} (state : σ)
    {call : Call} {e : StoreError} (h : session.plan call = .error e) :
    sent run session state call = [] := by
  rw [sent, serve, h]

/-- **Values are sent as parameters only.**  A call that counts, searches, inserts or updates rows
sends nothing when what it writes does not fit, and otherwise one statement, on whatever database.
The values bound to it are those of the call: of the record or the fields in the byte order of
their columns, then of the condition in the order of its clauses.  Its text has a placeholder for
each of them, numbered in the same order, and is sent letter by letter for every other call that
has the same space and the same columns, whatever its values. -/
theorem sent_values_as_parameters {σ τ : Type} (run : σ → Statement → Result × σ)
    (run' : τ → Statement → Result × τ) (session : Session) (state : σ) (state' : τ) (call : Call)
    {parameters : List Value} (hParameters : call.parameters? = some parameters)
    (hSorted : ∀ record ∈ call.written?, record.Sorted) :
    (call.isSent = false → sent run session state call = []) ∧
    (call.isSent = true → ∃ statement, sent run session state call = [statement] ∧
      statement.bindings session.dialect = some parameters ∧
      placeholders? session.dialect (statement.text session.dialect)
        = some ((List.range' 1 parameters.length).map session.dialect.placeholder) ∧
      (∀ record ∈ call.written?, (record.keys.map utf8Bytes).Pairwise (· < ·)) ∧
      ∀ other : Call, other.withoutValues = call.withoutValues → other.isSent = true →
        ∃ twin, sent run' session state' other = [twin] ∧
          twin.text session.dialect = statement.text session.dialect) := by
  refine ⟨fun hSent => ?_, fun hSent => ?_⟩
  · obtain ⟨e, hPlan⟩ := Session.exists_plan_error session hSent
    exact sent_of_error run state hPlan
  obtain ⟨statement, hPlan⟩ :=
    Session.exists_plan session hSent (by rw [hParameters]; rfl)
  obtain ⟨hTakes, hValues⟩ := Statement.values_of_plan hPlan hParameters session.dialect
  refine ⟨statement, sent_of_plan run state hPlan, ?_, ?_, fun record hRecord => ?_,
    fun other hOther hOtherSent => ?_⟩
  · rw [Statement.bindings, hTakes, if_pos rfl, hValues]
  · rw [Statement.placeholders?_text session.dialect hTakes, hValues]
  · exact List.pairwise_map.mpr ((hSorted record hRecord).imp fun hLess =>
      utf8Bytes_lt_of_lt (compareOfLessAndEq_eq_lt.mp hLess))
  · have hSome : other.parameters?.isSome = true := by
      rw [← other.isSome_parameters?_withoutValues, hOther, call.isSome_parameters?_withoutValues,
        hParameters]
      rfl
    obtain ⟨twin, hTwin⟩ := Session.exists_plan session hOtherSent hSome
    obtain ⟨parameters', hParameters'⟩ := Option.isSome_iff_exists.mp hSome
    have hTwinTakes := (Statement.values_of_plan hTwin hParameters' session.dialect).1
    have hSame : twin.withoutValues = statement.withoutValues := by
      have hFirst := Session.plan_withoutValues hTwin
      rw [hOther, Session.plan_withoutValues hPlan] at hFirst
      simpa using hFirst.symm
    refine ⟨twin, sent_of_plan run' state' hTwin, ?_⟩
    rw [← Statement.text_withoutValues session.dialect hTwinTakes, hSame,
      Statement.text_withoutValues session.dialect hTakes]

/-- An update of a table whose name holds a mark and what could be taken for placeholders, with a
missing value, an equal value in two columns and a comparison made twice. -/
def awkwardUpdate : Call :=
  .update ((Space.keyed "d" "t\"$9?" "k").withColumn "É" .int |>.withColumn "z" .int
      |>.withColumn "Z" .text)
    ⟨[("z", .int 7), ("k", .text "$1"), ("z", .int 7)]⟩
    ⟨[("Z", .null), ("z", .int 7), ("É", .int 7)]⟩

/-- The update is bound to its six values under six numbered placeholders. -/
theorem sent_values_as_parameters_awkwardUpdate :
    (∀ record ∈ awkwardUpdate.written?, record.Sorted) ∧ awkwardUpdate.isSent = true ∧
    ∃ statement,
      sent (fun (state : Unit) _ => (.affected 1, state)) ⟨.postgres, true⟩ () awkwardUpdate
        = [statement] ∧
      statement.bindings .postgres
        = some [.null, .int 7, .int 7, .int 7, .text "$1", .int 7] ∧
      placeholders? .postgres (statement.text .postgres)
        = some ["$1", "$2", "$3", "$4", "$5", "$6"] := by
  have hSorted : ∀ record ∈ awkwardUpdate.written?, record.Sorted := by
    intro record hRecord
    cases hRecord
    unfold OrderedMap.Sorted
    decide
  have hSent : awkwardUpdate.isSent = true := by decide
  obtain ⟨statement, hOne, hBound, hPlaces, -⟩ :=
    (sent_values_as_parameters (fun (state : Unit) _ => (.affected 1, state))
      (fun (state : Unit) _ => (.affected 1, state)) ⟨.postgres, true⟩ () () awkwardUpdate rfl
      hSorted).2 hSent
  exact ⟨hSorted, hSent, statement, hOne, hBound, hPlaces⟩

end Sql

end Leasehold
