import Leasehold.Proofs.Store.Representation

/-!
# Tables apart

A memory store finds the table of a space under one text, the name of its database and its own
name with a dot between them.  Calls on one table say nothing about a table of another full name.
But a dot may also stand in a name, so that two tables of different databases may have one full
name, and then they are one table.

* `Memory.perform_at`, `Memory.rows_perform_of_isApart`: a call answers and changes the table of its
  full name, given the rows of this table alone.
* `Memory.answersAt`, `Memory.Isolated`: the answers about a table stay the same without the calls
  on another.
* `Space.Straddles`: a part of a name that may belong to the database or to the table.
* `Memory.isolated_iff`: which tables are isolated.
* `Memory.table_shared`: two tables that are not.
-/

namespace Leasehold

/-! ## Calls on a table -/

/-- Whether a call is about the table of a space, whatever columns it knows of. -/
def Call.isAt (space : Space) (call : Call) : Bool :=
  call.space?.any fun other =>
    decide (other.database = space.database ∧ other.table = space.table)

theorem Call.isAt_of_space? {space other : Space} {call : Call} (h : call.space? = some other) :
    call.isAt space
      = decide (other.database = space.database ∧ other.table = space.table) := by
  rw [isAt, h, Option.any_some]

/-- A call about a table of another full name. -/
def Call.IsApart (call : Call) (space : Space) : Prop :=
  ∀ other, call.space? = some other → other.fullName ≠ space.fullName

theorem Call.IsApart.isAt_eq_false {space : Space} {call : Call} (h : call.IsApart space) :
    call.isAt space = false := by
  cases hSpace : call.space? with
  | none => rw [isAt, hSpace, Option.any_none]
  | some other =>
      rw [isAt_of_space? hSpace, decide_eq_false_iff_not]
      rintro ⟨hDatabase, hTable⟩
      refine h other hSpace ?_
      rw [Space.fullName, hDatabase, hTable]
      rfl

namespace Memory

variable {memory other : Memory} {space reader : Space} {call : Call}

/-- Tables of one full name are one table. -/
theorem rows_eq_of_fullName_eq (memory : Memory) (h : reader.fullName = space.fullName) :
    memory.rows reader = memory.rows space := by
  rw [rows, table?, h]
  rfl

/-- An update of a table without rows affects none. -/
theorem updateTable_empty (key? : Option Value) (condition : Condition) (fields : Record) :
    updateTable ∅ key? condition fields = (0, ∅) := by
  cases key? <;> rfl

/-- An update sees and leaves the rows of its table; a table that was not created has none. -/
theorem update_eq_of_admitted (memory : Memory) (condition : Condition) {fields : Record}
    (hAdmit : admitUpdate space fields = .ok ()) :
    (memory.update space condition fields).1
        = .ok (updateTable (memory.rows space) (condition.value? space.key) condition fields).1 ∧
      (memory.update space condition fields).2.rows space
        = (updateTable (memory.rows space) (condition.value? space.key) condition fields).2 := by
  cases hTable : memory.table? space with
  | none =>
      have hRows : memory.rows space = ∅ := by rw [rows, hTable, Option.getD_none]
      simp only [update, hAdmit, hTable, hRows, updateTable_empty, and_self]
  | some table =>
      rw [rows_of_table? hTable]
      simp only [update, hAdmit, hTable, rows_withTable, and_self]

/-- **A call sees its own table.**  Two stores with the same rows in the table of a call give the
same reply, and have the same rows there afterwards. -/
theorem perform_at (hCall : call.space? = some space) (h : memory.rows space = other.rows space) :
    (memory.perform call).1 = (other.perform call).1 ∧
      (memory.perform call).2.rows space = (other.perform call).2.rows space := by
  cases call with
  | mode => cases hCall
  | health => cases hCall
  | ensure found =>
      obtain rfl := Option.some.inj hCall
      refine ⟨rfl, ?_⟩
      simp only [perform, rows_ensure, h]
  | count found condition =>
      obtain rfl := Option.some.inj hCall
      exact ⟨by simp only [perform, count, search, h], h⟩
  | search found condition =>
      obtain rfl := Option.some.inj hCall
      exact ⟨by simp only [perform, search, h], h⟩
  | insert found record =>
      obtain rfl := Option.some.inj hCall
      simp only [perform, insert, h]
      split
      · exact ⟨rfl, h⟩
      · split
        · exact ⟨rfl, h⟩
        · exact ⟨rfl, by rw [rows_withTable, rows_withTable]⟩
  | update found condition fields =>
      obtain rfl := Option.some.inj hCall
      simp only [perform]
      cases hAdmit : admitUpdate found fields with
      | error error =>
          simp only [update, hAdmit]
          exact ⟨trivial, h⟩
      | ok admitted =>
          obtain ⟨hReply, hRows⟩ := memory.update_eq_of_admitted condition hAdmit
          obtain ⟨hOtherReply, hOtherRows⟩ := other.update_eq_of_admitted condition hAdmit
          rw [hReply, hRows, hOtherReply, hOtherRows, h]
          exact ⟨rfl, rfl⟩

/-- **A call changes no other table.** -/
theorem rows_perform_of_isApart (memory : Memory) (h : call.IsApart reader) :
    (memory.perform call).2.rows reader = memory.rows reader := by
  cases call with
  | mode => rfl
  | health => rfl
  | ensure found => exact rows_ensure memory found reader
  | count found condition => rfl
  | search found condition => rfl
  | insert found record => exact rows_insert_of_ne memory record (h found rfl).symm
  | update found condition fields =>
      exact rows_update_of_ne memory condition fields (h found rfl).symm

/-! ## Runs of calls -/

/-- The replies to the calls on a table in a run of calls, in their order. -/
def answersAt (memory : Memory) (reader : Space) (calls : List Call) : List Reply :=
  ((calls.zip (memory.performAll calls).1).filter fun pair => pair.1.isAt reader).map Prod.snd

theorem answersAt_cons_of_isAt (memory : Memory) (rest : List Call)
    (h : call.isAt reader = true) :
    memory.answersAt reader (call :: rest)
      = (memory.perform call).1 :: (memory.perform call).2.answersAt reader rest := by
  simp only [answersAt, performAll, List.zip_cons_cons, List.filter_cons, h, if_true, List.map_cons]

theorem answersAt_cons_of_not_isAt (memory : Memory) (rest : List Call)
    (h : call.isAt reader = false) :
    memory.answersAt reader (call :: rest) = (memory.perform call).2.answersAt reader rest := by
  simp only [answersAt, performAll, List.zip_cons_cons, List.filter_cons, h, Bool.false_eq_true,
    if_false]

/-- What a run of calls leaves behind without the calls on one table. -/
def without (writer : Space) (calls : List Call) : List Call :=
  calls.filter fun call => !call.isAt writer

/-- **One table is isolated from another**: whatever the store holds and whatever is asked of it,
the replies to the calls on the one stay the same when the calls on the other are left out. -/
def Isolated (writer reader : Space) : Prop :=
  ∀ (memory : Memory) (calls : List Call),
    memory.answersAt reader (without writer calls) = memory.answersAt reader calls

theorem without_cons_of_isAt {writer : Space} (rest : List Call)
    (h : call.isAt writer = true) : without writer (call :: rest) = without writer rest :=
  List.filter_cons_of_neg (by simp [h])

theorem without_cons_of_not_isAt {writer : Space} (rest : List Call)
    (h : call.isAt writer = false) :
    without writer (call :: rest) = call :: without writer rest :=
  List.filter_cons_of_pos (by simp [h])

/-- Two stores that agree on a table answer alike about it, though the calls on a table of another
full name reach one of them only. -/
theorem answersAt_without {writer : Space} (hName : writer.fullName ≠ reader.fullName)
    (h : other.rows reader = memory.rows reader) (calls : List Call) :
    other.answersAt reader (without writer calls) = memory.answersAt reader calls := by
  induction calls generalizing memory other with
  | nil => rfl
  | cons call rest ih =>
      by_cases hReach : ∃ found, call.space? = some found ∧ found.fullName = reader.fullName
      · -- Both stores answer the call from the rows that they share.
        obtain ⟨found, hFound, hFull⟩ := hReach
        have hKept : call.isAt writer = false :=
          Call.IsApart.isAt_eq_false fun same hSame => by
            obtain rfl : found = same := Option.some.inj (hFound.symm.trans hSame)
            exact fun hWriter => hName (hWriter.symm.trans hFull)
        have hRows : other.rows found = memory.rows found := by
          rw [rows_eq_of_fullName_eq other hFull, rows_eq_of_fullName_eq memory hFull, h]
        obtain ⟨hReply, hNext⟩ := perform_at hFound hRows
        rw [rows_eq_of_fullName_eq _ hFull, rows_eq_of_fullName_eq _ hFull] at hNext
        rw [without_cons_of_not_isAt rest hKept]
        cases hReader : call.isAt reader with
        | true =>
            rw [answersAt_cons_of_isAt other _ hReader, answersAt_cons_of_isAt memory _ hReader,
              hReply, ih hNext]
        | false =>
            rw [answersAt_cons_of_not_isAt other _ hReader,
              answersAt_cons_of_not_isAt memory _ hReader]
            exact ih hNext
      · -- The call does not reach the table, whether it is left out or not.
        have hApart : call.IsApart reader := fun found hFound hFull =>
          hReach ⟨found, hFound, hFull⟩
        have hKeeps := rows_perform_of_isApart memory hApart
        rw [answersAt_cons_of_not_isAt memory rest hApart.isAt_eq_false]
        cases hWriter : call.isAt writer with
        | true =>
            rw [without_cons_of_isAt rest hWriter]
            exact ih (h.trans hKeeps.symm)
        | false =>
            rw [without_cons_of_not_isAt rest hWriter,
              answersAt_cons_of_not_isAt other _ hApart.isAt_eq_false]
            exact ih ((rows_perform_of_isApart other hApart).trans (h.trans hKeeps.symm))

end Memory

/-! ## Names with dots -/

namespace Space

/-- **A name that straddles the dot.**  A part of it ends the name of one database and begins the
name of the other table. -/
def Straddles (long short : Space) : Prop :=
  ∃ part, long.database = short.database ++ "." ++ part ∧ short.table = part ++ "." ++ long.table

theorem straddles_of_toList_eq {a b : Space} {middle : List Char}
    (hDatabase : b.database.toList = a.database.toList ++ middle)
    (hTable : '.' :: a.table.toList = middle ++ '.' :: b.table.toList) :
    a.database = b.database ∧ a.table = b.table ∨ b.Straddles a := by
  cases middle with
  | nil =>
      refine .inl ⟨String.toList_inj.mp ?_, String.toList_inj.mp (List.cons.inj hTable).2⟩
      rw [hDatabase, List.append_nil]
  | cons first part =>
      obtain ⟨rfl, hRest⟩ := List.cons.inj hTable
      refine .inr ⟨String.ofList part, String.toList_inj.mp ?_, String.toList_inj.mp ?_⟩
      · simpa using hDatabase
      · simpa using hRest

/-- **When two full names are one.**  The names are the same, or one of them straddles the dot. -/
theorem fullName_eq_iff (a b : Space) :
    a.fullName = b.fullName ↔
      a.database = b.database ∧ a.table = b.table ∨ a.Straddles b ∨ b.Straddles a := by
  constructor
  · intro h
    have hChars : a.database.toList ++ '.' :: a.table.toList
        = b.database.toList ++ '.' :: b.table.toList := by
      have hList := congrArg String.toList h
      simpa [fullName] using hList
    rcases List.append_eq_append_iff.mp hChars with
      ⟨middle, hDatabase, hTable⟩ | ⟨middle, hDatabase, hTable⟩
    · exact (straddles_of_toList_eq hDatabase hTable).imp_right .inr
    · rcases straddles_of_toList_eq hDatabase hTable with ⟨hDatabase, hTable⟩ | hStraddles
      · exact .inl ⟨hDatabase.symm, hTable.symm⟩
      · exact .inr (.inl hStraddles)
  · rintro (⟨hDatabase, hTable⟩ | ⟨part, hDatabase, hTable⟩ | ⟨part, hDatabase, hTable⟩)
    · rw [fullName, fullName, hDatabase, hTable]
    · simp only [fullName, hDatabase, hTable, String.append_assoc]
    · simp only [fullName, hDatabase, hTable, String.append_assoc]

end Space

/-! ## Isolation -/

namespace Memory

/-- A table with one row. -/
def oneRow (space : Space) : Call :=
  .insert (.keyed space.database space.table "key") (.ofList [("key", .text "a")])

/-- The number of all rows of a table. -/
def allRows (space : Space) : Call :=
  .count (.keyed space.database space.table "key") .always

theorem isAt_oneRow (writer space : Space) :
    (oneRow writer).isAt space
      = decide (writer.database = space.database ∧ writer.table = space.table) := rfl

theorem isAt_allRows (reader space : Space) :
    (allRows reader).isAt space
      = decide (reader.database = space.database ∧ reader.table = space.table) := rfl

/-- A row that was inserted under one name of a table is counted under the other. -/
theorem count_after_oneRow {writer reader : Space} (h : writer.fullName = reader.fullName) :
    ((empty.perform (oneRow writer)).2.perform (allRows reader)).1 = .ok (.number 1) := by
  have hStored : (empty.perform (oneRow writer)).2
      = empty.withTable (.keyed writer.database writer.table "key")
          ⟨[(.text "a", .ofList [("key", .text "a")])]⟩ := rfl
  have hRows : (empty.perform (oneRow writer)).2.rows (.keyed reader.database reader.table "key")
      = (empty.perform (oneRow writer)).2.rows (.keyed writer.database writer.table "key") :=
    rows_eq_of_fullName_eq _ h.symm
  rw [hStored, rows_withTable] at hRows
  rw [hStored]
  simp only [perform, allRows, count, search, hRows]
  rfl

/-- Tables of one full name are not isolated: what is inserted into one is counted in the other. -/
theorem not_isolated_of_fullName_eq {writer reader : Space}
    (hOther : ¬ (writer.database = reader.database ∧ writer.table = reader.table))
    (h : writer.fullName = reader.fullName) : ¬ Isolated writer reader := by
  intro hIsolated
  have hWrites : (oneRow writer).isAt writer = true :=
    (isAt_oneRow writer writer).trans (decide_eq_true ⟨rfl, rfl⟩)
  have hStays : (allRows reader).isAt writer = false :=
    (isAt_allRows reader writer).trans
      (decide_eq_false fun hSame => hOther ⟨hSame.1.symm, hSame.2.symm⟩)
  have hUnread : (oneRow writer).isAt reader = false :=
    (isAt_oneRow writer reader).trans (decide_eq_false hOther)
  have hRead : (allRows reader).isAt reader = true :=
    (isAt_allRows reader reader).trans (decide_eq_true ⟨rfl, rfl⟩)
  have hReplies := hIsolated empty [oneRow writer, allRows reader]
  rw [without_cons_of_isAt _ hWrites, without_cons_of_not_isAt _ hStays,
    answersAt_cons_of_not_isAt _ _ hUnread, answersAt_cons_of_isAt _ _ hRead,
    answersAt_cons_of_isAt _ _ hRead, count_after_oneRow h] at hReplies
  cases (List.cons.inj hReplies).1

/-- **Which tables are isolated.**  The calls on one table change no answer about another exactly
if the two have different names, and no part of a name belongs to the database of one and to the
table of the other. -/
theorem isolated_iff (writer reader : Space) :
    Isolated writer reader ↔
      ¬ (writer.database = reader.database ∧ writer.table = reader.table) ∧
        ¬ writer.Straddles reader ∧ ¬ reader.Straddles writer := by
  rw [← not_or, ← not_or, ← Space.fullName_eq_iff]
  refine ⟨fun hIsolated hName => ?_, fun hName memory calls => answersAt_without hName rfl calls⟩
  by_cases hSame : writer.database = reader.database ∧ writer.table = reader.table
  · -- Without its own calls a table is not heard of.
    have hRead : (allRows reader).isAt reader = true :=
      (isAt_allRows reader reader).trans (decide_eq_true ⟨rfl, rfl⟩)
    have hLeftOut : (allRows reader).isAt writer = true :=
      (isAt_allRows reader writer).trans (decide_eq_true ⟨hSame.1.symm, hSame.2.symm⟩)
    have hReplies := hIsolated empty [allRows reader]
    rw [without_cons_of_isAt _ hLeftOut, answersAt_cons_of_isAt _ _ hRead] at hReplies
    cases hReplies
  · exact not_isolated_of_fullName_eq hSame hName hIsolated

/-- **All tables are isolated**: every two that differ in the database or in the name. -/
def IsolatesTables : Prop :=
  ∀ writer reader : Space,
    ¬ (writer.database = reader.database ∧ writer.table = reader.table) → Isolated writer reader

/-- **Two tables that are one**: `b.c` in the database `a`, and `c` in the database `a.b`. -/
theorem table_shared : ¬ IsolatesTables := by
  intro hAll
  have hOther : ¬ ((Space.keyed "a" "b.c" "key").database = (Space.keyed "a.b" "c" "key").database ∧
      (Space.keyed "a" "b.c" "key").table = (Space.keyed "a.b" "c" "key").table) := by decide
  exact not_isolated_of_fullName_eq hOther rfl (hAll _ _ hOther)

end Memory
end Leasehold
