import Leasehold.Proofs.Lock.Table

/-!
# What a memory store keeps of a space

A memory store keeps the key of a row twice: as the key of the table and in the key column
of the row.  No call writes both on its own.  An insertion takes the one from the other, and
an update writes no key column, so the two stay the same, and the table can be trusted to
hold one row for each key.

* `Space.Built`: the spaces that can be described.
* `Space.Keeps`: what a table of a space keeps under a key.
* `Memory.Conforms`: a store whose table of a space keeps nothing else.
* `Memory.Conforms.perform`, `Memory.Conforms.performAll`: every call, answered or rejected,
  leaves such a store such a store.
* `Memory.Conforms.update_eq`: the row looked up is the row that a search finds, so an update
  changes what a search with its condition finds.
* `Memory.conforms_performAll`: what holds after any calls on a space.
-/

namespace Leasehold

/-! ## Spaces -/

namespace Space

/-- **Spaces that can be described.**  A space has a text column as its key, and any
columns after it; two of them may have one name, and one may have the name of the key. -/
inductive Built : Space → Prop where
  | keyed (database table key : String) : Built (keyed database table key)
  | withColumn {space : Space} (name : String) (kind : Kind) (h : Built space) :
      Built (space.withColumn name kind)

/-- The first column of the key's name holds text, whatever columns follow. -/
theorem Built.column?_key {space : Space} (h : space.Built) :
    space.column? space.key = some ⟨space.key, .text⟩ := by
  induction h with
  | keyed database table key => simp [column?, Space.keyed]
  | @withColumn space name kind _ ih =>
      unfold column? at ih
      change (space.columns ++ [Column.mk name kind]).find? (fun column => column.name == space.key)
        = some ⟨space.key, .text⟩
      rw [List.find?_append, ih]
      rfl

/-- The space of a lock table is one of them. -/
theorem built_lockSpace (database table : String) : (lockSpace database table).Built :=
  (((Built.keyed database table _).withColumn _ _).withColumn _ _).withColumn _ _

/-- A cell fits if its column exists and holds nothing or a value of the column's kind. -/
def Fits (space : Space) (cell : String × Value) : Prop :=
  ∃ column, space.column? cell.1 = some column ∧
    (cell.2 = .null ∨ cell.2.kind? = some column.kind)

theorem checkEntry_eq_ok_iff (space : Space) (cell : String × Value) :
    space.checkEntry cell = .ok () ↔ space.Fits cell := by
  unfold checkEntry Fits
  cases hColumn : space.column? cell.1 with
  | none => simp
  | some column =>
      cases hKind : cell.2.kind? with
      | none => simp [(Value.kind?_eq_none_iff _).mp hKind]
      | some kind =>
          have hValue : cell.2 ≠ .null := by
            intro hNull
            simp [(Value.kind?_eq_none_iff _).mpr hNull] at hKind
          by_cases hSame : kind = column.kind <;> simp [hSame, hValue]

theorem checkEntries_eq_ok_iff (space : Space) (cells : List (String × Value)) :
    space.checkEntries cells = .ok () ↔ ∀ cell ∈ cells, space.Fits cell := by
  induction cells with
  | nil => simp [checkEntries]
  | cons cell rest ih =>
      rw [List.forall_mem_cons, ← checkEntry_eq_ok_iff, ← ih, checkEntries]
      cases space.checkEntry cell <;> simp

/-- A record passes its check if all its cells fit. -/
theorem check_eq_ok_iff (space : Space) (record : Record) :
    space.check record = .ok () ↔ ∀ cell ∈ record.entries, space.Fits cell :=
  checkEntries_eq_ok_iff space record.entries

/-- **What a table keeps.**  A row is kept under a text that its own key column holds, and
all its cells fit. -/
structure Keeps (space : Space) (key : Value) (row : Record) : Prop where
  isText : ∃ name, key = .text name
  keyed : row.get? space.key = some key
  typed : ∀ cell ∈ row.entries, space.Fits cell

end Space

/-! ## Calls that are let in -/

namespace Memory

/-- An insertion that is let in has a text as its key and cells that fit. -/
theorem keeps_of_admitInsert {space : Space} {record : Record} {key : Value}
    (hBuilt : space.Built) (h : admitInsert space record = .ok key) : space.Keeps key record := by
  unfold admitInsert at h
  split at h
  · cases h
  · next hCheck =>
    have hTyped := (space.check_eq_ok_iff record).mp hCheck
    unfold keyOf? at h
    split at h
    · next found hFound =>
      by_cases hNull : found.isNull
      · simp [hNull] at h
      · obtain rfl : found = key := by simpa [hNull] using h
        refine ⟨?_, hFound, hTyped⟩
        obtain ⟨column, hColumn, hValue⟩ := hTyped _ (OrderedMap.mem_of_get? hFound)
        obtain rfl : ⟨space.key, .text⟩ = column :=
          Option.some.inj (hBuilt.column?_key.symm.trans hColumn)
        rcases hValue with hValue | hValue
        · simp [show found = .null from hValue, Value.isNull] at hNull
        · exact Value.exists_text hValue
    · cases h

/-- An update is let in if its cells fit and none of them is the key. -/
theorem admitUpdate_eq_ok_iff (space : Space) (fields : Record) :
    admitUpdate space fields = .ok () ↔
      (∀ cell ∈ fields.entries, space.Fits cell) ∧ fields.contains space.key = false := by
  rw [← Space.check_eq_ok_iff]
  unfold admitUpdate
  cases space.check fields with
  | error e => simp
  | ok _ => cases fields.contains space.key <;> simp

end Memory

theorem Space.Keeps.merge {space : Space} {key : Value} {row fields : Record}
    (h : space.Keeps key row) (hAdmit : Memory.admitUpdate space fields = .ok ()) :
    space.Keeps key (row.merge fields) := by
  obtain ⟨hTyped, hKey⟩ := (Memory.admitUpdate_eq_ok_iff space fields).mp hAdmit
  refine ⟨h.isText, ?_, ?_⟩
  · rw [OrderedMap.get?_merge_of_contains_eq_false row hKey]
    exact h.keyed
  · intro cell hCell
    rcases OrderedMap.mem_merge hCell with hNew | hOld
    · exact hTyped cell hNew
    · exact h.typed cell hOld

/-- A condition that compares the key column alone picks the row under this key. -/
theorem Space.Keeps.holds_column {space : Space} {key value : Value} {row : Record}
    (h : space.Keeps key row) :
    (Condition.column space.key value).holds row = decide (key = value) := by
  obtain ⟨name, rfl⟩ := h.isText
  rw [Bool.eq_iff_iff]
  simp only [Condition.holds, Condition.column, Condition.clauseHolds, List.all_cons,
    List.all_nil, Bool.and_true, h.keyed, Bool.and_eq_true, beq_iff_eq, Option.some.injEq,
    decide_eq_true_eq, and_iff_right_iff_imp]
  rintro rfl
  rfl

/-- No condition that compares the key with another value holds of a row. -/
theorem Space.Keeps.key_eq_of_holds {space : Space} {key value : Value} {row : Record}
    {condition : Condition} (h : space.Keeps key row)
    (hValue : condition.value? space.key = some value) (hHolds : condition.holds row = true) :
    key = value := by
  have hClause := List.all_eq_true.mp hHolds _ (OrderedMap.mem_of_lookup hValue)
  simp only [Condition.clauseHolds, h.keyed, Bool.and_eq_true, beq_iff_eq,
    Option.some.injEq] at hClause
  exact hClause.2

/-! ## Tables -/

namespace Memory

/-- An update leaves each row as it was, or with the fields written over it. -/
theorem mem_updateTable {table : Table} {key? : Option Value} {condition : Condition}
    {fields : Record} {entry : Value × Record}
    (h : entry ∈ (updateTable table key? condition fields).2.entries) :
    entry ∈ table.entries ∨
      ∃ row, (entry.1, row) ∈ table.entries ∧ entry.2 = row.merge fields := by
  -- Both ways of updating map the entries; they differ in which rows are changed.
  have hMapped : ∀ changed : Value × Record → Bool,
      entry ∈ table.entries.map
        (fun old => (old.1, if changed old then old.2.merge fields else old.2)) →
      entry ∈ table.entries ∨
        ∃ row, (entry.1, row) ∈ table.entries ∧ entry.2 = row.merge fields := by
    intro changed hEntry
    obtain ⟨old, hOld, rfl⟩ := List.mem_map.mp hEntry
    by_cases hChanged : changed old
    · exact Or.inr ⟨old.2, hOld, by simp [hChanged]⟩
    · exact Or.inl (by simpa [hChanged] using hOld)
  unfold updateTable at h
  split at h
  · next key =>
    split at h
    · split at h
      · exact hMapped (fun old => decide (old.1 = key)) (by simpa [OrderedMap.modify] using h)
      · exact Or.inl h
    · exact Or.inl h
  · exact hMapped (fun old => condition.holds old.2) h

theorem sorted_updateTable {table : Table} (h : table.Sorted) (key? : Option Value)
    (condition : Condition) (fields : Record) :
    (updateTable table key? condition fields).2.Sorted := by
  unfold updateTable
  split
  · split
    · split
      · exact OrderedMap.sorted_modify h _ _
      · exact h
    · exact h
  · exact OrderedMap.sorted_mapWhere h _ _

/-- **A store that represents a space.**  The table of the space is walked in key order, and
each row is kept under the key it has itself, with cells that fit. -/
structure Conforms (memory : Memory) (space : Space) : Prop where
  sorted : (memory.rows space).Sorted
  kept : ∀ entry ∈ (memory.rows space).entries, space.Keeps entry.1 entry.2

theorem conforms_empty (space : Space) : empty.Conforms space :=
  ⟨OrderedMap.sorted_empty, fun _ h => nomatch h⟩

namespace Conforms

variable {memory : Memory} {space : Space}

theorem of_rows_eq (h : memory.Conforms space) {other : Memory}
    (hRows : other.rows space = memory.rows space) : other.Conforms space :=
  ⟨by rw [hRows]; exact h.sorted, by rw [hRows]; exact h.kept⟩

theorem insert (h : memory.Conforms space) (hBuilt : space.Built) (record : Record) :
    (memory.insert space record).2.Conforms space := by
  unfold Memory.insert
  split
  · exact h
  · next key hAdmit =>
    by_cases hTaken : (memory.rows space).contains key
    · simpa [hTaken] using h
    · simp only [hTaken, Bool.false_eq_true, if_false]
      constructor
      · rw [rows_withTable]
        exact OrderedMap.sorted_insert h.sorted _ _
      · rw [rows_withTable]
        intro entry hEntry
        rcases OrderedMap.mem_insert hEntry with rfl | hOld
        · exact keeps_of_admitInsert hBuilt hAdmit
        · exact h.kept entry hOld

theorem update (h : memory.Conforms space) (condition : Condition) (fields : Record) :
    (memory.update space condition fields).2.Conforms space := by
  unfold Memory.update
  split
  · exact h
  · next hAdmit =>
    split
    · exact h
    · next table hTable =>
      have hRows := rows_of_table? hTable
      constructor
      · rw [rows_withTable]
        exact sorted_updateTable (hRows ▸ h.sorted) _ _ _
      · rw [rows_withTable]
        intro entry hEntry
        rcases mem_updateTable hEntry with hOld | ⟨row, hOld, hRow⟩
        · exact h.kept entry (hRows ▸ hOld)
        · rw [hRow]
          exact (h.kept _ (hRows ▸ hOld)).merge hAdmit

/-- **One row at most.**  A condition that fixes the key is checked on the row under this key
only.  No other row can satisfy it, so the table is changed, and the changes are counted, as
by a search. -/
theorem updateTable_key (h : memory.Conforms space) {condition : Condition} {key : Value}
    (hKey : condition.value? space.key = some key) (fields : Record) :
    updateTable (memory.rows space) (some key) condition fields
      = updateTable (memory.rows space) none condition fields := by
  have hKeyed : ∀ entry ∈ (memory.rows space).entries, condition.holds entry.2 = true →
      entry.1 = key :=
    fun entry hEntry hHolds => (h.kept entry hEntry).key_eq_of_holds hKey hHolds
  have hLookup : ∀ entry ∈ (memory.rows space).entries, entry.1 = key →
      (memory.rows space).get? key = some entry.2 := by
    rintro entry hEntry rfl
    exact (OrderedMap.get?_eq_some_iff_mem h.sorted entry.1 entry.2).mpr hEntry
  by_cases hPicked : ∃ row, (memory.rows space).get? key = some row ∧ condition.holds row = true
  · -- The row under the key satisfies the condition, and it is the only one that does.
    obtain ⟨row, hRow, hHolds⟩ := hPicked
    have hTest : ∀ entry ∈ (memory.rows space).entries,
        condition.holds entry.2 = decide (entry.1 = key) := by
      intro entry hEntry
      rw [Bool.eq_iff_iff, decide_eq_true_eq]
      refine ⟨hKeyed entry hEntry, fun hEntryKey => ?_⟩
      rw [hLookup entry hEntry hEntryKey] at hRow
      rwa [Option.some.inj hRow]
    have hOne := OrderedMap.values_filter_eq_toList h.sorted key condition.holds hTest
    simp [updateTable, hRow, hHolds, hOne, OrderedMap.mapWhere_eq_modify hTest]
  · -- No row satisfies it, and the table stays as it is.
    have hTest : ∀ entry ∈ (memory.rows space).entries, condition.holds entry.2 = false := by
      intro entry hEntry
      rw [Bool.eq_false_iff]
      exact fun hHolds =>
        hPicked ⟨entry.2, hLookup entry hEntry (hKeyed entry hEntry hHolds), hHolds⟩
    have hNone := OrderedMap.values_filter_of_forall_eq_false hTest
    have hStays := OrderedMap.mapWhere_of_forall_eq_false hTest fun row => row.merge fields
    cases hRow : (memory.rows space).get? key with
    | none => simp [updateTable, hRow, hNone, hStays]
    | some row =>
        have hFails : condition.holds row = false :=
          Bool.eq_false_iff.mpr fun hHolds => hPicked ⟨row, hRow, hHolds⟩
        simp [updateTable, hRow, hFails, hNone, hStays]

/-- **One way of updating.**  Whatever a condition says of the key, the table is changed, and the
changes are counted, as by a search through all rows. -/
theorem updateTable_scan (h : memory.Conforms space) (condition : Condition) (fields : Record) :
    updateTable (memory.rows space) (condition.value? space.key) condition fields
      = updateTable (memory.rows space) none condition fields := by
  cases hKey : condition.value? space.key with
  | none => rfl
  | some key => exact h.updateTable_key hKey fields

/-- An update that is let in changes and counts the rows that satisfy its condition. -/
theorem update_eq (h : memory.Conforms space) {fields : Record}
    (hAdmit : admitUpdate space fields = .ok ()) (condition : Condition) :
    ∃ memory' : Memory,
      memory.update space condition fields = (.ok (memory.count space condition), memory') ∧
      memory'.rows space
        = (memory.rows space).mapWhere condition.holds fun row => row.merge fields := by
  have hScan := h.updateTable_scan condition fields
  cases hTable : memory.table? space with
  | none =>
      have hRows : memory.rows space = ∅ := by simp [rows, hTable]
      refine ⟨memory, ?_, by rw [hRows]; rfl⟩
      simp only [Memory.update, hAdmit, hTable, count, search, hRows]
      rfl
  | some table =>
      have hRows := rows_of_table? hTable
      refine ⟨memory.withTable space _, ?_, rows_withTable _ _ _⟩
      simp only [Memory.update, hAdmit, hTable, ← hRows, hScan]
      rfl

end Conforms
end Memory

/-! ## Runs of calls -/

/-- The space that a call is about. -/
def Call.space? : Call → Option Space
  | mode | health => none
  | ensure space => some space
  | count space _ => some space
  | search space _ => some space
  | insert space _ => some space
  | update space _ _ => some space

/-- A call about a space, about a table of another name or about no table at all. -/
def Call.Respects (call : Call) (space : Space) : Prop :=
  ∀ other, call.space? = some other → other = space ∨ other.fullName ≠ space.fullName

namespace Memory

namespace Conforms

variable {memory : Memory} {space : Space}

/-- Every call, answered or rejected, keeps what is kept. -/
theorem perform (h : memory.Conforms space) (hBuilt : space.Built) {call : Call}
    (hCall : call.Respects space) : (memory.perform call).2.Conforms space := by
  cases call with
  | mode => exact h
  | health => exact h
  | ensure other => exact h.of_rows_eq (rows_ensure memory other space)
  | count other condition => exact h
  | search other condition => exact h
  | insert other record =>
      rcases hCall other rfl with rfl | hOther
      · exact h.insert hBuilt record
      · exact h.of_rows_eq (rows_insert_of_ne memory record hOther.symm)
  | update other condition fields =>
      rcases hCall other rfl with rfl | hOther
      · exact h.update condition fields
      · exact h.of_rows_eq (rows_update_of_ne memory condition fields hOther.symm)

theorem performAll (h : memory.Conforms space) (hBuilt : space.Built) {calls : List Call}
    (hCalls : ∀ call ∈ calls, call.Respects space) :
    (memory.performAll calls).2.Conforms space := by
  induction calls generalizing memory with
  | nil => exact h
  | cons call rest ih =>
      exact ih (h.perform hBuilt (hCalls call List.mem_cons_self))
        fun later hLater => hCalls later (List.mem_cons_of_mem _ hLater)

/-- A key finds one row at most. -/
theorem count_column_le_one (h : memory.Conforms space) (key : Value) :
    memory.count space (.column space.key key) ≤ 1 := by
  have hTest : ∀ entry ∈ (memory.rows space).entries,
      (Condition.column space.key key).holds entry.2 = decide (entry.1 = key) :=
    fun entry hEntry => (h.kept entry hEntry).holds_column
  rw [count, search, OrderedMap.values_filter_eq_toList h.sorted key _ hTest]
  cases (memory.rows space).get? key <;> simp

/-- Rows are found in the order of their own keys. -/
theorem search_increasing (h : memory.Conforms space) (condition : Condition) :
    (memory.search space condition).Pairwise fun a b =>
      ∃ first second : String, a.get? space.key = some (.text first) ∧
        b.get? space.key = some (.text second) ∧ first < second := by
  refine List.Pairwise.filter _ (List.pairwise_map.mpr ?_)
  refine ((OrderedMap.sorted_iff_pairwise _).mp h.sorted).imp_of_mem ?_
  intro a b ha hb hLess
  obtain ⟨first, hFirst⟩ := (h.kept a ha).isText
  obtain ⟨second, hSecond⟩ := (h.kept b hb).isText
  refine ⟨first, second, hFirst ▸ (h.kept a ha).keyed, hSecond ▸ (h.kept b hb).keyed, ?_⟩
  rw [hFirst, hSecond] at hLess
  exact (compareOfLessAndEq_eq_lt).mp hLess

end Conforms

/-- **What a memory store keeps.**  After any calls on a space, whatever they say and whether
they are answered or rejected, every row is kept under the text in its own key column and has
cells that fit.  So a key is counted once at most, rows are found in the order of their keys,
and as many are counted as are found. -/
theorem conforms_performAll {space : Space} (hBuilt : space.Built) {calls : List Call}
    (hCalls : ∀ call ∈ calls, call.Respects space) :
    let memory := (empty.performAll calls).2
    memory.Conforms space ∧
      (∀ key, ∃ n ≤ 1,
        memory.perform (.count space (.column space.key key)) = (.ok (.number n), memory)) ∧
      ∀ condition, ∃ rows,
        memory.perform (.search space condition) = (.ok (.records rows), memory) ∧
        (rows.Pairwise fun a b =>
          ∃ first second : String, a.get? space.key = some (.text first) ∧
            b.get? space.key = some (.text second) ∧ first < second) ∧
        memory.perform (.count space condition) = (.ok (.number rows.length), memory) := by
  intro memory
  have hConforms : memory.Conforms space := (conforms_empty space).performAll hBuilt hCalls
  refine ⟨hConforms, fun key => ?_, fun condition => ?_⟩
  · exact ⟨_, hConforms.count_column_le_one key, rfl⟩
  · exact ⟨_, rfl, hConforms.search_increasing condition, rfl⟩

/-- A table of counters after a first row, a second one under the same key, a row without a
key, a count set to nothing and a key that is written over. -/
theorem conforms_performAll_counters :
    let space := (Space.keyed "db" "counters" "name").withColumn "n" .int
    ∃ memory : Memory,
      (empty.performAll
        [.ensure space, .insert space (.ofList [("name", .text "a"), ("n", .int 1)]),
          .insert space (.ofList [("name", .text "a"), ("n", .int 2)]),
          .insert space (.ofList [("n", .int 3)]),
          .update space .always (.ofList [("n", .null)]),
          .update space .always (.ofList [("name", .text "b")])]).2 = memory ∧
      memory.Conforms space ∧
      memory.search space .always = [.ofList [("name", .text "a"), ("n", .null)]] := by
  intro space
  have hCalls : ∀ call ∈
      [Call.ensure space, .insert space (.ofList [("name", .text "a"), ("n", .int 1)]),
        .insert space (.ofList [("name", .text "a"), ("n", .int 2)]),
        .insert space (.ofList [("n", .int 3)]),
        .update space .always (.ofList [("n", .null)]),
        .update space .always (.ofList [("name", .text "b")])], call.Respects space := by
    intro call hCall other hOther
    refine Or.inl ?_
    simp only [List.mem_cons, List.not_mem_nil, or_false] at hCall
    rcases hCall with rfl | rfl | rfl | rfl | rfl | rfl <;> exact (Option.some.inj hOther).symm
  exact ⟨_, rfl, (conforms_performAll ((Space.Built.keyed _ _ _).withColumn _ _) hCalls).1,
    by decide⟩

end Memory
end Leasehold
