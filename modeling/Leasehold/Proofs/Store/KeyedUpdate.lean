import Leasehold.Proofs.Store.Representation

/-!
# Updates by key

An update whose condition compares the key column looks one row up and trusts the key under which
the table keeps it; every other update goes through all rows.  The condition may compare the key
more than once, with values that contradict each other, with a value of another kind or with
nothing, and the lookup sees only the first of these comparisons.  Both ways come to the same:
the fields are written over the rows that satisfy the condition, and over no others.

* `Space.Keeps.eq_text_of_holds`: what a condition that holds of a row can say of the key.
* `Memory.Conforms.update_unsatisfiable`: a condition that says anything else changes nothing.
* `Memory.Conforms.update_again`: rows that carry the fields already stay as they are.
* `Memory.update_eq_scan`: an update, whatever its condition says of the key.
-/

namespace Leasehold

/-- **What can be said of the key.**  Every comparison of the key column in a condition that holds
of a row is with the text under which the row is kept. -/
theorem Space.Keeps.eq_text_of_holds {space : Space} {key value : Value} {row : Record}
    {condition : Condition} (h : space.Keeps key row) (hHolds : condition.holds row = true)
    (hClause : (space.key, value) ∈ condition.clauses) : value = key := by
  have hOne := List.all_eq_true.mp hHolds _ hClause
  simp only [Condition.clauseHolds, h.keyed, Bool.and_eq_true, beq_iff_eq, Option.some.injEq]
    at hOne
  exact hOne.2.symm

/-- A condition contradicts itself on the key: it compares the key with two values, or with
something that is no text. -/
def Condition.Contradicts (condition : Condition) (key : String) : Prop :=
  ∃ a b, (key, a) ∈ condition.clauses ∧ (key, b) ∈ condition.clauses ∧
    (a ≠ b ∨ a.kind? ≠ some .text)

namespace Memory
namespace Conforms

variable {memory : Memory} {space : Space}

/-- No row satisfies a condition that contradicts itself on the key. -/
theorem holds_eq_false (h : memory.Conforms space) {condition : Condition}
    (hContradicts : condition.Contradicts space.key) :
    ∀ entry ∈ (memory.rows space).entries, condition.holds entry.2 = false := by
  obtain ⟨a, b, hFirst, hSecond, hCases⟩ := hContradicts
  intro entry hEntry
  refine Bool.eq_false_iff.mpr fun hHolds => ?_
  have hKept := h.kept entry hEntry
  obtain rfl := hKept.eq_text_of_holds hHolds hFirst
  obtain rfl := hKept.eq_text_of_holds hHolds hSecond
  rcases hCases with hValues | hKind
  · exact hValues rfl
  · obtain ⟨name, hText⟩ := hKept.isText
    rw [hText] at hKind
    exact hKind rfl

/-- **Nothing to update.**  Under a condition that contradicts itself on the key nothing is
written. -/
theorem update_unsatisfiable (h : memory.Conforms space) {fields : Record}
    (hAdmit : admitUpdate space fields = .ok ()) {condition : Condition}
    (hContradicts : condition.Contradicts space.key) :
    (memory.update space condition fields).1 = .ok 0 ∧
      (memory.update space condition fields).2.rows space = memory.rows space := by
  have hNone := h.holds_eq_false hContradicts
  obtain ⟨memory', hUpdate, hRows⟩ := h.update_eq hAdmit condition
  rw [hUpdate]
  refine ⟨?_, ?_⟩
  · rw [count, search, OrderedMap.values_filter_of_forall_eq_false hNone]
    rfl
  · rw [hRows]
    exact OrderedMap.mapWhere_of_forall_eq_false hNone _

/-- **Nothing new.**  An update under a condition that only rows satisfy which carry the fields
already counts these rows and leaves every table as it is. -/
theorem update_again (h : memory.Conforms space) {fields : Record}
    (hAdmit : admitUpdate space fields = .ok ()) {condition : Condition}
    (hCarries : ∀ row ∈ (memory.rows space).values, condition.holds row = true →
      row.merge fields = row) :
    (memory.update space condition fields).1 = .ok (memory.count space condition) ∧
      ∀ other, (memory.update space condition fields).2.table? other = memory.table? other := by
  obtain ⟨memory', hUpdate, -⟩ := h.update_eq hAdmit condition
  refine ⟨by rw [hUpdate], fun other => ?_⟩
  have hSame : (memory.rows space).mapWhere condition.holds (fun row => row.merge fields)
      = memory.rows space := by
    unfold OrderedMap.mapWhere
    congr 1
    refine (List.map_congr_left fun entry hEntry => ?_).trans (List.map_id _)
    by_cases hHolds : condition.holds entry.2 = true
    · simp [hHolds, hCarries entry.2 (List.mem_map_of_mem hEntry) hHolds]
    · simp [hHolds]
  cases hTable : memory.table? space with
  | none => simp only [Memory.update, hAdmit, hTable]
  | some table =>
      have hScan := h.updateTable_scan condition fields
      rw [rows_of_table? hTable] at hSame hScan
      have hStays :
          (updateTable table (condition.value? space.key) condition fields).2 = table := by
        rw [hScan]
        exact hSame
      simp only [Memory.update, hAdmit, hTable, hStays]
      by_cases hName : other.fullName = space.fullName
      · rw [table?, withTable, hName, OrderedMap.get?_insert_self]
        rw [table?, ← hName] at hTable
        exact hTable.symm
      · exact OrderedMap.get?_insert_of_ne _ _ hName

end Conforms

/-- **An update, whatever its condition says of the key.**  Take any calls on a space, any condition
and any fields that an update lets in.  Looking the key up and going through all rows come to the
same.  The reply is the number of rows that satisfied the condition; the fields, which win over what
was there, are written over exactly these rows, and every other row and every other table is as it
was.  A condition that contradicts itself on the key changes nothing, and neither do the same fields
once more, under any condition that among the rows of the table only the changed ones satisfy. -/
theorem update_eq_scan {space : Space} (hBuilt : space.Built) {calls : List Call}
    (hCalls : ∀ call ∈ calls, call.Respects space) (condition : Condition) {fields : Record}
    (hAdmit : admitUpdate space fields = .ok ()) :
    let memory := (empty.performAll calls).2
    let table := memory.rows space
    let reply := (memory.update space condition fields).1
    let next := (memory.update space condition fields).2
    updateTable table (condition.value? space.key) condition fields
        = updateTable table none condition fields ∧
      reply = .ok (table.values.filter condition.holds).length ∧
      (next.rows space).entries = table.entries.map (fun (key, row) =>
        (key, if condition.holds row then row.merge fields else row)) ∧
      (fields.Sorted → ∀ (row : Record) (column : String),
        (row.merge fields).get? column = (fields.get? column).or (row.get? column)) ∧
      (∀ other : Space, other.fullName ≠ space.fullName →
        next.rows other = memory.rows other) ∧
      (condition.Contradicts space.key → reply = .ok 0 ∧ next.rows space = table) ∧
      ∀ again : Condition,
        (∀ row ∈ table.values, condition.holds row = false → again.holds row = false) →
        (next.update space again fields).1 = .ok (next.count space again) ∧
          ∀ other, (next.update space again fields).2.table? other = next.table? other := by
  intro memory table reply next
  have hConforms : memory.Conforms space := (conforms_empty space).performAll hBuilt hCalls
  obtain ⟨memory', hUpdate, hRows⟩ := hConforms.update_eq hAdmit condition
  have hNext : next = memory' := congrArg Prod.snd hUpdate
  rw [← hNext] at hRows
  refine ⟨hConforms.updateTable_scan condition fields, congrArg Prod.fst hUpdate,
    congrArg OrderedMap.entries hRows,
    fun hSorted row column => OrderedMap.get?_merge hSorted row column,
    fun other hOther => rows_update_of_ne memory condition fields hOther,
    fun hContradicts => hConforms.update_unsatisfiable hAdmit hContradicts, fun again hAgain => ?_⟩
  refine (hConforms.update condition fields).update_again hAdmit fun row hRow hHolds => ?_
  rw [show (memory.update space condition fields).2.rows space = _ from hRows] at hRow
  obtain ⟨_, hEntry, rfl⟩ := List.mem_map.mp hRow
  obtain ⟨entry, hOld, rfl⟩ := List.mem_map.mp hEntry
  simp only at hHolds ⊢
  -- A row that was not changed does not satisfy the second condition.
  cases hChanged : condition.holds entry.2 with
  | true =>
      rw [if_pos rfl]
      exact OrderedMap.merge_merge_self entry.2 fields
  | false =>
      rw [hChanged, if_neg Bool.false_ne_true,
        hAgain entry.2 (List.mem_map_of_mem hOld) hChanged] at hHolds
      cases hHolds

/-- Two counters, an update of one of them, and an update that asks for both names at once. -/
theorem update_eq_scan_counters :
    let space := (Space.keyed "db" "counters" "name").withColumn "n" .int
    let calls : List Call :=
      [.insert space (.ofList [("name", .text "a"), ("n", .int 1)]),
        .insert space (.ofList [("name", .text "b"), ("n", .int 1)])]
    let fields : Record := .ofList [("n", .int 2)]
    let one := (Condition.column "n" (.int 1)).and "name" (.text "b")
    let both := (Condition.column "name" (.text "a")).and "name" (.text "b")
    let memory := (empty.performAll calls).2
    space.Built ∧ (∀ call ∈ calls, call.Respects space) ∧ admitUpdate space fields = .ok () ∧
      (memory.update space one fields).1 = .ok 1 ∧
      (memory.update space one fields).2.search space .always
        = [.ofList [("name", .text "a"), ("n", .int 1)],
          .ofList [("name", .text "b"), ("n", .int 2)]] ∧
      both.Contradicts space.key ∧ (memory.update space both fields).1 = .ok 0 := by
  intro space calls fields one both memory
  have hBuilt : space.Built := (Space.Built.keyed _ _ _).withColumn _ _
  have hCalls : ∀ call ∈ calls, call.Respects space := by
    intro call hCall other hOther
    refine Or.inl ?_
    simp only [calls, List.mem_cons, List.not_mem_nil, or_false] at hCall
    rcases hCall with rfl | rfl <;> exact (Option.some.inj hOther).symm
  have hAdmit : admitUpdate space fields = .ok () := by rfl
  have hBoth : both.Contradicts space.key :=
    ⟨.text "a", .text "b", by decide, by decide, .inl (by decide)⟩
  obtain ⟨-, hOne, hRows, -⟩ := update_eq_scan hBuilt hCalls one hAdmit
  obtain ⟨-, -, -, -, -, hNone, -⟩ := update_eq_scan hBuilt hCalls both hAdmit
  refine ⟨hBuilt, hCalls, hAdmit, hOne.trans (congrArg Except.ok (by decide)), ?_, hBoth,
    (hNone hBoth).1⟩
  rw [search, OrderedMap.values, hRows]
  decide

end Memory
end Leasehold
