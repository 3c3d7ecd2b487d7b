import Leasehold.Lock.Attempt
import Leasehold.Proofs.Store.Representation

/-!
# Calls on one key

The calls of attempts, renewals and lookups are all about one key of one table.  To such a call a
memory store is the record under this key and nothing else: the answer depends on this record
alone, and no other record is changed.

* `Memory.record?`: the record that a store keeps under a text.
* `Call.IsOn`: a call about one key.
* `Call.answerOn`, `Call.recordAfter`: what such a call does to a record.
* `Memory.Conforms.perform_eq`: it does this to the record of its key, and nothing else.
* `Claimant.isOn_of_attempt` and its like: whose calls they are.
-/

namespace Leasehold

namespace Memory

/-- The record that a table keeps under a text. -/
def record? (memory : Memory) (space : Space) (name : String) : Option Record :=
  (memory.rows space).get? (.text name)

theorem lockRow?_eq_of_record? {memory other : Memory} {space : Space} {name : String}
    (h : memory.record? space name = other.record? space name) :
    memory.lockRow? space name = other.lockRow? space name := by
  unfold record? at h
  rw [lockRow?, h, lockRow?]

end Memory

namespace Call

/-- **Calls about one key** of a space: they look at its row, insert a first one, or update it on
some further condition. -/
def IsOn (space : Space) (name : String) : Call → Prop
  | mode | health | ensure _ => False
  | count other condition => other = space ∧ condition = .column space.key (.text name)
  | search other condition => other = space ∧ condition = .column space.key (.text name)
  | insert other record => other = space ∧ record.get? space.key = some (.text name)
  | update other condition _ => other = space ∧ condition.value? space.key = some (.text name)

/-- What is answered to such a call, given the record of the key. -/
def answerOn (record? : Option Record) : Call → Reply
  | mode | health | ensure _ => .ok .done
  | count _ _ => .ok (.number record?.toList.length)
  | search _ _ => .ok (.records record?.toList)
  | insert space record =>
    match Memory.admitInsert space record with
    | .error error => .error error
    | .ok _ => .ok (.number (if record?.isSome then 0 else 1))
  | update space condition fields =>
    match Memory.admitUpdate space fields with
    | .error error => .error error
    | .ok () => .ok (.number (if record?.any condition.holds then 1 else 0))

/-- The record of the key after such a call. -/
def recordAfter (record? : Option Record) : Call → Option Record
  | mode | health | ensure _ | count _ _ | search _ _ => record?
  | insert space record =>
    match Memory.admitInsert space record with
    | .error _ => record?
    | .ok _ => some (record?.getD record)
  | update space condition fields =>
    match Memory.admitUpdate space fields with
    | .error _ => record?
    | .ok () =>
      record?.map fun record => if condition.holds record then record.merge fields else record

theorem IsOn.respects {space : Space} {name : String} {call : Call} (h : call.IsOn space name) :
    call.Respects space := by
  intro other hOther
  cases call with
  | mode => cases hOther
  | health => cases hOther
  | ensure found => exact h.elim
  | count found condition => exact .inl ((Option.some.inj hOther).symm.trans h.1)
  | search found condition => exact .inl ((Option.some.inj hOther).symm.trans h.1)
  | insert found record => exact .inl ((Option.some.inj hOther).symm.trans h.1)
  | update found condition fields => exact .inl ((Option.some.inj hOther).symm.trans h.1)

end Call

namespace Memory

/-! ## What a call about one key does -/

/-- The record under one key is as given, and every other record of the space as it was. -/
def ChangesRecord (memory next : Memory) (space : Space) (name : String)
    (record? : Option Record) : Prop :=
  ∀ other, next.record? space other
    = if other = name then record? else memory.record? space other

variable {memory next : Memory} {space : Space} {name : String} {call : Call}

namespace ChangesRecord

theorem refl (memory : Memory) (space : Space) (name : String) :
    memory.ChangesRecord memory space name (memory.record? space name) := by
  intro other
  split
  · next hOther => rw [hOther]
  · rfl

variable {record? : Option Record}

theorem self (h : memory.ChangesRecord next space name record?) :
    next.record? space name = record? :=
  (h name).trans (if_pos rfl)

theorem of_ne (h : memory.ChangesRecord next space name record?) {other : String}
    (hOther : other ≠ name) : next.record? space other = memory.record? space other :=
  (h other).trans (if_neg hOther)

end ChangesRecord

theorem changesRecord_insert (memory : Memory) (space : Space) (name : String)
    (record : Record) :
    memory.ChangesRecord
      (memory.withTable space ((memory.rows space).insert (.text name) record)) space name
      (some record) := by
  intro other
  rw [record?, rows_withTable]
  split
  · next hOther =>
    rw [hOther]
    exact OrderedMap.get?_insert_self _ _ _
  · next hOther => exact OrderedMap.get?_insert_of_ne _ _ (by simpa using hOther)

theorem changesRecord_modify (memory : Memory) (space : Space) (name : String)
    (change : Record → Record) :
    memory.ChangesRecord
      (memory.withTable space ((memory.rows space).modify (.text name) change)) space name
      ((memory.record? space name).map change) := by
  intro other
  rw [record?, rows_withTable]
  split
  · next hOther =>
    rw [hOther]
    exact OrderedMap.get?_modify_self _ _ _
  · next hOther => exact OrderedMap.get?_modify_of_ne _ _ (by simpa using hOther)

/-- A table that is written back as it was keeps its records. -/
theorem changesRecord_rows (memory : Memory) {space : Space} {table : Table}
    (h : memory.rows space = table) (name : String) :
    memory.ChangesRecord (memory.withTable space table) space name
      (memory.record? space name) := by
  intro other
  rw [← ChangesRecord.refl memory space name other, record?, rows_withTable, record?, h]

/-- An insertion is an operation on the record of its key. -/
theorem insert_eq_on (memory : Memory) {record : Record}
    (hKey : record.get? space.key = some (.text name)) :
    ∃ next, memory.perform (.insert space record)
        = ((Call.insert space record).answerOn (memory.record? space name), next) ∧
      memory.ChangesRecord next space name
        ((Call.insert space record).recordAfter (memory.record? space name)) := by
  have hContains : (memory.rows space).contains (.text name)
      = (memory.record? space name).isSome := rfl
  cases hAdmit : admitInsert space record with
  | error error =>
      refine ⟨memory, ?_, ?_⟩
      · simp only [perform, insert, hAdmit, Call.answerOn]
        rfl
      · simp only [Call.recordAfter, hAdmit]
        exact .refl memory space name
  | ok key =>
      obtain rfl : key = .text name := by
        unfold admitInsert keyOf? at hAdmit
        rw [hKey] at hAdmit
        split at hAdmit
        · cases hAdmit
        · exact (Except.ok.inj hAdmit).symm
      cases hRecord : memory.record? space name with
      | some old =>
          refine ⟨memory, ?_, ?_⟩
          · simp only [perform, insert, hAdmit, hContains, hRecord, Call.answerOn]
            rfl
          · have hRefl := ChangesRecord.refl memory space name
            rw [hRecord] at hRefl
            simp only [Call.recordAfter, hAdmit, Option.getD_some]
            exact hRefl
      | none =>
          refine ⟨memory.withTable space ((memory.rows space).insert (.text name) record), ?_, ?_⟩
          · simp only [perform, insert, hAdmit, hContains, hRecord, Call.answerOn]
            rfl
          · simp only [Call.recordAfter, hAdmit, Option.getD_none]
            exact changesRecord_insert memory space name record

/-- So is an update whose condition names its key. -/
theorem update_eq_on (memory : Memory) {condition : Condition} (fields : Record)
    (hKey : condition.value? space.key = some (.text name)) :
    ∃ next, memory.perform (.update space condition fields)
        = ((Call.update space condition fields).answerOn (memory.record? space name), next) ∧
      memory.ChangesRecord next space name
        ((Call.update space condition fields).recordAfter (memory.record? space name)) := by
  cases hAdmit : admitUpdate space fields with
  | error error =>
      refine ⟨memory, ?_, ?_⟩
      · simp only [perform, update, hAdmit, Call.answerOn]
        rfl
      · simp only [Call.recordAfter, hAdmit]
        exact .refl memory space name
  | ok admitted =>
      cases hTable : memory.table? space with
      | none =>
          have hNone : memory.record? space name = none := by
            rw [record?, rows, hTable]
            rfl
          refine ⟨memory, ?_, ?_⟩
          · simp only [perform, update, hAdmit, hTable, Call.answerOn, hNone]
            rfl
          · have hRefl := ChangesRecord.refl memory space name
            rw [hNone] at hRefl
            simp only [Call.recordAfter, hAdmit, hNone, Option.map_none]
            exact hRefl
      | some table =>
          have hRows := rows_of_table? hTable
          have hGet : table.get? (.text name) = memory.record? space name := by
            rw [record?, hRows]
          cases hRecord : memory.record? space name with
          | none =>
              refine ⟨memory.withTable space table, ?_, ?_⟩
              · simp only [perform, update, hAdmit, hTable, hKey, Call.answerOn, updateTable, hGet,
                  hRecord]
                rfl
              · have hSame := changesRecord_rows memory hRows name
                rw [hRecord] at hSame
                simp only [Call.recordAfter, hAdmit, Option.map_none]
                exact hSame
          | some record =>
              cases hHolds : condition.holds record with
              | false =>
                  refine ⟨memory.withTable space table, ?_, ?_⟩
                  · simp only [perform, update, hAdmit, hTable, hKey, Call.answerOn, updateTable,
                      hGet, hRecord, hHolds, Option.any_some]
                    rfl
                  · have hSame := changesRecord_rows memory hRows name
                    rw [hRecord] at hSame
                    simp only [Call.recordAfter, hAdmit, Option.map_some, hHolds,
                      Bool.false_eq_true, if_false]
                    exact hSame
              | true =>
                  refine ⟨memory.withTable space
                    (table.modify (.text name) fun row => row.merge fields), ?_, ?_⟩
                  · simp only [perform, update, hAdmit, hTable, hKey, Call.answerOn, updateTable,
                      hGet, hRecord, hHolds, Option.any_some]
                    rfl
                  · have hChange := changesRecord_modify memory space name (·.merge fields)
                    rw [hRows, hRecord] at hChange
                    simp only [Call.recordAfter, hAdmit, Option.map_some, hHolds, if_true]
                    exact hChange

/-- A search for a key finds the record that is kept under it. -/
theorem Conforms.search_column (h : memory.Conforms space) (name : String) :
    memory.search space (.column space.key (.text name)) = (memory.record? space name).toList :=
  OrderedMap.values_filter_eq_toList h.sorted (.text name) _
    fun entry hEntry => (h.kept entry hEntry).holds_column

/-- **A call about one key is an operation on its record.**  What is answered and what becomes of
the record depend on this record alone, and no other record of the space is changed. -/
theorem Conforms.perform_eq (h : memory.Conforms space) (hCall : call.IsOn space name) :
    ∃ next, memory.perform call = (call.answerOn (memory.record? space name), next) ∧
      memory.ChangesRecord next space name (call.recordAfter (memory.record? space name)) := by
  cases call with
  | mode => exact hCall.elim
  | health => exact hCall.elim
  | ensure other => exact hCall.elim
  | count other condition =>
      obtain ⟨rfl, rfl⟩ := hCall
      refine ⟨memory, ?_, .refl memory _ name⟩
      rw [Memory.perform, Memory.count, h.search_column]
      rfl
  | search other condition =>
      obtain ⟨rfl, rfl⟩ := hCall
      refine ⟨memory, ?_, .refl memory _ name⟩
      rw [Memory.perform, h.search_column]
      rfl
  | insert other record =>
      obtain ⟨rfl, hKey⟩ := hCall
      exact memory.insert_eq_on hKey
  | update other condition fields =>
      obtain ⟨rfl, hKey⟩ := hCall
      exact memory.update_eq_on fields hKey

end Memory

/-! ## Whose calls they are -/

namespace Claimant

variable {claimant : Claimant} {database table : String} {call : Call}

theorem isOn_of_attempt {attempt : Attempt}
    (hSpace : attempt.claimant.space = lockSpace database table)
    (h : attempt.request? = some (.call call)) :
    call.IsOn (lockSpace database table) attempt.claimant.name := by
  cases hStage : attempt.stage with
  | counting | inserting | searching | replacing =>
      simp only [Attempt.request?, hStage, hSpace, Option.some.injEq, Request.call.injEq] at h
      subst h
      exact ⟨rfl, rfl⟩
  | _ => simp [Attempt.request?, hStage] at h

theorem isOn_of_renewal {renewal : Renewal}
    (hSpace : renewal.claimant.space = lockSpace database table)
    (h : renewal.request? = some (.call call)) :
    call.IsOn (lockSpace database table) renewal.claimant.name := by
  cases hStage : renewal.stage with
  | writing now =>
      simp only [Renewal.request?, hStage, hSpace, Option.some.injEq, Request.call.injEq] at h
      subst h
      exact ⟨rfl, rfl⟩
  | _ => simp [Renewal.request?, hStage] at h

theorem isOn_of_lookup {lookup : Lookup}
    (hSpace : lookup.claimant.space = lockSpace database table)
    (h : lookup.request? = some (.call call)) :
    call.IsOn (lockSpace database table) lookup.claimant.name := by
  cases hResult : lookup.result? with
  | none =>
      simp only [Lookup.request?, hResult, hSpace, Option.some.injEq, Request.call.injEq] at h
      subst h
      exact ⟨rfl, rfl⟩
  | some result => simp [Lookup.request?, hResult] at h

end Claimant
end Leasehold
