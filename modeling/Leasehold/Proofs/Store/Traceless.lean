import Leasehold.Proofs.Store.Isolation

/-!
# Calls without a trace

A memory store creates tables when they are needed and looks them up otherwise.  Nobody can tell a
table that was not created from one without rows, and a call that is answered with an error, or that
writes no row, leaves every answer to later calls as it was.

* `Memory.Alike`: stores with the same rows in every table.
* `Memory.Alike.perform`, `Memory.Alike.performAll`: they answer alike, now and later.
* `Call.IsDeclined`: a reply that says that nothing was written.
* `Memory.alike_perform_of_isDeclined`: then nothing was written.
* `Memory.answersBeside`: the answers in a run of calls with more tables ensured in between.
* `Memory.declined_and_ensured_traceless`: neither leaves a trace in any other answer.
-/

namespace Leasehold

namespace Memory

variable {memory other : Memory}

/-! ## Stores that answer alike -/

/-- **Stores with the same rows** in every table; one that was not created has none. -/
def Alike (memory other : Memory) : Prop := ∀ space, memory.rows space = other.rows space

namespace Alike

theorem refl (memory : Memory) : memory.Alike memory := fun _ => rfl

/-- One call: the same reply, and the same rows afterwards. -/
theorem perform (h : memory.Alike other) (call : Call) :
    (memory.perform call).1 = (other.perform call).1 ∧
      (memory.perform call).2.Alike (other.perform call).2 := by
  cases hSpace : call.space? with
  | none =>
      cases call with
      | mode => exact ⟨rfl, h⟩
      | health => exact ⟨rfl, h⟩
      | _ => cases hSpace
  | some space =>
      obtain ⟨hReply, hRows⟩ := perform_at hSpace (h space)
      refine ⟨hReply, fun reader => ?_⟩
      by_cases hName : reader.fullName = space.fullName
      · rw [rows_eq_of_fullName_eq _ hName, rows_eq_of_fullName_eq _ hName, hRows]
      · have hApart : call.IsApart reader := by
          intro found hFound
          obtain rfl := Option.some.inj (hSpace.symm.trans hFound)
          exact Ne.symm hName
        rw [rows_perform_of_isApart memory hApart, rows_perform_of_isApart other hApart, h reader]

/-- Any calls: the same replies. -/
theorem performAll (h : memory.Alike other) (calls : List Call) :
    (memory.performAll calls).1 = (other.performAll calls).1 := by
  induction calls generalizing memory other with
  | nil => rfl
  | cons call rest ih =>
      obtain ⟨hReply, hNext⟩ := h.perform call
      simp only [Memory.performAll, hReply, ih hNext]

end Alike

/-- Creating a table without rows shows nowhere. -/
theorem alike_ensure (memory : Memory) (space : Space) : (memory.ensure space).Alike memory :=
  rows_ensure memory space

end Memory

/-! ## Declined calls -/

/-- **A reply that nothing was written**: an error to whatever call, or no row to a call that writes
rows. -/
def Call.IsDeclined (call : Call) : Reply → Prop
  | .error _ => True
  | .ok answer => call.written?.isSome = true ∧ answer = .number 0

namespace Memory

/-- An update that affects no row leaves the table as it was. -/
theorem updateTable_of_none {table : Table} {key? : Option Value} {condition : Condition}
    {fields : Record} (h : (updateTable table key? condition fields).1 = 0) :
    (updateTable table key? condition fields).2 = table := by
  cases key? with
  | some key =>
      unfold updateTable at h ⊢
      simp only at h ⊢
      split
      · next row hRow =>
        split
        · next hHolds => simp [hRow, hHolds] at h
        · rfl
      · rfl
  | none =>
      have hNone : ∀ entry ∈ table.entries, condition.holds entry.2 = false := by
        intro entry hEntry
        have hRows : table.values.filter condition.holds = [] := List.length_eq_zero_iff.mp h
        exact Bool.eq_false_iff.mpr
          (List.filter_eq_nil_iff.mp hRows entry.2 (List.mem_map_of_mem hEntry))
      exact OrderedMap.mapWhere_of_forall_eq_false hNone fun row => row.merge fields

/-- A declined update, of a table that is there or is not, changes no row. -/
theorem alike_update (memory : Memory) {space : Space} {condition : Condition} {fields : Record}
    (h : (Call.update space condition fields).IsDeclined
      (memory.perform (.update space condition fields)).1) :
    (memory.perform (.update space condition fields)).2.Alike memory := by
  intro reader
  by_cases hName : reader.fullName = space.fullName
  · rw [rows_eq_of_fullName_eq _ hName, rows_eq_of_fullName_eq _ hName]
    cases hAdmit : admitUpdate space fields with
    | error error => simp only [perform, update, hAdmit]
    | ok admitted =>
        obtain ⟨hReply, hRows⟩ := memory.update_eq_of_admitted condition hAdmit
        simp only [perform, hReply] at h ⊢
        rw [hRows]
        exact updateTable_of_none (Answer.number.inj h.2)
  · exact rows_update_of_ne memory condition fields hName

/-- **A declined call writes nothing.** -/
theorem alike_perform_of_isDeclined (memory : Memory) {call : Call}
    (h : call.IsDeclined (memory.perform call).1) : (memory.perform call).2.Alike memory := by
  cases call with
  | mode => exact .refl memory
  | health => exact .refl memory
  | ensure space => exact alike_ensure memory space
  | count space condition => exact .refl memory
  | search space condition => exact .refl memory
  | insert space record =>
      simp only [perform, insert] at h ⊢
      split
      · exact .refl memory
      · next key hAdmit =>
        -- A key that is not taken is answered with a row.
        split
        · exact .refl memory
        · next hFree =>
          simp only [hAdmit, hFree] at h
          cases h.2
  | update space condition fields => exact memory.alike_update h

/-! ## Tables ensured in between -/

/-- A run of calls with spaces in between: the calls of it, and the creation of a table wherever a
space stands. -/
def ensuring (entries : List (Space ⊕ Call)) : List Call := entries.map (Sum.elim .ensure id)

/-- The calls of such a run alone. -/
def unensured (entries : List (Space ⊕ Call)) : List Call := entries.filterMap Sum.getRight?

/-- The replies to these calls, in their order, when the tables in between are created too. -/
def answersBeside (memory : Memory) (entries : List (Space ⊕ Call)) : List Reply :=
  ((entries.zip (memory.performAll (ensuring entries)).1).filter fun pair => pair.1.isRight).map
    Prod.snd

theorem answersBeside_cons_space (memory : Memory) (space : Space)
    (entries : List (Space ⊕ Call)) :
    memory.answersBeside (.inl space :: entries)
      = (memory.ensure space).answersBeside entries := rfl

theorem answersBeside_cons_call (memory : Memory) (call : Call)
    (entries : List (Space ⊕ Call)) :
    memory.answersBeside (.inr call :: entries)
      = (memory.perform call).1 :: (memory.perform call).2.answersBeside entries := rfl

/-- Tables that are ensured anywhere change no answer to the other calls. -/
theorem answersBeside_eq {memory other : Memory} (h : memory.Alike other)
    (entries : List (Space ⊕ Call)) :
    memory.answersBeside entries = (other.performAll (unensured entries)).1 := by
  induction entries generalizing memory other with
  | nil => rfl
  | cons entry entries ih =>
      cases entry with
      | inl space =>
          rw [answersBeside_cons_space]
          exact ih fun reader => (alike_ensure memory space reader).trans (h reader)
      | inr call =>
          obtain ⟨hReply, hNext⟩ := h.perform call
          rw [answersBeside_cons_call, hReply, ih hNext]
          rfl

/-- **No trace.**  Whatever a store holds, a call that is answered with an error, or an insertion or
an update that is answered with no row, changes no reply to any later calls.  Tables ensured
anywhere in a run of calls change no reply to the others.  So a table without rows that was created
cannot be told from one that was not. -/
theorem declined_and_ensured_traceless (memory : Memory) :
    (∀ call : Call, call.IsDeclined (memory.perform call).1 → ∀ later,
      ((memory.perform call).2.performAll later).1 = (memory.performAll later).1) ∧
    (∀ entries, memory.answersBeside entries = (memory.performAll (unensured entries)).1) ∧
    ∀ space, memory.table? space = none → ∀ later,
      ((memory.withTable space ∅).performAll later).1 = (memory.performAll later).1 := by
  refine ⟨fun call hDeclined => (memory.alike_perform_of_isDeclined hDeclined).performAll,
    answersBeside_eq (.refl memory), fun space hMissing => ?_⟩
  have hEnsured : memory.ensure space = memory.withTable space ∅ := by rw [ensure, hMissing]
  rw [← hEnsured]
  exact (alike_ensure memory space).performAll

/-- A record without a key, a row under a key that is taken, and an update of another table, which
is ensured later: each of them is declined, and the row of the first call is still the only one. -/
theorem declined_and_ensured_traceless_counters :
    let space := (Space.keyed "db" "counters" "name").withColumn "n" .int
    let missing := (Space.keyed "db" "others" "name").withColumn "n" .int
    let row : Call := .insert space (.ofList [("name", .text "a"), ("n", .int 1)])
    let memory := (empty.perform row).2
    let keyless : Call := .insert space (.ofList [("n", .int 2)])
    let taken : Call := .insert space (.ofList [("name", .text "a"), ("n", .int 3)])
    let unmatched : Call := .update missing .always (.ofList [("n", .int 4)])
    (keyless.IsDeclined (memory.perform keyless).1 ∧
      ∀ later, ((memory.perform keyless).2.performAll later).1 = (memory.performAll later).1) ∧
    (taken.IsDeclined (memory.perform taken).1 ∧
      ∀ later, ((memory.perform taken).2.performAll later).1 = (memory.performAll later).1) ∧
    (unmatched.IsDeclined (memory.perform unmatched).1 ∧
      ∀ later, ((memory.perform unmatched).2.performAll later).1 = (memory.performAll later).1) ∧
    memory.answersBeside [.inl missing, .inr unmatched, .inl space, .inr (.count missing .always)]
      = [.ok (.number 0), .ok (.number 0)] ∧
    ∀ later, ((memory.withTable missing ∅).performAll later).1 = (memory.performAll later).1 := by
  intro space missing row memory keyless taken unmatched
  obtain ⟨hDeclined, hBeside, hMissing⟩ := declined_and_ensured_traceless memory
  have hKeyless : keyless.IsDeclined (memory.perform keyless).1 := trivial
  have hTaken : taken.IsDeclined (memory.perform taken).1 := ⟨rfl, rfl⟩
  have hUnmatched : unmatched.IsDeclined (memory.perform unmatched).1 := ⟨rfl, rfl⟩
  exact ⟨⟨hKeyless, hDeclined _ hKeyless⟩, ⟨hTaken, hDeclined _ hTaken⟩,
    ⟨hUnmatched, hDeclined _ hUnmatched⟩, (hBeside _).trans rfl, hMissing missing rfl⟩

end Memory
end Leasehold
