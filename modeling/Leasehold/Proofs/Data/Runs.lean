import Mathlib.Data.List.Induction

/-!
# Runs

A system that moves from state to state by events has runs: lists of events, each of which
can happen in the state that the earlier ones have left.

* `runs?`: the state after a run; `none` if one of its events cannot happen.
* `runs?_snoc`: a run ends with its last event.
* `runs?_induction`: what every event keeps, every run keeps.
* `Occurs`: one event of a run, with the states before and after it.
* `Occurs.trans`: an event of what follows an event of a run is an event of the run.
* `Occurs.order`: of two events of one run one comes first, unless they are the same.
* `trace`: the events of a run in their order, each with the states before and after it.
* `changes`: when a view of the state changes in a run, and to what.
-/

namespace Leasehold

variable {σ : Type} {ε : Type}

/-- The state after a run of events. -/
def runs? (step? : σ → ε → Option σ) (start : σ) : List ε → Option σ
  | [] => some start
  | event :: rest => (step? start event).bind fun next => runs? step? next rest

theorem runs?_append (step? : σ → ε → Option σ) (start : σ) (first second : List ε) :
    runs? step? start (first ++ second)
      = (runs? step? start first).bind fun next => runs? step? next second := by
  induction first generalizing start with
  | nil => rfl
  | cons event rest ih =>
      simp only [List.cons_append, runs?]
      cases step? start event with
      | none => rfl
      | some next => exact ih next

theorem runs?_snoc (step? : σ → ε → Option σ) (start : σ) (events : List ε) (event : ε) :
    runs? step? start (events ++ [event])
      = (runs? step? start events).bind fun next => step? next event := by
  rw [runs?_append]
  congr 1
  funext next
  simp only [runs?]
  cases step? next event <;> rfl

/-- **Induction over runs.**  What holds in the beginning and is kept by every event holds
after every run. -/
theorem runs?_induction {step? : σ → ε → Option σ} {start : σ} {motive : List ε → σ → Prop}
    (hNil : motive [] start)
    (hSnoc : ∀ events state event next, runs? step? start events = some state →
      motive events state → step? state event = some next → motive (events ++ [event]) next)
    {events : List ε} {state : σ} (hRun : runs? step? start events = some state) :
    motive events state := by
  induction events using List.reverseRecOn generalizing state with
  | nil =>
      obtain rfl : start = state := Option.some.inj hRun
      exact hNil
  | append_singleton events event ih =>
      rw [runs?_snoc] at hRun
      obtain ⟨before, hBefore, hStep⟩ := Option.bind_eq_some_iff.mp hRun
      exact hSnoc events before event state hBefore (ih hBefore) hStep

/-! ## The events of a run -/

/-- **An event of a run.**  After the events `early` the system is at `before`; the event
takes it to `after`, and the events `late` are still to come. -/
structure Occurs (step? : σ → ε → Option σ) (start : σ) (events early : List ε) (event : ε)
    (late : List ε) (before after : σ) : Prop where
  split : events = early ++ event :: late
  run : runs? step? start early = some before
  step : step? before event = some after

namespace Occurs

variable {step? : σ → ε → Option σ} {start before after state : σ} {events early late : List ε}
  {event : ε}

/-- What happens after a run is the last event of the longer run. -/
theorem last (hRun : runs? step? start events = some before)
    (hStep : step? before event = some after) :
    Occurs step? start (events ++ [event]) events event [] before after :=
  ⟨rfl, hRun, hStep⟩

/-- Every place of a run is one of its events. -/
theorem exists_of_run (hSplit : events = early ++ event :: late)
    (hRun : runs? step? start events = some state) :
    ∃ before after, Occurs step? start events early event late before after := by
  rw [hSplit, runs?_append] at hRun
  obtain ⟨before, hBefore, hRest⟩ := Option.bind_eq_some_iff.mp hRun
  obtain ⟨after, hStep, -⟩ := Option.bind_eq_some_iff.mp hRest
  exact ⟨before, after, hSplit, hBefore, hStep⟩

/-- The events of a run are events of every longer one. -/
theorem append (h : Occurs step? start events early event late before after) (more : List ε) :
    Occurs step? start (events ++ more) early event (late ++ more) before after :=
  ⟨by rw [h.split, List.append_assoc, List.cons_append], h.run, h.step⟩

theorem run_after (h : Occurs step? start events early event late before after) :
    runs? step? start (early ++ [event]) = some after := by
  rw [runs?_snoc, h.run]
  exact h.step

/-- The rest of the run begins where the event has led to. -/
theorem rest (h : Occurs step? start events early event late before after)
    (hRun : runs? step? start events = some state) : runs? step? after late = some state := by
  rw [h.split, runs?_append, h.run] at hRun
  simpa only [Option.bind_some, runs?, h.step] using hRun

/-- The event and the rest of the run happen where the earlier ones have led to. -/
theorem rest_before (h : Occurs step? start events early event late before after)
    (hRun : runs? step? start events = some state) :
    runs? step? before (event :: late) = some state := by
  rw [h.split, runs?_append, h.run] at hRun
  exact hRun

/-- An event of the rest of a run is an event of the run. -/
theorem trans (h : Occurs step? start events early event late before after) {pre post : List ε}
    {other : ε} {earlier later : σ}
    (hRest : Occurs step? after late pre other post earlier later) :
    Occurs step? start events (early ++ event :: pre) other post earlier later := by
  refine ⟨?_, ?_, hRest.step⟩
  · rw [h.split, hRest.split, List.append_assoc, List.cons_append]
  · rw [runs?_append, h.run]
    simpa only [Option.bind_some, runs?, h.step] using hRest.run

/-- The part of a run between an event and a later one. -/
theorem between (h : Occurs step? start events early event late before after)
    {pre post middle : List ε} {other : ε} {earlier later : σ}
    (hOther : Occurs step? start events pre other post earlier later)
    (hMiddle : pre = early ++ event :: middle) :
    Occurs step? after late middle other post earlier later := by
  refine ⟨?_, ?_, hOther.step⟩
  · have hEvents := h.split.symm.trans hOther.split
    rw [hMiddle, List.append_assoc, List.cons_append] at hEvents
    exact (List.cons.inj (List.append_cancel_left hEvents)).2
  · have hRun := hOther.run
    rw [hMiddle, runs?_append, h.run] at hRun
    simpa only [Option.bind_some, runs?, h.step] using hRun

/-- After the same events a run goes on in one way. -/
theorem eq_of_early (h : Occurs step? start events early event late before after)
    {post : List ε} {other : ε} {earlier later : σ}
    (hOther : Occurs step? start events early other post earlier later) :
    event = other ∧ before = earlier ∧ after = later := by
  obtain ⟨rfl, -⟩ := List.cons.inj (List.append_cancel_left (h.split.symm.trans hOther.split))
  obtain rfl : before = earlier := Option.some.inj (h.run.symm.trans hOther.run)
  exact ⟨rfl, rfl, Option.some.inj (h.step.symm.trans hOther.step)⟩

/-- **One event after the other.**  Two events of one run are the same, or one of them
comes first. -/
theorem order (h : Occurs step? start events early event late before after)
    {pre post : List ε} {other : ε} {earlier later : σ}
    (hOther : Occurs step? start events pre other post earlier later) :
    (event = other ∧ before = earlier ∧ after = later) ∨
      (∃ middle, pre = early ++ event :: middle) ∨ ∃ middle, early = pre ++ other :: middle := by
  rcases List.append_eq_append_iff.mp (h.split.symm.trans hOther.split) with
    ⟨middle, hPre, hRest⟩ | ⟨middle, hEarly, hRest⟩
  · cases middle with
    | nil =>
        obtain rfl : pre = early := hPre.trans (List.append_nil _)
        exact .inl (h.eq_of_early hOther)
    | cons first middle =>
        obtain ⟨rfl, -⟩ := List.cons.inj hRest
        exact .inr (.inl ⟨middle, hPre⟩)
  · cases middle with
    | nil =>
        obtain rfl : early = pre := hEarly.trans (List.append_nil _)
        exact .inl (h.eq_of_early hOther)
    | cons first middle =>
        obtain ⟨rfl, -⟩ := List.cons.inj hRest
        exact .inr (.inr ⟨middle, hEarly⟩)

end Occurs

/-! ## Traces -/

/-- The events of a run in their order, each with the states before and after it. -/
def trace (step? : σ → ε → Option σ) (start : σ) : List ε → List (σ × ε × σ)
  | [] => []
  | event :: rest =>
    match step? start event with
    | none => []
    | some next => (start, event, next) :: trace step? next rest

/-- One more event comes last. -/
theorem trace_snoc {step? : σ → ε → Option σ} {start before after : σ} {events : List ε}
    {event : ε} (hRun : runs? step? start events = some before)
    (hStep : step? before event = some after) :
    trace step? start (events ++ [event])
      = trace step? start events ++ [(before, event, after)] := by
  induction events generalizing start with
  | nil =>
      obtain rfl : start = before := Option.some.inj hRun
      simp only [List.nil_append, trace, hStep]
  | cons first rest ih =>
      obtain ⟨next, hFirst, hRest⟩ := Option.bind_eq_some_iff.mp hRun
      simp only [List.cons_append, trace, hFirst, ih hRest]

/-- What is in the trace of a run are its events. -/
theorem exists_occurs_of_mem_trace {step? : σ → ε → Option σ} {start before after : σ}
    {events : List ε} {event : ε} (h : (before, event, after) ∈ trace step? start events) :
    ∃ early late, Occurs step? start events early event late before after := by
  induction events generalizing start with
  | nil => cases h
  | cons first rest ih =>
      simp only [trace] at h
      split at h
      · cases h
      · next next hFirst =>
        rcases List.mem_cons.mp h with hHead | hRest
        · obtain ⟨rfl, hPair⟩ := Prod.mk.inj hHead
          obtain ⟨rfl, rfl⟩ := Prod.mk.inj hPair
          exact ⟨[], rest, rfl, rfl, hFirst⟩
        · obtain ⟨early, late, hOccurs⟩ := ih hRest
          refine ⟨first :: early, late, ?_, ?_, hOccurs.step⟩
          · rw [hOccurs.split, List.cons_append]
          · simp only [runs?, hFirst, Option.bind_some, hOccurs.run]

/-! ## What is seen of a run -/

section

variable {τ α : Type} [DecidableEq α]

/-- What an event changes of a view of the state, with the time. -/
def change? (clock : σ → τ) (view : σ → α) (before after : σ) : Option (τ × α) :=
  if view after = view before then none else some (clock after, view after)

theorem change?_of_eq {clock : σ → τ} {view : σ → α} {before after : σ}
    (h : view after = view before) : change? clock view before after = none :=
  if_pos h

/-- The changes of a view of the state in a run, in their order, with their times. -/
def changes (step? : σ → ε → Option σ) (clock : σ → τ) (view : σ → α) (start : σ)
    (events : List ε) : List (τ × α) :=
  (trace step? start events).filterMap fun (before, _, after) => change? clock view before after

/-- A run that begins with an event shows the change of this event first. -/
theorem changes_cons {step? : σ → ε → Option σ} {start next : σ} {event : ε}
    (clock : σ → τ) (view : σ → α) (rest : List ε) (h : step? start event = some next) :
    changes step? clock view start (event :: rest)
      = (change? clock view start next).toList ++ changes step? clock view next rest := by
  cases hChange : change? clock view start next with
  | none => simp only [changes, trace, h, List.filterMap_cons, hChange, Option.toList_none,
      List.nil_append]
  | some change => simp only [changes, trace, h, List.filterMap_cons, hChange,
      Option.toList_some, List.singleton_append]

/-- One more event shows its change last. -/
theorem changes_snoc {step? : σ → ε → Option σ} {start before after : σ} {events : List ε}
    {event : ε} (clock : σ → τ) (view : σ → α) (hRun : runs? step? start events = some before)
    (hStep : step? before event = some after) :
    changes step? clock view start (events ++ [event])
      = changes step? clock view start events ++ (change? clock view before after).toList := by
  rw [changes, trace_snoc hRun hStep, List.filterMap_append, changes]
  congr 1

end

end Leasehold
