import Leasehold.Proofs.Fleet.FreeTime
import Leasehold.Proofs.Manager.Acquisition

/-!
# One task of a fleet

Every event of a fleet is, for one of its tasks, a move of this task, or time that passes while it
rests, or something that leaves it alone.  So a task of a fleet is on time, and its pursuit of a
lock has the same account as in a session.

* `Fleet.Bears`: all that an event can be to a task; `Fleet.bears_of_step?` shows it.
* `Fleet.goes_of_step?`: what can become of a task of a fleet.
* `Fleet.pursuit`: what is seen of it in a run.
* `Fleet.Legal.served_attempt`: the call of an attempt of a task, served.
-/

namespace Leasehold

namespace Manager

theorem shutDown_run (manager : Manager) (name : String) (interval : IntervalClass) :
    (manager.run name interval).2.1.shutDown = manager.shutDown := by
  unfold run
  split
  · rfl
  · split
    · rfl
    · split <;> rfl

/-- A registration leaves the cycles that are there alone. -/
theorem getElem?_cycles_run {manager : Manager} {id : Nat} {cycle : Cycle}
    (hCycle : manager.cycles[id]? = some cycle) (name : String) (interval : IntervalClass) :
    (manager.run name interval).2.1.cycles[id]? = some cycle := by
  obtain ⟨hBound, -⟩ := List.getElem?_eq_some_iff.mp hCycle
  unfold run
  split
  · exact hCycle
  · split
    · exact hCycle
    · split
      · exact hCycle
      · exact (List.getElem?_append_left hBound).trans hCycle

end Manager

namespace Fleet

variable {fleet next : Fleet} {event : Event} {node id : Nat} {manager : Manager} {cycle : Cycle}

/-! ## What an event is to a task -/

/-- **All that an event can be to a task**: a move of the task, time that passes while it rests, or
something that leaves it alone. -/
inductive Bears (fleet next : Fleet) (event : Event) (node id : Nat) (manager : Manager)
    (cycle : Cycle) : Prop where
  | own {act : Act} (hEvent : event = .move node id act)
      (hAct : fleet.act? node id manager cycle act = some next)
  | passed {nanos : Nat} (hEvent : event = .pass nanos) (hRests : fleet.rests nanos = true)
      (hNext : next = { fleet with now := fleet.now + nanos })
  | other {after : Manager} (hEvent : ∀ act, event ≠ .move node id act)
      (hManager : next.managers[node]? = some after) (hCycle : after.cycles[id]? = some cycle)
      (hOptions : after.options = manager.options)
      (hFlag : manager.shutDown = true → after.shutDown = true)
      (hDown : event ≠ .raiseFlag node → after.shutDown = manager.shutDown)
      (hNow : next.now = fleet.now)

/-- Time passes only by itself. -/
theorem Step.now (hStep : Step fleet event next) (hEvent : ∀ nanos, event ≠ .pass nanos) :
    next.now = fleet.now := by
  cases hStep with
  | pass nanos => exact absurd rfl (hEvent nanos)
  | _ => rfl

/-- What happens to one manager leaves a task alone, if it is another manager or leaves the task
alone there. -/
theorem bears_of_set {target : Nat} {old new : Manager} (hStep : fleet.step? event = some next)
    (hPass : ∀ nanos, event ≠ .pass nanos) (hEvent : ∀ act, event ≠ .move node id act)
    (hManager : fleet.managers[node]? = some manager) (hCycle : manager.cycles[id]? = some cycle)
    (hOld : fleet.managers[target]? = some old)
    (hManagers : next.managers = fleet.managers.set target new)
    (hOptions : new.options = old.options) (hFlag : old.shutDown = true → new.shutDown = true)
    (hDown : event ≠ .raiseFlag target → new.shutDown = old.shutDown)
    (hNew : target = node → old.cycles[id]? = some cycle → new.cycles[id]? = some cycle) :
    Bears fleet next event node id manager cycle := by
  have hNow := (step_of_step? hStep).now hPass
  obtain ⟨hBound, -⟩ := List.getElem?_eq_some_iff.mp hOld
  by_cases hTarget : target = node
  -- The event concerns the manager of the task, and `hNew` says that it spares the task.
  · subst hTarget
    obtain rfl := Option.some.inj (hManager.symm.trans hOld)
    have hAfter : next.managers[target]? = some new := by
      rw [hManagers, List.getElem?_set_self hBound]
    exact .other hEvent hAfter (hNew rfl hCycle) hOptions hFlag hDown hNow
  · have hAfter : next.managers[node]? = some manager := by
      rw [hManagers, List.getElem?_set_ne hTarget, hManager]
    exact .other hEvent hAfter hCycle rfl (fun hUp => hUp) (fun _ => rfl) hNow

/-- A move of another task leaves the task alone. -/
theorem bears_of_move {target number : Nat} {act : Act}
    (hStep : fleet.step? (.move target number act) = some next)
    (hManager : fleet.managers[node]? = some manager)
    (hCycle : manager.cycles[id]? = some cycle) :
    Bears fleet next (.move target number act) node id manager cycle := by
  have hMoved := hStep
  simp only [step?] at hMoved
  split at hMoved
  · next old hOld =>
    split at hMoved
    · next found hFound =>
      by_cases hOwn : target = node ∧ number = id
      · obtain ⟨rfl, rfl⟩ := hOwn
        obtain rfl := Option.some.inj (hManager.symm.trans hOld)
        obtain rfl := Option.some.inj (hCycle.symm.trans hFound)
        exact .own rfl hMoved
      · have hOther : ∀ act', Event.move target number act ≠ .move node id act' := by
          rintro act' hEq
          obtain ⟨hNode, hId, -⟩ := Event.move.inj hEq
          exact hOwn ⟨hNode, hId⟩
        -- The manager moves another of its cycles, if it is the manager of the task at all.
        obtain ⟨draw, stimulus, hManagers, hSuits⟩ := exists_suits_of_act? hMoved
        obtain ⟨moved, hMoves⟩ : ∃ moved, old.Moves
            (old.step number ⟨fleet.now, draw⟩ stimulus).1 number found ⟨fleet.now, draw⟩
            stimulus moved := Manager.exists_moves_of_suits hFound hSuits
        refine bears_of_set hStep (by simp) hOther hManager hCycle hOld hManagers hMoves.options
          (fun hUp => hMoves.shutDown.trans hUp) (fun _ => hMoves.shutDown) fun hTarget hHere => ?_
        rw [hMoves.getElem?_cycles_of_ne fun hNumber => hOwn ⟨hTarget, hNumber⟩]
        exact hHere
    · cases hMoved
  · cases hMoved

/-- **Whatever happens, it is one of these to a task.** -/
theorem bears_of_step? (hStep : fleet.step? event = some next)
    (hManager : fleet.managers[node]? = some manager)
    (hCycle : manager.cycles[id]? = some cycle) : Bears fleet next event node id manager cycle := by
  have hKeep := hStep
  cases event with
  | move target number act => exact bears_of_move hStep hManager hCycle
  | prepare target =>
      obtain ⟨other, hOther, rfl⟩ := Option.map_eq_some_iff.mp hStep
      exact .other (by simp) hManager hCycle rfl (fun hUp => hUp) (fun _ => rfl) rfl
  | register target name interval =>
      obtain ⟨old, hOld, rfl⟩ := Option.map_eq_some_iff.mp hStep
      have hFlag := old.shutDown_run name interval
      have hOptions := old.options_run name interval
      exact bears_of_set hKeep (by simp) (by simp) hManager hCycle hOld rfl hOptions
        (fun hUp => hFlag.trans hUp) (fun _ => hFlag)
        fun _ hHere => Manager.getElem?_cycles_run hHere name interval
  | raiseFlag target =>
      simp only [step?] at hStep
      split at hStep
      · next old hOld =>
        split at hStep
        · cases hStep
        · obtain rfl := Option.some.inj hStep
          exact bears_of_set hKeep (by simp) (by simp) hManager hCycle hOld rfl rfl (fun _ => rfl)
            (fun hNot => absurd rfl hNot) fun _ hHere => hHere
      · cases hStep
  | cancelRegistered target =>
      simp only [step?] at hStep
      split at hStep
      · next old hOld =>
        split at hStep
        · obtain rfl := Option.some.inj hStep
          exact bears_of_set hKeep (by simp) (by simp) hManager hCycle hOld rfl rfl (fun hUp => hUp)
            (fun _ => rfl) fun _ hHere => hHere
        · cases hStep
      · cases hStep
  | pass nanos =>
      simp only [step?] at hStep
      split at hStep
      · next hRests =>
        obtain rfl := Option.some.inj hStep
        exact .passed rfl hRests rfl
      · cases hStep

/-- A task that rests while time passes is over, or its pause is not, and it is not told to
leave. -/
theorem rests_cases {nanos : Nat} (hRests : fleet.rests nanos = true)
    (hManager : fleet.managers[node]? = some manager)
    (hCycle : manager.cycles[id]? = some cycle) :
    cycle.phase.need = .finished ∨ ∃ due, cycle.phase.need = .pause due ∧
      manager.shutDown = false ∧ fleet.now + nanos ≤ due := by
  have hAll := List.all_eq_true.mp hRests manager (List.mem_of_getElem? hManager)
  have hRest := List.all_eq_true.mp hAll cycle (List.mem_of_getElem? hCycle)
  unfold cycleRests at hRest
  split at hRest
  · next hNeed => exact .inl hNeed
  · next due hNeed =>
    rw [Bool.and_eq_true, Bool.not_eq_true', decide_eq_true_eq] at hRest
    exact .inr ⟨due, hNeed, hRest.1, hRest.2⟩
  · cases hRest

/-! ## The task as it is found -/

/-- A task of the fleet as it is found. -/
def standing? (fleet : Fleet) (node id : Nat) : Option Standing :=
  fleet.managers[node]?.bind fun manager =>
    manager.cycles[id]?.map fun cycle => ⟨fleet.now, manager.shutDown, cycle⟩

theorem standing?_eq_some_iff {standing : Standing} :
    fleet.standing? node id = some standing ↔
      ∃ manager cycle, fleet.managers[node]? = some manager ∧ manager.cycles[id]? = some cycle ∧
        standing = ⟨fleet.now, manager.shutDown, cycle⟩ := by
  simp only [standing?, Option.bind_eq_some_iff, Option.map_eq_some_iff]
  constructor
  · rintro ⟨manager, hManager, cycle, hCycle, rfl⟩
    exact ⟨manager, cycle, hManager, hCycle, rfl⟩
  · rintro ⟨manager, cycle, hManager, hCycle, rfl⟩
    exact ⟨manager, hManager, cycle, hCycle, rfl⟩

theorem standing?_of_cycle (hManager : fleet.managers[node]? = some manager)
    (hCycle : manager.cycles[id]? = some cycle) :
    fleet.standing? node id = some ⟨fleet.now, manager.shutDown, cycle⟩ :=
  standing?_eq_some_iff.mpr ⟨manager, cycle, hManager, hCycle, rfl⟩

/-- A task that moves is given what it waits for. -/
theorem exists_moves_of_act? {act : Act} (hManager : fleet.managers[node]? = some manager)
    (hCycle : manager.cycles[id]? = some cycle)
    (hAct : fleet.act? node id manager cycle act = some next) :
    ∃ draw stimulus moved, next.now = fleet.now ∧
      next.managers[node]? = some (manager.step id ⟨fleet.now, draw⟩ stimulus).1 ∧
      (manager.step id ⟨fleet.now, draw⟩ stimulus).1.cycles[id]? = some moved ∧
      stimulus.suits fleet.now manager.shutDown cycle.phase.need = true ∧
      manager.Moves (manager.step id ⟨fleet.now, draw⟩ stimulus).1 id cycle ⟨fleet.now, draw⟩
        stimulus moved := by
  obtain ⟨hBound, -⟩ := List.getElem?_eq_some_iff.mp hManager
  obtain ⟨hCycleBound, -⟩ := List.getElem?_eq_some_iff.mp hCycle
  obtain ⟨draw, stimulus, hManagers, hSuits⟩ := exists_suits_of_act? hAct
  obtain ⟨moved, hMoves⟩ : ∃ moved, manager.Moves
      (manager.step id ⟨fleet.now, draw⟩ stimulus).1 id cycle ⟨fleet.now, draw⟩ stimulus moved :=
    Manager.exists_moves_of_suits hCycle hSuits
  refine ⟨draw, stimulus, moved, (step_of_act? hManager hCycle hAct).now (by simp), ?_, ?_, hSuits,
    hMoves⟩
  · rw [hManagers, List.getElem?_set_self hBound]
  · rw [hMoves.cycles, List.getElem?_set_self hCycleBound]

/-- **What can become of a task of a fleet.** -/
theorem goes_of_step? (hStep : fleet.step? event = some next) {before : Standing}
    (hBefore : fleet.standing? node id = some before) :
    ∃ after, next.standing? node id = some after ∧ before.Goes after := by
  obtain ⟨manager, cycle, hManager, hCycle, rfl⟩ := standing?_eq_some_iff.mp hBefore
  cases bears_of_step? hStep hManager hCycle with
  | own hEvent hAct =>
      obtain ⟨draw, stimulus, moved, hNow, hAfter, hMoved, hSuits, hMoves⟩ :=
        exists_moves_of_act? hManager hCycle hAct
      refine ⟨_, standing?_of_cycle hAfter hMoved, ?_⟩
      rw [hNow]
      exact .of_moves hCycle hSuits hMoves
  | passed hEvent hRests hNext =>
      subst hNext
      exact ⟨_, standing?_of_cycle hManager hCycle,
        .passed (rests_cases hRests hManager hCycle) (Nat.le_add_right _ _) rfl rfl⟩
  | other hEvent hAfter hSame hOptions hFlag hDown hNow =>
      exact ⟨_, standing?_of_cycle hAfter hSame, .kept hNow hFlag rfl⟩

theorem run?_snoc {start : Fleet} {events : List Event} (hRun : start.run? events = some fleet)
    (hStep : fleet.step? event = some next) : start.run? (events ++ [event]) = some next := by
  rw [run?] at hRun ⊢
  rw [runs?_snoc, hRun]
  exact hStep

/-- What a run shows of a task in pursuit of its lock. -/
def pursuit (start : Fleet) (node id : Nat) (events : List Event) : Pursuit :=
  .along step? (·.standing? node id) start events

/-! ## The calls of a task -/

/-- A task that waits for an answer is served, or its call fails. -/
theorem act?_of_answer {act : Act} {call : Call} (hNeed : cycle.phase.need = .answer call)
    (hAct : fleet.act? node id manager cycle act = some next) :
    next = fleet.served node id manager cycle call ∨ ∃ error, act = .fail error := by
  cases act <;> simp only [act?, hNeed, reduceCtorEq, Option.some.injEq] at hAct
  · exact .inl hAct.symm
  · exact .inr ⟨_, rfl⟩

/-- A task that waits for the time reads the clock. -/
theorem act?_of_time {act : Act} (hNeed : cycle.phase.need = .time)
    (hAct : fleet.act? node id manager cycle act = some next) :
    ∃ reading, fleet.reading? = some reading ∧
      next = fleet.stepped node id manager 0 (.response (.time reading)) := by
  cases act <;> simp only [act?, hNeed, reduceCtorEq] at hAct
  obtain ⟨reading, hReading, rfl⟩ := Option.map_eq_some_iff.mp hAct
  exact ⟨reading, hReading, rfl⟩

/-- A task that waits for no answer leaves the rows alone. -/
theorem lockRow?_of_act? {act : Act} (hNeed : ∀ call, cycle.phase.need ≠ .answer call)
    (hAct : fleet.act? node id manager cycle act = some next) (name : String) :
    next.lockRow? name = fleet.lockRow? name := by
  unfold act? at hAct
  split at hAct
  · obtain rfl := Option.some.inj hAct
    rfl
  · obtain ⟨reading, -, rfl⟩ := Option.map_eq_some_iff.mp hAct
    rfl
  · next call hAnswer => exact absurd hAnswer (hNeed call)
  · next error call hAnswer => exact absurd hAnswer (hNeed call)
  · split at hAct
    · obtain rfl := Option.some.inj hAct
      rfl
    · cases hAct
  · split at hAct
    · obtain rfl := Option.some.inj hAct
      rfl
    · cases hAct
  · cases hAct

/-- **The call of an attempt of a task, served**: the row is as the attempt leaves it, and the task
goes on from there. -/
theorem Legal.served_attempt (hLegal : fleet.Legal) {attempt : Attempt} {call : Call}
    (hManager : fleet.managers[node]? = some manager) (hCycle : manager.cycles[id]? = some cycle)
    (hPhase : cycle.phase = .attempting attempt)
    (hRequest : attempt.request? = some (.call call)) :
    (fleet.served node id manager cycle call).lockRow? cycle.name
        = attempt.rowAfter (fleet.lockRow? cycle.name) ∧
      ∃ reply, attempt.nextStage (.reply reply) = attempt.stageAfter (fleet.lockRow? cycle.name) ∧
        (fleet.served node id manager cycle call).managers
          = fleet.managers.set node
            (manager.step id ⟨fleet.now, 0⟩ (.response (.reply reply))).1 := by
  obtain ⟨hClaimant, -⟩ :=
    hLegal.attempts node id manager.options cycle attempt (Legal.cycle? hManager hCycle) hPhase
  have hName : attempt.claimant.name = cycle.name := by rw [hClaimant]
  have hSpace : attempt.claimant.space = fleet.space := by
    rw [hClaimant]
    exact hLegal.spaces _ (List.mem_map_of_mem (List.mem_of_getElem? hManager))
  have hRow : fleet.memory.lockRow? fleet.space attempt.claimant.name
      = fleet.lockRow? cycle.name := by rw [hName, lockRow?]
  obtain ⟨reply, memory', hPerform, hChange, hStage, -⟩ :=
    Attempt.perform_eq hSpace hLegal.locks hRow hRequest
  rw [hName] at hChange
  constructor
  · show (fleet.served node id manager cycle call).memory.lockRow? fleet.space cycle.name = _
    rw [served, hPerform]
    exact hChange.lockRow?_self
  · refine ⟨reply, hStage, ?_⟩
    rw [served, hPerform]
    rfl

/-- **What the store or the clock does to an attempt**: the stage after it, and the row. -/
inductive Answered (fleet next : Fleet) (name : String) (attempt : Attempt) :
    Attempt.Stage → Prop where
  | timed {reading : Instant} (hRequest : attempt.request? = some .time)
      (hReading : fleet.reading? = some reading)
      (hRow : next.lockRow? name = fleet.lockRow? name) :
      Answered fleet next name attempt (attempt.nextStage (.time reading))
  | served {call : Call} (hRequest : attempt.request? = some (.call call))
      (hRow : next.lockRow? name = attempt.rowAfter (fleet.lockRow? name)) :
      Answered fleet next name attempt (attempt.stageAfter (fleet.lockRow? name))

/-- A task whose attempt has not ended moves when it is answered, unless the call fails. -/
theorem Legal.answered_of_act? (hLegal : fleet.Legal) {attempt : Attempt} {act : Act}
    (hManager : fleet.managers[node]? = some manager) (hCycle : manager.cycles[id]? = some cycle)
    (hPhase : cycle.phase = .attempting attempt) (hAsks : attempt.result? = none)
    (hFail : ∀ error, act ≠ .fail error)
    (hAct : fleet.act? node id manager cycle act = some next) :
    ∃ stage, Answered fleet next cycle.name attempt stage ∧
      ∃ after, next.managers[node]? = some after ∧ after.options = manager.options ∧
        after.shutDown = manager.shutDown ∧
        after.cycles[id]?
          = some { cycle with phase := .attempting { attempt with stage := stage } } := by
  obtain ⟨hBound, -⟩ := List.getElem?_eq_some_iff.mp hManager
  obtain ⟨hCycleBound, -⟩ := List.getElem?_eq_some_iff.mp hCycle
  have hResumed : ∀ response stage, attempt.nextStage response = stage →
      next.managers = fleet.managers.set node
        (manager.step id ⟨fleet.now, 0⟩ (.response response)).1 →
      ∃ after, next.managers[node]? = some after ∧ after.options = manager.options ∧
        after.shutDown = manager.shutDown ∧
        after.cycles[id]?
          = some { cycle with phase := .attempting { attempt with stage := stage } } := by
    rintro response stage rfl hManagers
    have hMoves := Manager.moves_of_attempting hCycle hPhase ⟨fleet.now, 0⟩ response
    have hAfter : next.managers[node]?
        = some (manager.step id ⟨fleet.now, 0⟩ (.response response)).1 := by
      rw [hManagers, List.getElem?_set_self hBound]
    refine ⟨_, hAfter, hMoves.options, hMoves.shutDown, ?_⟩
    rw [hMoves.cycles, List.getElem?_set_self hCycleBound]
    rfl
  cases hRequest : attempt.request? with
  | none =>
      have hEnded := attempt.request?_eq_none_iff.mp hRequest
      rw [hAsks] at hEnded
      cases hEnded
  | some request =>
      cases request with
      | time =>
          have hNeed : cycle.phase.need = .time := by rw [hPhase, Cycle.Phase.need, hRequest]; rfl
          obtain ⟨reading, hReading, rfl⟩ := act?_of_time hNeed hAct
          exact ⟨_, .timed hRequest hReading rfl, hResumed _ _ rfl rfl⟩
      | call call =>
          have hNeed : cycle.phase.need = .answer call := by
            rw [hPhase, Cycle.Phase.need, hRequest]
            rfl
          obtain rfl | ⟨error, hError⟩ := act?_of_answer hNeed hAct
          · obtain ⟨hRow, reply, hStage, hManagers⟩ :=
              hLegal.served_attempt hManager hCycle hPhase hRequest
            exact ⟨_, .served hRequest hRow, hResumed _ _ hStage hManagers⟩
          · exact absurd hError (hFail error)

end Fleet
end Leasehold
