import Leasehold.Proofs.Manager.Drain

/-!
# Tasks on time

In a session timers may be late and calls may take as long as they like.  Here one task is on time:
its calls take no time, its deadlines are met exactly, and a shutdown wakes it at once.  All else
happens in any order, and among the things that can happen to the task at one time any may.

* `Session.rests`: a task does not move before some time has passed.
* `Session.stepOnTime?`, `Session.runOnTime?`: one event and a run of events with a task on time.
* `Session.Befalls`: all that one event can be to the task.
* `Session.exists_move`: a task that is given what it waits for moves.
-/

namespace Leasehold
namespace Session

/-- Whether a task does not move before some time has passed: it is over, or it waits for a time
that does not come earlier, and no shutdown wakes it. -/
def rests (session : Session) (id nanos : Nat) : Bool :=
  match session.manager.cycles[id]? with
  | none => true
  | some cycle =>
    match cycle.phase.need with
    | .finished => true
    | .pause due => !session.manager.shutDown && decide (session.now + nanos ≤ due)
    | _ => false

/-- One event; time passes only while the task rests. -/
def stepOnTime? (id : Nat) (session : Session) : Event → Option Session
  | .pass nanos => if session.rests id nanos then session.step? (.pass nanos) else none
  | event => session.step? event

/-- A run of events with a task on time. -/
def runOnTime? (id : Nat) (session : Session) (events : List Event) : Option Session :=
  runs? (stepOnTime? id) session events

variable {start session next : Session} {event : Event} {events : List Event} {id : Nat}
  {cycle : Cycle}

/-- A run goes on with one more event. -/
theorem runOnTime?_snoc (hRun : start.runOnTime? id events = some session)
    (hStep : stepOnTime? id session event = some next) :
    start.runOnTime? id (events ++ [event]) = some next := by
  rw [runOnTime?, runs?_snoc, ← runOnTime?, hRun]
  exact hStep

/-- What happens to a task on time happens in the session. -/
theorem step?_of_stepOnTime? (h : stepOnTime? id session event = some next) :
    session.step? event = some next := by
  cases event with
  | pass nanos =>
      simp only [stepOnTime?] at h
      split at h
      · exact h
      · cases h
  | _ => exact h

/-- A task rests when it is over, or until the time that it waits for. -/
theorem rest_cases (hCycle : session.manager.cycles[id]? = some cycle) {nanos : Nat}
    (h : session.rests id nanos = true) :
    cycle.phase.need = .finished ∨ ∃ due, cycle.phase.need = .pause due ∧
      session.manager.shutDown = false ∧ session.now + nanos ≤ due := by
  simp only [rests, hCycle] at h
  split at h
  · next hNeed => exact .inl hNeed
  · next due hNeed =>
    rw [Bool.and_eq_true, Bool.not_eq_true', decide_eq_true_eq] at h
    exact .inr ⟨due, hNeed, h.1, h.2⟩
  · cases h

/-- Time passes while a task waits for a time, up to that time. -/
theorem stepOnTime?_pass (nanos : Nat) {due : Nat}
    (hCycle : session.manager.cycles[id]? = some cycle)
    (hNeed : cycle.phase.need = .pause due) (hFlag : session.manager.shutDown = false)
    (hDue : session.now + nanos ≤ due) :
    stepOnTime? id session (.pass nanos) = some { session with now := session.now + nanos } := by
  have hRests : session.rests id nanos = true := by
    simp [rests, hCycle, hNeed, hFlag, hDue]
  rw [stepOnTime?, if_pos hRests]
  rfl

/-- **All that an event can be to a task** that is on time: time passes while it rests, something
else happens, or it moves.  The flag of a shutdown may be raised by what happens elsewhere. -/
inductive Befalls (session next : Session) (id : Nat) (cycle : Cycle) : Cycle → Prop where
  | passed {nanos : Nat} (hRests : session.rests id nanos = true)
      (hNow : next.now = session.now + nanos)
      (hFlag : next.manager.shutDown = session.manager.shutDown) :
      Befalls session next id cycle cycle
  | kept (hNow : next.now = session.now)
      (hFlag : session.manager.shutDown = true → next.manager.shutDown = true) :
      Befalls session next id cycle cycle
  | moved {draw : Nat} {stimulus : Stimulus} {moved : Cycle} (hNow : next.now = session.now)
      (hFlag : next.manager.shutDown = session.manager.shutDown)
      (hSuits : stimulus.suits session.now session.manager.shutDown cycle.phase.need = true)
      (hMoves : session.manager.Moves next.manager id cycle ⟨session.now, draw⟩ stimulus moved) :
      Befalls session next id cycle moved

/-- **The inversion lemma of runs on time.** -/
theorem befalls_of_stepOnTime? (hCycle : session.manager.cycles[id]? = some cycle)
    (h : stepOnTime? id session event = some next) :
    ∃ moved, next.manager.cycles[id]? = some moved ∧ Befalls session next id cycle moved := by
  have hStep := step?_of_stepOnTime? h
  by_cases hPass : ∃ nanos, event = .pass nanos
  · obtain ⟨nanos, rfl⟩ := hPass
    obtain rfl := Option.some.inj hStep
    refine ⟨cycle, hCycle, .passed ?_ rfl rfl⟩
    simp only [stepOnTime?] at h
    split at h
    · assumption
    · cases h
  · have hNow : next.now = session.now :=
      now_of_step? hStep fun nanos hEvent => hPass ⟨nanos, hEvent⟩
    have hChange := change_of_step? hStep
    rcases hChange.cycle_cases hCycle with hSame | ⟨draw, stimulus, moved, -, hSuits, hMoves, hNext⟩
    · exact ⟨cycle, hSame, .kept hNow hChange.shutDown⟩
    · exact ⟨moved, hNext, .moved hNow hMoves.shutDown hSuits hMoves⟩

/-- The options of a manager stay as they are. -/
theorem options_of_stepOnTime? (h : stepOnTime? id session event = some next) :
    next.manager.options = session.manager.options :=
  (change_of_step? (step?_of_stepOnTime? h)).options

/-- **A task moves when it is given what it waits for.** -/
theorem exists_move {stimulus : Stimulus} (hCycle : session.manager.cycles[id]? = some cycle)
    (hSuits : stimulus.suits session.now session.manager.shutDown cycle.phase.need = true)
    (draw : Nat) :
    ∃ next moved, stepOnTime? id session (.move id draw stimulus) = some next ∧
      next.now = session.now ∧ next.manager.cycles[id]? = some moved ∧
      session.manager.Moves next.manager id cycle ⟨session.now, draw⟩ stimulus moved := by
  obtain ⟨moved, hMoves⟩ : ∃ moved, session.manager.Moves
      (session.manager.step id ⟨session.now, draw⟩ stimulus).1 id cycle ⟨session.now, draw⟩
      stimulus moved := Manager.exists_moves_of_suits hCycle hSuits
  refine ⟨session.stepped id draw stimulus, moved, step?_move hCycle hSuits draw, rfl, ?_, hMoves⟩
  obtain ⟨hBound, -⟩ := List.getElem?_eq_some_iff.mp hCycle
  show (session.manager.step id ⟨session.now, draw⟩ stimulus).1.cycles[id]? = some moved
  rw [hMoves.cycles, List.getElem?_set_self hBound]

end Session
end Leasehold
