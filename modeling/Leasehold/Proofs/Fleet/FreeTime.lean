import Leasehold.Proofs.Fleet.Pace
import Leasehold.Proofs.Manager.Lifecycle

/-!
# Fleets whose calls take their time

The same managers around the same store, but time may pass at any moment: calls are served late,
deadlines are met late, and a cycle whose turn has come may have to wait for it.

* `Fleet.stepFreely?`, `Fleet.runFreely?`: one event and a list of events.
* `Fleet.Passage`: an event happens at once, or it lets time pass.
* `Fleet.exists_lives`: each manager of a fleet lives through a session.
* `Fleet.Touch`: what an event does to the row of a name.
* `Fleet.stamps`: the times that a node has written into the row of a name.
* `Fleet.Keeps`: a node has got the lock of a name and has not given it up.
* `Fleet.Dated`: the times that are about to be written are not in the future.
-/

namespace Leasehold

namespace Fleet

/-- One event; unlike in `step?`, time may pass whatever the cycles could do. -/
def stepFreely? (fleet : Fleet) : Event → Option Fleet
  | .pass nanos => some { fleet with now := fleet.now + nanos }
  | event => fleet.step? event

/-- A run of events. -/
def runFreely? (fleet : Fleet) (events : List Event) : Option Fleet :=
  runs? stepFreely? fleet events

variable {fleet next : Fleet} {event : Event} {name : String}

/-- **An event happens at once, or it lets time pass.** -/
inductive Passage (fleet : Fleet) (event : Event) (next : Fleet) : Prop where
  | passed (nanos : Nat) (hNext : next = { fleet with now := fleet.now + nanos })
  | happened (hStep : fleet.step? event = some next) (hNow : next.now = fleet.now)

theorem passage_of_stepFreely? (hLegal : fleet.Legal) (h : fleet.stepFreely? event = some next) :
    Passage fleet event next := by
  have hHappened : fleet.step? event = some next → (∀ nanos, event ≠ .pass nanos) →
      Passage fleet event next := by
    intro hStep hEvent
    refine .happened hStep ?_
    have hStep := step_of_step? hStep
    cases hLegal.change_of_step hStep with
    | idle hCycles hRows hWrites hNow => exact hNow
    | begun hEvent hManager hPhase hName hInterval hCycle hCycles hRows hWrites hNow => exact hNow
    | moved hManager hCycle hName hInterval hMoved hCycles hNow hEffect => exact hNow
    | passed hRests hNext =>
        cases hStep with
        | pass nanos hRests => exact absurd rfl (hEvent nanos)
        | _ => rfl
  cases event with
  | pass nanos => exact .passed nanos (Option.some.inj h).symm
  | _ => exact hHappened h nofun

/-- Every event keeps the invariant. -/
theorem Legal.stepFreely (hLegal : fleet.Legal) (h : fleet.stepFreely? event = some next) :
    next.Legal := by
  cases passage_of_stepFreely? hLegal h with
  | passed nanos hNext =>
      subst hNext
      exact { hLegal with
        past := fun write hWrite => Nat.le_trans (hLegal.past write hWrite) (Nat.le_add_right _ _) }
  | happened hStep hNow => exact hLegal.step (step_of_step? hStep)

/-- Every run keeps the invariant. -/
theorem Legal.runFreely {start : Fleet} {events : List Event} (hLegal : start.Legal)
    (hRun : start.runFreely? events = some fleet) : fleet.Legal :=
  runs?_induction (motive := fun _ fleet => fleet.Legal) hLegal
    (fun _ _ _ _ _ hBefore hStep => hBefore.stepFreely hStep) hRun

/-! ## The managers of a fleet -/

/-- The managers keep their options. -/
theorem options_of_stepFreely? (hLegal : fleet.Legal) (h : fleet.stepFreely? event = some next) :
    next.managers.map Manager.options = fleet.managers.map Manager.options := by
  cases passage_of_stepFreely? hLegal h with
  | passed nanos hNext => rw [hNext]
  | happened hStep hNow => exact (step_of_step? hStep).options

theorem options_of_runFreely? {start : Fleet} {events : List Event} (hLegal : start.Legal)
    (hRun : start.runFreely? events = some fleet) :
    fleet.managers.map Manager.options = start.managers.map Manager.options :=
  runs?_induction
    (motive := fun _ fleet => fleet.managers.map Manager.options
      = start.managers.map Manager.options) rfl
    (fun _ _ _ _ hDone hSame hStep =>
      (options_of_stepFreely? (hLegal.runFreely hDone) hStep).trans hSame) hRun

/-- A node of one fleet is one of the other, with the same options. -/
theorem exists_manager_of_options
    (h : next.managers.map Manager.options = fleet.managers.map Manager.options) {node : Nat}
    {after : Manager} (hAfter : next.managers[node]? = some after) :
    ∃ manager, fleet.managers[node]? = some manager ∧ manager.options = after.options := by
  have hSame : (fleet.managers.map Manager.options)[node]? = some after.options := by
    rw [← h, List.getElem?_map, hAfter, Option.map_some]
  rw [List.getElem?_map] at hSame
  exact Option.map_eq_some_iff.mp hSame

/-- A move of a cycle is a step of its manager with what the cycle waits for. -/
theorem exists_suits_of_act? {node id : Nat} {manager : Manager} {cycle : Cycle} {act : Act}
    (h : fleet.act? node id manager cycle act = some next) :
    ∃ draw stimulus,
      next.managers = fleet.managers.set node (manager.step id ⟨fleet.now, draw⟩ stimulus).1 ∧
      stimulus.suits fleet.now manager.shutDown cycle.phase.need = true := by
  unfold act? at h
  split at h
  · next draw hNeed =>
    obtain rfl := Option.some.inj h
    exact ⟨draw, .turn, rfl, by rw [hNeed]; rfl⟩
  · next hNeed =>
    obtain ⟨reading, -, rfl⟩ := Option.map_eq_some_iff.mp h
    exact ⟨0, .response (.time reading), rfl, by rw [hNeed]; rfl⟩
  · next call hNeed =>
    obtain rfl := Option.some.inj h
    exact ⟨0, .response (.reply (fleet.memory.perform call).1), rfl, by rw [hNeed]; rfl⟩
  · next error call hNeed =>
    obtain rfl := Option.some.inj h
    exact ⟨0, .response (.reply (.error error)), rfl, by rw [hNeed]; rfl⟩
  · next due hNeed =>
    split at h
    · next hDue =>
      obtain rfl := Option.some.inj h
      exact ⟨0, .deadline, rfl, by rw [hNeed]; exact decide_eq_true hDue⟩
    · cases h
  · next due hNeed =>
    split at h
    · next hFlag =>
      obtain rfl := Option.some.inj h
      exact ⟨0, .shutdown, rfl, by rw [hNeed]; exact hFlag⟩
    · cases h
  · cases h

/-- **What an event does to a manager**: it is what an event of a session does, and no
registration is taken after a shutdown. -/
def Lives (now : Nat) (manager after : Manager) : Prop :=
  ∃ calls act, Session.Change ⟨manager, now, calls, []⟩ ⟨after, now, [], []⟩ act ∧
    ∀ k, act = .enroll k → manager.shutDown = false

theorem lives_self (now : Nat) (manager : Manager) : Lives now manager manager :=
  ⟨[], .pass 0, .kept (.refl _), nofun⟩

theorem lives_run (now : Nat) (manager : Manager) (name : String) (interval : IntervalClass) :
    Lives now manager (manager.run name interval).2.1 := by
  rw [manager.run_eq]
  cases hScreen : manager.screen name with
  | error error => exact lives_self now manager
  | ok passed =>
      cases hTaken : manager.registry.contains name with
      | true =>
          obtain ⟨entry, hEnroll⟩ := Manager.exists_enroll_of_contains hTaken interval
          simp only [hEnroll]
          exact lives_self now manager
      | false =>
          obtain ⟨entry, hEnroll⟩ := Manager.exists_enroll_of_free hTaken interval
          simp only [hEnroll]
          exact ⟨[(name, interval)], .enroll 0,
            .accepted rfl rfl ((OrderedMap.contains_eq_false_iff _ _).mp hTaken) rfl,
            fun _ _ => ((manager.screen_eq_ok_iff name).mp hScreen).1⟩

/-- A move of a cycle is something that its manager lives through. -/
theorem lives_of_act? {node id : Nat} {manager : Manager} {cycle : Cycle} {act : Act}
    (hCycle : manager.cycles[id]? = some cycle)
    (h : fleet.act? node id manager cycle act = some next) :
    ∃ after, next.managers = fleet.managers.set node after ∧ Lives fleet.now manager after := by
  obtain ⟨draw, stimulus, hManagers, hSuits⟩ := exists_suits_of_act? h
  obtain ⟨moved, hMoves⟩ : ∃ moved, manager.Moves
      (manager.step id ⟨fleet.now, draw⟩ stimulus).1 id cycle ⟨fleet.now, draw⟩ stimulus moved :=
    Manager.exists_moves_of_suits hCycle hSuits
  exact ⟨_, hManagers, [], .move id draw stimulus, .moved rfl hCycle hSuits hMoves, by rintro k ⟨⟩⟩

/-- Where one manager lives through something and the others stay, each one lives through it. -/
theorem exists_lives_of_set {target node : Nat} {old new after : Manager}
    (hOld : fleet.managers[target]? = some old)
    (hManagers : next.managers = fleet.managers.set target new) (hLives : Lives fleet.now old new)
    (hAfter : next.managers[node]? = some after) :
    ∃ manager, fleet.managers[node]? = some manager ∧ Lives fleet.now manager after := by
  obtain ⟨hBound, -⟩ := List.getElem?_eq_some_iff.mp hOld
  rw [hManagers] at hAfter
  by_cases hTarget : target = node
  · subst hTarget
    rw [List.getElem?_set_self hBound] at hAfter
    obtain rfl := Option.some.inj hAfter
    exact ⟨old, hOld, hLives⟩
  · rw [List.getElem?_set_ne hTarget] at hAfter
    exact ⟨after, hAfter, lives_self _ _⟩

/-- **Each manager of a fleet lives through a session.** -/
theorem exists_lives (h : fleet.step? event = some next) {node : Nat} {after : Manager}
    (hAfter : next.managers[node]? = some after) :
    ∃ manager, fleet.managers[node]? = some manager ∧ Lives fleet.now manager after := by
  cases event with
  | prepare target =>
      obtain ⟨manager, hManager, rfl⟩ := Option.map_eq_some_iff.mp h
      exact ⟨after, hAfter, lives_self _ _⟩
  | register target name interval =>
      obtain ⟨manager, hManager, rfl⟩ := Option.map_eq_some_iff.mp h
      exact exists_lives_of_set hManager rfl (lives_run _ manager name interval) hAfter
  | raiseFlag target =>
      simp only [step?] at h
      split at h
      · next manager hManager =>
        split at h
        · cases h
        · next hFlag =>
          obtain rfl := Option.some.inj h
          refine exists_lives_of_set hManager rfl ?_ hAfter
          exact ⟨[], .raiseFlag, .raised rfl (Bool.eq_false_iff.mpr hFlag) rfl, by rintro k ⟨⟩⟩
      · cases h
  | cancelRegistered target =>
      simp only [step?] at h
      split at h
      · next manager hManager =>
        split at h
        · next hFlag =>
          obtain rfl := Option.some.inj h
          refine exists_lives_of_set hManager rfl ?_ hAfter
          exact ⟨[], .cancelRegistered,
            .walked hFlag (rfl : _ = manager.cancelAll manager.registeredSignals), by rintro k ⟨⟩⟩
        · cases h
      · cases h
  | move target id act =>
      simp only [step?] at h
      split at h
      · next manager hManager =>
        split at h
        · next cycle hCycle =>
          obtain ⟨moved, hManagers, hLives⟩ := lives_of_act? hCycle h
          exact exists_lives_of_set hManager hManagers hLives hAfter
        · cases h
      · cases h
  | pass nanos =>
      simp only [step?] at h
      split at h
      · obtain rfl := Option.some.inj h
        exact ⟨after, hAfter, lives_self _ _⟩
      · cases h

/-! ## Who has got a lock -/

end Fleet

/-- Whether a cycle has got its lock and has not marked it yet. -/
def Cycle.Phase.isGranted : Cycle.Phase → Bool
  | .attempting attempt => attempt.stage.hasWon
  | .acquired _ => true
  | _ => false

/-- A manager has got the lock of a name and has not given it up. -/
def Manager.Keeps (manager : Manager) (name : String) : Prop :=
  manager.state name = .held ∨ ∃ (id : Nat) (cycle : Cycle), manager.cycles[id]? = some cycle ∧
    cycle.name = name ∧ cycle.phase.isGranted = true

namespace Fleet

/-- A node has got the lock of a name and has not given it up. -/
def Keeps (fleet : Fleet) (node : Nat) (name : String) : Prop :=
  ∃ manager, fleet.managers[node]? = some manager ∧ manager.Keeps name

variable {fleet next : Fleet} {event : Event} {name : String} {node : Nat}

/-- A name becomes held when a cycle marks the lock that it has got. -/
theorem Lives.keeps_of_held {now : Nat} {manager after : Manager} (h : Lives now manager after)
    (hCoherent : manager.Coherent) (hHeld : after.state name = .held) : manager.Keeps name := by
  obtain ⟨calls, act, hChange, -⟩ := h
  have hSame : after.registry.get? name = manager.registry.get? name → manager.Keeps name :=
    fun hGet => .inl ((Manager.state_of_registry_eq hGet).symm.trans hHeld)
  cases hChange with
  | kept hKept => exact hSame (congrArg (·.get? name) hKept.registry)
  | raised _ _ hManager => exact hSame (by rw [show after = manager.raiseFlag from hManager]; rfl)
  | @walked signals _ hManager =>
      exact hSame (by rw [show after = manager.cancelAll signals from hManager]; rfl)
  | @accepted _ other interval _ _ _ hManager =>
      obtain rfl : after = manager.accept other interval := hManager
      by_cases hName : name = other
      · subst hName
        rw [Manager.state_of_get? (OrderedMap.get?_insert_self ..)] at hHeld
        cases hHeld
      · exact hSame (OrderedMap.get?_insert_of_ne _ _ hName)
  | @moved id draw stimulus cycle moved _ hCycle _ hMoves =>
      have hMoves : manager.Moves after id cycle ⟨now, draw⟩ stimulus moved := hMoves
      by_cases hName : name = cycle.name
      · subst hName
        obtain ⟨registration, hGet, hShows⟩ := hCoherent.shown id cycle hCycle hMoves.move.isLive
        rw [hMoves.state_eq hGet] at hHeld
        have hMove := hMoves.move
        cases hPhase : moved.phase with
        | marked version signal =>
            rw [hPhase] at hMove
            refine .inr ⟨id, cycle, hCycle, rfl, ?_⟩
            generalize cycle.phase = phase at hMove
            cases hMove
            rfl
        | cooling due =>
            rw [hPhase] at hHeld
            cases hHeld
        | «over» =>
            rw [hPhase] at hHeld
            cases hHeld
        | _ =>
            rw [hPhase] at hHeld
            exact .inl ((Manager.state_of_get? hGet).trans hHeld)
      · refine hSame ?_
        rw [hMoves.registry]
        exact manager.get?_registryAfter_of_ne _ hName

/-- No quiet move gets a lock. -/
theorem Quiet.isGranted {manager : Manager} {cycle : Cycle} {phase phase' : Cycle.Phase}
    (h : fleet.Quiet manager cycle phase phase') (hGranted : phase'.isGranted = true) :
    phase.isGranted = true := by
  cases h with
  | turned hMove =>
      cases hMove with
      | win hResult => exact Attempt.hasWon_of_result? hResult
      | _ => cases hGranted
  | expired hNeed hDue hMove => cases hMove <;> cases hGranted
  | woken hMove => cases hMove <;> cases hGranted
  | timed hRequest hReading =>
      rw [Cycle.Phase.isGranted, Attempt.hasWon_time _ hRequest] at hGranted
      cases hGranted
  | looked hRequest hLost =>
      rw [Cycle.Phase.isGranted, hLost] at hGranted
      cases hGranted
  | failed error hRequest =>
      rw [Cycle.Phase.isGranted, Attempt.hasWon_error error hRequest] at hGranted
      cases hGranted
  | _ => cases hGranted

/-- **A node gets a lock by writing its row.** -/
theorem Keeps.before (h : next.Keeps node name) (hLegal : fleet.Legal)
    (hStep : fleet.step? event = some next) :
    fleet.Keeps node name ∨ next.writes = fleet.writes ++ [⟨node, name, fleet.now⟩] := by
  obtain ⟨after, hAfter, hHeld | ⟨id, cycle, hCycle, rfl, hGranted⟩⟩ := h
  · obtain ⟨manager, hManager, hLives⟩ := exists_lives hStep hAfter
    have hCoherent := hLegal.coherent manager (List.mem_of_getElem? hManager)
    exact .inl ⟨manager, hManager, hLives.keeps_of_held hCoherent hHeld⟩
  · have hBefore : ∀ {options : Manager.Options} {old : Cycle},
        fleet.cycle? node id = some (options, old) → old.name = cycle.name →
        old.phase.isGranted = true → fleet.Keeps node cycle.name := by
      intro options old hOld hName hOldGranted
      obtain ⟨manager, hManager, -, hFound⟩ := cycle?_eq_some_iff.mp hOld
      exact ⟨manager, hManager, .inr ⟨id, old, hFound, hName, hOldGranted⟩⟩
    rcases (hLegal.change_of_step (step_of_step? hStep)).cycle_cases (Legal.cycle? hAfter hCycle)
      with hSame | ⟨hRetrying, -⟩ | ⟨manager, old, -, hOld, hName, -, hEffect⟩
    · exact .inl (hBefore hSame rfl hGranted)
    · rw [hRetrying] at hGranted
      cases hGranted
    · cases hEffect with
      | quiet hRows hWrites hQuiet =>
          exact .inl (hBefore hOld hName.symm (hQuiet.isGranted hGranted))
      | won hPhase hStage hRow hOwner hTime hOther hWrites hNext =>
          rw [hName]
          exact .inr hWrites
      | renewed hPhase hStage hOldRow hRow hOwner hOther hWrites hNext =>
          rw [hNext] at hGranted
          cases hGranted

/-- A node that renews a lock has got it. -/
theorem Legal.keeps_of_renewing (hLegal : fleet.Legal) {id : Nat} {options : Manager.Options}
    {cycle : Cycle} {beat : Heartbeat} {renewal : Renewal} {signal : SignalId}
    (hCycle : fleet.cycle? node id = some (options, cycle))
    (hPhase : cycle.phase = .renewing beat renewal signal) : fleet.Keeps node cycle.name := by
  obtain ⟨manager, hManager, -, hFound⟩ := cycle?_eq_some_iff.mp hCycle
  obtain ⟨registration, hGet, hShows⟩ := (hLegal.coherent manager
    (List.mem_of_getElem? hManager)).shown id cycle hFound (by rw [hPhase]; rfl)
  rw [hPhase] at hShows
  exact ⟨manager, hManager, .inl ((Manager.state_of_get? hGet).trans hShows.1)⟩

/-! ## What happens to a row -/

/-- **What an event does to the row of a name.**  It leaves it alone, or an attempt of a node gets
the lock, or a renewal of a node keeps it. -/
inductive Touch (fleet next : Fleet) (name : String) : Prop where
  | none
      (hRow : next.lockRow? name = fleet.lockRow? name)
      (hWrites : ∀ node time, next.writes ≠ fleet.writes ++ [⟨node, name, time⟩])
  | won {node id : Nat} {options : Manager.Options} {cycle moved : Cycle} {attempt : Attempt}
      {now : Instant} {row' : LockRow}
      (hCycle : fleet.cycle? node id = some (options, cycle)) (hName : cycle.name = name)
      (hPhase : cycle.phase = .attempting attempt)
      (hStage : attempt.stage = .inserting now ∧ fleet.lockRow? name = Option.none ∨
        ∃ read row, attempt.stage = .replacing read now ∧ fleet.lockRow? name = some row ∧
          row.version = read.version ∧ row.version < row'.version)
      (hRow : next.lockRow? name = some row') (hOwner : row'.owner = options.identity)
      (hTime : row'.updateTime = now)
      (hWrites : next.writes = fleet.writes ++ [⟨node, name, fleet.now⟩])
      (hMoved : next.cycle? node id = some (options, moved)) (hMovedName : moved.name = name)
      (hNext : moved.phase
        = .attempting { attempt with stage := .finished (.ok (.acquired row'.version)) })
  | renewed {node id : Nat} {options : Manager.Options} {cycle : Cycle} {beat : Heartbeat}
      {renewal : Renewal} {signal : SignalId} {now : Instant} {row : LockRow}
      (hCycle : fleet.cycle? node id = some (options, cycle)) (hName : cycle.name = name)
      (hPhase : cycle.phase = .renewing beat renewal signal) (hStage : renewal.stage = .writing now)
      (hOld : fleet.lockRow? name = some row)
      (hRow : next.lockRow? name = some (row.renewedAt now)) (hOwner : row.owner = options.identity)
      (hWrites : next.writes = fleet.writes ++ [⟨node, name, fleet.now⟩])

/-- A list is not itself with something more. -/
theorem writes_ne_append (h : next.writes = fleet.writes) (write : Write) :
    next.writes ≠ fleet.writes ++ [write] := by
  rw [h]
  exact fun hSame => nomatch (List.self_eq_append_right.mp hSame)

/-- The write on one row is not one on another. -/
theorem writes_ne_of_name {write other : Write} (h : next.writes = fleet.writes ++ [write])
    (hName : write.name ≠ other.name) : next.writes ≠ fleet.writes ++ [other] := by
  rw [h]
  intro hSame
  obtain rfl := List.singleton_inj.mp (List.append_cancel_left hSame)
  exact hName rfl

theorem Legal.touch (hLegal : fleet.Legal) (hStep : fleet.step? event = some next)
    (name : String) : Touch fleet next name := by
  cases hLegal.change_of_step (step_of_step? hStep) with
  | idle hCycles hRows hWrites hNow =>
      exact .none (hRows name) fun _ _ => writes_ne_append hWrites _
  | begun hEvent hManager hPhase hName hInterval hCycle hCycles hRows hWrites hNow =>
      exact .none (hRows name) fun _ _ => writes_ne_append hWrites _
  | passed hRests hNext =>
      subst hNext
      exact .none rfl fun _ _ => writes_ne_append rfl _
  | @moved node id manager old moved hManager hOld hName hInterval hMoved hCycles hNow hEffect =>
      have hCycle : fleet.cycle? node id = some (manager.options, old) :=
        Legal.cycle? hManager hOld
      cases hEffect with
      | quiet hRows hWrites hQuiet =>
          exact .none (hRows name) fun _ _ => writes_ne_append hWrites _
      | won hPhase hStage hRow hOwner hTime hOther hWrites hNext =>
          by_cases hHere : old.name = name
          · subst hHere
            exact .won hCycle rfl hPhase hStage hRow hOwner hTime hWrites hMoved hName hNext
          · exact .none (hOther name (Ne.symm hHere)) fun _ _ => writes_ne_of_name hWrites hHere
      | renewed hPhase hStage hOldRow hRow hOwner hOther hWrites hNext =>
          by_cases hHere : old.name = name
          · subst hHere
            exact .renewed hCycle rfl hPhase hStage hOldRow hRow hOwner hWrites
          · exact .none (hOther name (Ne.symm hHere)) fun _ _ => writes_ne_of_name hWrites hHere

/-! ## What nodes write into a row -/

/-- The time that a node has written into the row of a name with an event. -/
def written? (node : Nat) (name : String) (before after : Fleet) : Option Instant :=
  if after.writes = before.writes ++ [⟨node, name, after.now⟩] then
    (after.lockRow? name).map LockRow.updateTime
  else none

/-- The times that a node has written into the row of a name in a run, in their order. -/
def stamps (node : Nat) (name : String) (start : Fleet) (events : List Event) : List Instant :=
  (trace stepFreely? start events).filterMap fun (before, _, after) =>
    written? node name before after

/-- The time that a node has written into the row of a name with its last write. -/
def lastStamp? (node : Nat) (name : String) (start : Fleet) (events : List Event) :
    Option Instant :=
  (stamps node name start events).getLast?

theorem lastStamp?_snoc {start : Fleet} {events : List Event}
    (hRun : start.runFreely? events = some fleet) (hStep : fleet.stepFreely? event = some next)
    (node : Nat) (name : String) :
    lastStamp? node name start (events ++ [event])
      = (written? node name fleet next).or (lastStamp? node name start events) := by
  rw [lastStamp?, stamps, trace_snoc hRun hStep, List.filterMap_append, List.getLast?_append,
    lastStamp?, stamps]
  cases hWritten : written? node name fleet next <;> simp [hWritten]

theorem written?_of_ne (h : ∀ time, next.writes ≠ fleet.writes ++ [⟨node, name, time⟩]) :
    written? node name fleet next = none :=
  if_neg (h next.now)

theorem written?_of_writes {row : LockRow}
    (h : next.writes = fleet.writes ++ [⟨node, name, next.now⟩])
    (hRow : next.lockRow? name = some row) :
    written? node name fleet next = some row.updateTime := by
  rw [written?, if_pos h, hRow]
  rfl

/-! ## Readings of the clock -/

/-- The clock has shown a reading. -/
def Past (fleet : Fleet) (reading : Instant) : Prop :=
  ∃ time, time ≤ fleet.now ∧ fleet.base.after? time = some reading

/-- The clock has shown a reading more than a lease ago. -/
def Over (fleet : Fleet) (lease : Span) (reading : Instant) : Prop :=
  ∃ time, time + lease.nanos < fleet.now ∧ fleet.base.after? time = some reading

theorem Past.later {reading : Instant} (h : fleet.Past reading) (hBase : next.base = fleet.base)
    (hNow : fleet.now ≤ next.now) : next.Past reading := by
  obtain ⟨time, hTime, hReading⟩ := h
  exact ⟨time, Nat.le_trans hTime hNow, hBase ▸ hReading⟩

theorem Over.later {lease : Span} {reading : Instant} (h : fleet.Over lease reading)
    (hBase : next.base = fleet.base) (hNow : fleet.now ≤ next.now) : next.Over lease reading := by
  obtain ⟨time, hTime, hReading⟩ := h
  exact ⟨time, Nat.lt_of_lt_of_le hTime hNow, hBase ▸ hReading⟩

/-- A reading is more than a lease ago exactly if the time at which the clock showed it is. -/
theorem over_iff {time : Nat} {reading : Instant} (hValid : fleet.base.isValid = true)
    (hLeap : fleet.base.inLeapSecond = false) (hReading : fleet.base.after? time = some reading)
    (lease : Span) : fleet.Over lease reading ↔ time + lease.nanos < fleet.now := by
  refine ⟨?_, fun hOver => ⟨time, hOver, hReading⟩⟩
  rintro ⟨other, hOver, hOther⟩
  have hCount := (Instant.count_after? hLeap hReading).2
  have hOtherCount := (Instant.count_after? hLeap hOther).2
  have hShort := Instant.lt_longest_of_after? hValid hLeap hReading
  have hOtherShort := Instant.lt_longest_of_after? hValid hLeap hOther
  omega

/-- A row of the past that the clock shows to be expired is more than a lease old. -/
theorem Past.over {row : LockRow} {reading : Instant} {lease : Span}
    (h : fleet.Past row.updateTime) (hReading : fleet.reading? = some reading)
    (hExpired : row.isExpired reading lease = true) : fleet.Over lease row.updateTime := by
  obtain ⟨time, hTime, hRow⟩ := h
  exact ⟨time, LockRow.lt_of_isExpired_after? hTime hRow hReading hExpired, hRow⟩

end Fleet

/-- The time that a cycle is about to write. -/
def Cycle.Phase.stamp? : Cycle.Phase → Option Instant
  | .attempting attempt => attempt.stage.stamp?
  | .renewing _ renewal _ =>
    match renewal.stage with
    | .writing now => some now
    | _ => none
  | _ => none

namespace Fleet

variable {fleet next : Fleet} {event : Event}

/-- The times that are about to be written have been read from the clock. -/
def Dated (fleet : Fleet) : Prop :=
  ∀ node id options cycle stamp, fleet.cycle? node id = some (options, cycle) →
    cycle.phase.stamp? = some stamp → fleet.Past stamp

/-- A quiet move takes the time that is to be written from the clock. -/
theorem Quiet.stamp? {manager : Manager} {cycle : Cycle} {phase phase' : Cycle.Phase}
    (h : fleet.Quiet manager cycle phase phase') {stamp : Instant}
    (hStamp : phase'.stamp? = some stamp) : fleet.reading? = some stamp := by
  cases h with
  | turned hMove => cases hMove <;> cases hStamp
  | expired hNeed hDue hMove => cases hMove <;> cases hStamp
  | woken hMove => cases hMove <;> cases hStamp
  | timed hRequest hReading => rw [hReading, Attempt.stamp?_time hRequest hStamp]
  | looked hRequest hLost =>
      rw [Cycle.Phase.stamp?, Attempt.stamp?_stageAfter hRequest] at hStamp
      cases hStamp
  | failed error hRequest =>
      rw [Cycle.Phase.stamp?, Attempt.stamp?_reply _ hRequest] at hStamp
      cases hStamp
  | stamped hStage hReading => exact hReading.trans hStamp
  | missed hStage hFailed => cases hStamp

theorem Past.of_reading {reading : Instant} (h : fleet.reading? = some reading) :
    fleet.Past reading :=
  ⟨fleet.now, Nat.le_refl _, h⟩

theorem Dated.around {database table : String} {base : Instant} {memory : Memory}
    {managers : List Manager} {space : Space} (hNew : ∀ manager ∈ managers, manager.IsNew space) :
    (Fleet.around database table base memory managers).Dated := by
  intro node id options cycle stamp hCycle
  rw [cycle?_around hNew] at hCycle
  cases hCycle

/-- Every event keeps this. -/
theorem Dated.step (h : fleet.Dated) (hLegal : fleet.Legal)
    (hStep : fleet.stepFreely? event = some next) : next.Dated := by
  intro node id options cycle stamp hCycle hStamp
  cases passage_of_stepFreely? hLegal hStep with
  | passed nanos hNext =>
      subst hNext
      exact (h node id options cycle stamp hCycle hStamp).later rfl (Nat.le_add_right _ _)
  | happened hStep hNow =>
      have hBase : next.base = fleet.base := (step_of_step? hStep).frame.1
      suffices hPast : fleet.Past stamp from hPast.later hBase (Nat.le_of_eq hNow.symm)
      rcases (hLegal.change_of_step (step_of_step? hStep)).cycle_cases hCycle with
        hSame | ⟨hRetrying, -⟩ | ⟨manager, old, -, -, -, -, hEffect⟩
      · exact h node id options cycle stamp hSame hStamp
      · rw [hRetrying] at hStamp
        cases hStamp
      · cases hEffect with
        | quiet hRows hWrites hQuiet => exact .of_reading (hQuiet.stamp? hStamp)
        | won hPhase hStage hRow hOwner hTime hOther hWrites hNext =>
            rw [hNext] at hStamp
            cases hStamp
        | renewed hPhase hStage hOldRow hRow hOwner hOther hWrites hNext =>
            rw [hNext] at hStamp
            cases hStamp

/-- Every run keeps this. -/
theorem Dated.run {start : Fleet} {events : List Event} (h : start.Dated) (hLegal : start.Legal)
    (hRun : start.runFreely? events = some fleet) : fleet.Dated :=
  runs?_induction (motive := fun _ fleet => fleet.Dated) h
    (fun _ _ _ _ hDone hBefore hStep => hBefore.step (hLegal.runFreely hDone) hStep) hRun

end Fleet
end Leasehold
