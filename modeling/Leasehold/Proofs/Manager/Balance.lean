import Leasehold.Proofs.Manager.Effects

/-!
# The balance of a name

The attempts that got a lock are accounted for: each of them was lost, was ended by a shutdown,
or is still held.  The account holds at any time, with the lock that was had and that no one can
see yet.

* `Cycle.Move.balance`: what one move does to it.
* `Session.passages`: how often a run takes a name from one state to another.
* `Session.Balanced`: the account of a name at any time.
* `Session.Rests`, `Balanced.of_rests`: the account of a name whose cycles are between two steps.
-/

namespace Leasehold

namespace Cycle.Phase

/-- One for a lock that was had and that no one can see yet. -/
def unseen : Phase → Nat
  | .acquired _ => 1
  | _ => 0

/-- A cycle between two steps: it waits for something, or it is about to begin. -/
def isResting (phase : Phase) : Bool :=
  match phase, phase.need with
  | .retrying, _ => true
  | _, .nothing => false
  | _, _ => true

/-- A cycle that is over counts as no cycle. -/
theorem getD_live {f : Phase → Nat} (hOver : f .over = 0) (cycle : Cycle) :
    ((if cycle.phase.isLive then some cycle else none).map fun cycle => f cycle.phase).getD 0
      = f cycle.phase := by
  cases hPhase : cycle.phase with
  | «over» => exact hOver.symm
  | _ => exact congrArg f hPhase

end Cycle.Phase

/-- One for a lock that is held. -/
def LockState.holds (state : LockState) : Nat := if state = .held then 1 else 0

namespace Cycle.Move

variable {manager : Manager} {cycle : Cycle} {moment : Moment} {stimulus : Stimulus}
  {phase phase' : Cycle.Phase}

/-- **The balance of a move.**  A lock that was had becomes one that is held, and a lock that
was held stays held, is lost or is given up. -/
theorem balance (h : Move manager cycle moment stimulus phase phase') {registration : Registration}
    (hShows : phase.Shows manager.signals registration)
    (hTurn : stimulus ≠ .turn → phase.need ≠ .nothing) {state : LockState}
    (hState : state = if phase'.isLive then (registration.after phase').state else .unregistered) :
    (if registration.state = .held ∧ state = .lost then 1 else 0)
        + (if registration.state = .held ∧ state = .unregistered then 1 else 0)
        + state.holds + phase'.unseen
      = registration.state.holds + phase.unseen + phase.won := by
  subst hState
  cases h with
  | win hResult =>
      obtain ⟨hAcquiring, -⟩ := hShows
      simp [Phase.isLive, Registration.after, hAcquiring, LockState.holds, Phase.unseen, Phase.won,
        Phase.wins, hResult]
  | miss hResult hMissed =>
      obtain ⟨hAcquiring, -⟩ := hShows
      simp [Phase.isLive, Registration.after, hAcquiring, LockState.holds, Phase.unseen, Phase.won,
        Phase.wins_eq_zero hMissed, hResult]
  | leave =>
      rcases hShows with ⟨hState, -⟩ | ⟨hState, -⟩ <;>
        simp [Phase.isLive, hState, LockState.holds, Phase.unseen, Phase.won]
  | answer attempt response =>
      obtain ⟨hAcquiring, -⟩ := hShows
      have hNeed : Phase.need (.attempting attempt) ≠ .nothing := by
        apply hTurn
        intro hEq
        cases hEq
      have hWon : Phase.won (.attempting attempt) = 0 := (Phase.counts_nothing hNeed).1
      simp [Phase.isLive, Registration.after, hAcquiring, LockState.holds, Phase.unseen, hWon]
  | _ =>
      obtain ⟨hState, -⟩ := hShows
      simp [Phase.isLive, Registration.after, hState, LockState.holds, Phase.unseen, Phase.won]

/-- A held name is lost by the turn that counts a loss, and by no other move. -/
theorem lost_eq (h : Move manager cycle moment stimulus phase phase') {registration : Registration}
    (hShows : phase.Shows manager.signals registration) {state : LockState}
    (hState : state = if phase'.isLive then (registration.after phase').state else .unregistered) :
    phase.lost = if registration.state = .held ∧ state = .lost then 1 else 0 := by
  subst hState
  cases h with
  | leave => simp [Phase.isLive, Phase.lost]
  | quit hFlag =>
      obtain ⟨hAcquiring, -⟩ := hShows
      simp [hAcquiring, Phase.lost]
  | _ =>
      obtain ⟨hState, -⟩ := hShows
      simp [Phase.isLive, Registration.after, hState, Phase.lost]

/-- The loss of a lease is a turn, and the name is lost after it. -/
theorem lost_of_demoting {failures : Nat}
    (h : Move manager cycle moment stimulus (.demoting failures) phase')
    (registration : Registration) :
    stimulus = .turn ∧
      (if phase'.isLive then (registration.after phase').state else .unregistered)
        = LockState.lost := by
  cases h with
  | demote failures => exact ⟨rfl, rfl⟩

/-- The gauge follows the phases. -/
theorem light (h : Move manager cycle moment stimulus phase phase') :
    phase'.light = phase.light?.getD phase.light := by
  cases h <;> rfl

end Cycle.Move
/-- Between two steps nothing is hidden, and the gauge shows whether the lock is held. -/
theorem Cycle.Phase.Shows.resting {signals : Signals} {registration : Registration}
    {phase : Cycle.Phase} (h : phase.Shows signals registration) (hRests : phase.isResting = true) :
    phase.unseen = 0 ∧ phase.light = registration.state.holds := by
  cases phase with
  | acquired version => cases hRests
  | marked version signal => cases hRests
  | starting version signal => cases hRests
  | losing failures signal => cases hRests
  | demoting failures => cases hRests
  | departing => cases hRests
  | stopping signal => cases hRests
  | leaving => cases hRests
  | «over» => exact h.elim
  | _ =>
      refine ⟨rfl, ?_⟩
      rw [h.1]
      rfl

namespace Session

variable {start session next : Session} {event : Event} {events : List Event}

/-- How often a run takes a name from one state to another. -/
def passages (start : Session) (events : List Event) (name : String) (source target : LockState) :
    Nat :=
  (trace step? start events).countP fun (before, _, after) =>
    before.manager.state name = source ∧ after.manager.state name = target

theorem passages_snoc (hRun : start.run? events = some session)
    (hStep : session.step? event = some next) (name : String) (source target : LockState) :
    passages start (events ++ [event]) name source target
      = passages start events name source target
        + if session.manager.state name = source ∧ next.manager.state name = target then 1
          else 0 := by
  rw [passages, trace_snoc hRun hStep, List.countP_append, List.countP_singleton, passages]
  simp only [decide_eq_true_eq]

/-- **The account of a name.**  The attempts that have got its lock are the losses, the cycles
that a shutdown has ended while the lock was held, the lock that is held, and the one that was
had and that no one can see yet; and the gauge shows the phase of its cycle. -/
structure Balanced (start : Session) (events : List Event) (session : Session) (name : String) :
    Prop where
  won : Effect.total (.attempts name "acquired") session.effects
    = passages start events name .held .lost + passages start events name .held .unregistered
      + (session.manager.state name).holds
      + ((session.manager.driver? name).map fun cycle => cycle.phase.unseen).getD 0
  lost : Effect.total (.losses name) session.effects = passages start events name .held .lost
  light : Effect.reading (.held name) session.effects
    = ((session.manager.driver? name).map fun cycle => cycle.phase.light).getD 0

/-- Every event keeps the account of every name. -/
theorem Balanced.step {name : String} (h : Balanced start events session name)
    (hSound : session.Sound) (hRun : start.run? events = some session)
    (hStep : session.step? event = some next) :
    Balanced start (events ++ [event]) next name := by
  have hPassages := passages_snoc hRun hStep name
  cases hSound.progress hStep name with
  | idle hState hDriver hBooks =>
      have hStays : ∀ target, target ≠ .held →
          passages start (events ++ [event]) name .held target
            = passages start events name .held target := by
        intro target hTarget
        rw [hPassages, if_neg, Nat.add_zero]
        rintro ⟨hHeld, hNext⟩
        exact hTarget (hNext.symm.trans (hState.trans hHeld))
      have hLost := hStays .lost (by decide)
      have hFree := hStays .unregistered (by decide)
      refine ⟨?_, ?_, ?_⟩
      · rw [hBooks.won, h.won, hLost, hFree, hState, hDriver, Nat.add_zero]
      · rw [hBooks.lost, h.lost, hLost, Nat.add_zero]
      · rw [hBooks.light, h.light, hDriver]
        rfl
  | registered hState hDriver hNextState hNextDriver hBegun hBooks =>
      have hStays : ∀ target, passages start (events ++ [event]) name .held target
          = passages start events name .held target := by
        intro target
        rw [hPassages, hState, if_neg, Nat.add_zero]
        rintro ⟨hHeld, -⟩
        cases hHeld
      refine ⟨?_, ?_, ?_⟩
      · rw [hBooks.won, h.won, hStays, hStays, hState, hDriver, hNextState, hNextDriver,
          Option.map_some, hBegun]
        rfl
      · rw [hBooks.lost, h.lost, hStays, Nat.add_zero]
      · rw [hBooks.light, h.light, hDriver, hNextDriver, Option.map_some, hBegun]
        rfl
  | @moved id draw stimulus cycle moved registration hEvent hCycle hName hSuits hMoves hState
      hShows hDriver hNextState hNextDriver hBooks =>
      have hMove := hMoves.move
      have hBalance := hMove.balance hShows (Stimulus.need_ne_of_suits hSuits) hNextState
      have hLost := hMove.lost_eq hShows hNextState
      have hUnseen := Cycle.Phase.getD_live (f := Cycle.Phase.unseen) rfl moved
      have hLight := Cycle.Phase.getD_live (f := Cycle.Phase.light) rfl moved
      have hToLost := hPassages .held .lost
      have hToFree := hPassages .held .unregistered
      rw [hState] at hToLost hToFree
      refine ⟨?_, ?_, ?_⟩
      · have hWon := h.won
        rw [hDriver, hState, Option.map_some, Option.getD_some] at hWon
        rw [hBooks.won, hNextDriver, hUnseen, hWon, hToLost, hToFree]
        omega
      · rw [hBooks.lost, h.lost, hToLost, hLost]
      · rw [hBooks.light, h.light, hDriver, hNextDriver, hLight, hMove.light]
        rfl

/-- Nothing is counted in the beginning. -/
theorem Balanced.around {options : Manager.Options} {capacity : Nat} {manager : Manager}
    (h : Manager.new options capacity = .ok manager) (name : String) :
    Balanced (Session.around manager) [] (Session.around manager) name := by
  rw [(Manager.eq_of_new h).2]
  exact ⟨rfl, rfl, rfl⟩

theorem Balanced.run {name : String} (h : Balanced start [] start name) (hSound : start.Sound)
    (hRun : start.run? events = some session) : Balanced start events session name :=
  runs?_induction (motive := fun events session => Balanced start events session name) h
    (fun _ _ _ _ hBefore hBalanced hStep =>
      hBalanced.step (hSound.run hBefore) hBefore hStep) hRun

/-- The cycles of a name are between two steps. -/
def Rests (session : Session) (name : String) : Prop :=
  ∀ (id : Nat) (cycle : Cycle), session.manager.cycles[id]? = some cycle → cycle.name = name →
    cycle.phase.isResting = true

/-- A name without a cycle is not registered. -/
theorem Sound.state_of_driver? {name : String} (h : session.Sound)
    (hDriver : session.manager.driver? name = none) :
    session.manager.state name = .unregistered := by
  refine Manager.state_of_get?_eq_none (Option.eq_none_iff_forall_ne_some.mpr ?_)
  intro registration hGet
  obtain ⟨id, cycle, hCycle, rfl, hLive⟩ := h.coherent.registered name registration hGet
  rw [h.coherent.driver?_eq_some hCycle hLive] at hDriver
  cases hDriver

/-- **The account of a name whose cycles are between two steps.** -/
theorem Balanced.of_rests {name : String} (h : Balanced start events session name)
    (hSound : session.Sound) (hRests : session.Rests name) :
    Effect.total (.attempts name "acquired") session.effects
        = Effect.total (.losses name) session.effects
          + passages start events name .held .unregistered
          + (session.manager.state name).holds ∧
      Effect.reading (.held name) session.effects = (session.manager.state name).holds := by
  have hWon := h.won
  have hLight := h.light
  cases hDriver : session.manager.driver? name with
  | none =>
      rw [hDriver] at hWon hLight
      rw [h.lost, hWon, hLight, hSound.state_of_driver? hDriver]
      exact ⟨rfl, rfl⟩
  | some cycle =>
      obtain ⟨id, hCycle, rfl, hLive⟩ := Manager.exists_of_driver? hDriver
      obtain ⟨registration, hState, hShows⟩ := hSound.shows hCycle rfl hLive
      obtain ⟨hUnseen, hHolds⟩ := hShows.resting (hRests id cycle hCycle rfl)
      rw [hDriver, Option.map_some, Option.getD_some, hUnseen, Nat.add_zero] at hWon
      rw [hDriver, Option.map_some, Option.getD_some, hHolds, ← hState] at hLight
      rw [h.lost]
      exact ⟨hWon, hLight⟩

end Session

end Leasehold
