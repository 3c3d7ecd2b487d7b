import Leasehold.Proofs.Lock.Separation
import Leasehold.Proofs.Manager.Losses
import Leasehold.Proofs.Manager.Mirror

/-!
# Names of one manager

The names of a manager share its registry, its signals, its outbox and its shutdown flag.  Until
a shutdown, the cycles of a name use none of these in a way that other names could notice: every
run can be taken again without the other names, and for the name nothing comes out differently.

* `Session.only`: what is left of a run without the other names.
* `Session.Mirrors.step`, `Session.Mirrors.step_other`: what one event does to the name.
* `Session.exists_echo`: what is left of a run is a run, and shows the same of the name.
* `names_apart`: names are independent, in a store and in a manager.
-/

namespace Leasehold

/-! ## Jobs of a name -/

/-- The cycle and the signal of the job that an effect starts. -/
def Effect.start? : Effect → Option (Nat × SignalId)
  | .startJob id signal => some (id, signal)
  | _ => none

/-- The job that a cycle starts when it moves in a phase. -/
def Cycle.Phase.starts (id : Nat) : Stimulus → Cycle.Phase → List (Nat × SignalId)
  | .turn, .starting _ signal => [(id, signal)]
  | _, _ => []

theorem Cycle.Phase.starts_renumber (f : SignalId → SignalId) (id place : Nat)
    (stimulus : Stimulus) (phase : Cycle.Phase) :
    ((phase.renumber f).starts id stimulus).map Prod.snd
      = ((phase.starts place stimulus).map Prod.snd).map f := by
  cases stimulus <;> cases phase <;> rfl

theorem Cycle.Phase.of_mem_starts {id : Nat} {stimulus : Stimulus} {phase : Cycle.Phase}
    {start : Nat × SignalId} (h : start ∈ phase.starts id stimulus) :
    start.1 = id ∧ phase.signal? = some start.2 := by
  cases phase with
  | starting version signal =>
      cases stimulus with
      | turn =>
          obtain rfl := List.mem_singleton.mp h
          exact ⟨rfl, rfl⟩
      | _ => cases h
  | _ => cases stimulus <;> cases h

/-- A move starts this job and no other. -/
theorem Manager.filterMap_start?_step {manager : Manager} {id : Nat} {cycle : Cycle}
    (hCycle : manager.cycles[id]? = some cycle) (moment : Moment) (stimulus : Stimulus) :
    (manager.step id moment stimulus).2.filterMap Effect.start?
      = cycle.phase.starts id stimulus := by
  by_cases hStarts : stimulus = .turn ∧ ∃ version signal, cycle.phase = .starting version signal
  · obtain ⟨rfl, version, signal, hPhase⟩ := hStarts
    simp only [step, hCycle, turn, hPhase, startJob, entry, Cycle.Phase.starts]
    rfl
  · have hNone : cycle.phase.starts id stimulus = [] := by
      cases hPhase : cycle.phase with
      | starting version signal =>
          cases stimulus with
          | turn => exact absurd ⟨rfl, version, signal, hPhase⟩ hStarts
          | _ => rfl
      | _ => cases stimulus <;> rfl
    rw [hNone]
    refine List.filterMap_eq_nil_iff.mpr fun effect hMem => ?_
    cases effect with
    | startJob job signal =>
        obtain ⟨-, hTurn, version, hPhase⟩ := starting_of_startJob_mem_step hCycle hMem
        exact absurd ⟨hTurn, version, signal, hPhase⟩ hStarts
    | _ => rfl

namespace Session

variable {session next : Session} {event : Event}

/-- The jobs that were started, in their order, by the numbers of their cycles and signals. -/
def starts (session : Session) : List (Nat × SignalId) := session.effects.filterMap Effect.start?

/-- The jobs that an event starts. -/
def newStarts (session : Session) : Event → List (Nat × SignalId)
  | .move id _ stimulus =>
    match session.manager.cycles[id]? with
    | some cycle => cycle.phase.starts id stimulus
    | none => []
  | _ => []

theorem starts_of_step? (hStep : session.step? event = some next) :
    next.starts = session.starts ++ session.newStarts event := by
  by_cases hMove : ∃ id draw stimulus, event = .move id draw stimulus
  · obtain ⟨id, draw, stimulus, rfl⟩ := hMove
    obtain ⟨cycle, hCycle, -, rfl⟩ := exists_of_move hStep
    simp only [starts, stepped, List.filterMap_append, newStarts, hCycle,
      Manager.filterMap_start?_step hCycle]
  · have hEvent : ∀ id draw stimulus, event ≠ .move id draw stimulus :=
      fun id draw stimulus hEq => hMove ⟨id, draw, stimulus, hEq⟩
    obtain ⟨entries, hEffects⟩ := exists_logs_of_step? hStep hEvent
    have hLogs : (entries.map Effect.log).filterMap Effect.start? = [] := by
      refine List.filterMap_eq_nil_iff.mpr fun effect hMem => ?_
      obtain ⟨entry, -, rfl⟩ := List.mem_map.mp hMem
      rfl
    have hNone : session.newStarts event = [] := by
      cases event with
      | move id draw stimulus => exact absurd rfl (hEvent id draw stimulus)
      | _ => rfl
    rw [starts, hEffects, List.filterMap_append, hLogs, hNone, starts]

/-- The name that a cycle follows. -/
def nameOf? (session : Session) (id : Nat) : Option String :=
  (session.manager.cycles[id]?).map Cycle.name

theorem nameOf?_of_cycle {id : Nat} {cycle : Cycle}
    (hCycle : session.manager.cycles[id]? = some cycle) :
    session.nameOf? id = some cycle.name := by
  rw [nameOf?, hCycle, Option.map_some]

/-- A cycle follows one name all its life. -/
theorem nameOf?_of_step? (hStep : session.step? event = some next) {id : Nat} {name : String}
    (hName : session.nameOf? id = some name) : next.nameOf? id = some name := by
  obtain ⟨cycle, hCycle, rfl⟩ := Option.map_eq_some_iff.mp hName
  rcases (change_of_step? hStep).cycle_cases hCycle with
    hSame | ⟨draw, stimulus, later, -, -, hMoves, hLater⟩
  · exact nameOf?_of_cycle hSame
  · rw [nameOf?_of_cycle hLater, hMoves.name]

/-- The signals of the jobs that were started for a name, in the order of the starts. -/
def jobsOf (session : Session) (name : String) : List SignalId :=
  (session.starts.filter fun start => decide (session.nameOf? start.1 = some name)).map Prod.snd

/-- Whether the signals of the jobs of a name are cancelled, in the order of the starts. -/
def jobFlags (name : String) (session : Session) : List Bool :=
  (session.jobsOf name).map session.manager.signals.isCancelled

/-- Every job that was started has a cycle. -/
def Begun (session : Session) : Prop :=
  ∀ start ∈ session.starts, ∃ name, session.nameOf? start.1 = some name

theorem exists_nameOf?_of_newStarts {start : Nat × SignalId}
    (h : start ∈ session.newStarts event) : ∃ name, session.nameOf? start.1 = some name := by
  cases event with
  | move id draw stimulus =>
      simp only [newStarts] at h
      split at h
      · next cycle hCycle =>
        rw [(Cycle.Phase.of_mem_starts h).1]
        exact ⟨cycle.name, nameOf?_of_cycle hCycle⟩
      · cases h
  | _ => cases h

namespace Begun

theorem around (manager : Manager) : (Session.around manager).Begun := by
  intro start hStart
  cases hStart

theorem step (h : session.Begun) (hStep : session.step? event = some next) : next.Begun := by
  intro start hStart
  rw [starts_of_step? hStep] at hStart
  have hBefore : ∃ name, session.nameOf? start.1 = some name :=
    (List.mem_append.mp hStart).elim (h start) exists_nameOf?_of_newStarts
  obtain ⟨name, hName⟩ := hBefore
  exact ⟨name, nameOf?_of_step? hStep hName⟩

theorem run (h : session.Begun) {events : List Event} (hRun : session.run? events = some next) :
    next.Begun :=
  runs?_induction (motive := fun _ session => session.Begun) h
    (fun _ _ _ _ _ hBefore hStep => hBefore.step hStep) hRun

/-- An event adds to the jobs of a name those that it starts. -/
theorem jobsOf_step (h : session.Begun) (hStep : session.step? event = some next)
    (name : String) :
    next.jobsOf name = session.jobsOf name
      ++ ((session.newStarts event).filter fun start =>
          decide (session.nameOf? start.1 = some name)).map Prod.snd := by
  have hSame : ∀ start ∈ session.starts ++ session.newStarts event,
      decide (next.nameOf? start.1 = some name)
        = decide (session.nameOf? start.1 = some name) := by
    intro start hStart
    have hBefore : ∃ owner, session.nameOf? start.1 = some owner :=
      (List.mem_append.mp hStart).elim (h start) exists_nameOf?_of_newStarts
    obtain ⟨owner, hOwner⟩ := hBefore
    rw [hOwner, nameOf?_of_step? hStep hOwner]
  rw [jobsOf, starts_of_step? hStep, List.filter_congr hSame, List.filter_append, List.map_append,
    jobsOf]

end Begun

end Session

/-! ## Sessions of one name -/

namespace Session

variable {session next alone : Session} {event : Event} {name : String}
  {numbers : List SignalId}

/-- Whether a registration under way is one of a name. -/
def asks (name : String) (call : String × IntervalClass) : Bool := decide (call.1 = name)

/-- What is left of an event without the calls and the cycles of other names. -/
def only? (session : Session) (name : String) : Event → Option Event
  | .enter other interval => if other = name then some (.enter other interval) else none
  | .enroll k => (place? (asks name) session.calls k).map .enroll
  | .move id draw stimulus =>
    (place? (Manager.follows name) session.manager.cycles id).map fun place =>
      .move place draw stimulus
  | event => some event

/-- What is left of a run without the calls and the cycles of other names. -/
def only (name : String) (start : Session) (events : List Event) : List Event :=
  (trace step? start events).filterMap fun (before, event, _) => before.only? name event

/-- **A session of one name that mirrors a larger one** until a shutdown. -/
structure Mirrors (name : String) (numbers : List SignalId) (session alone : Session) : Prop where
  now : alone.now = session.now
  manager : session.manager.Mirrors name numbers alone.manager
  calls : alone.calls = session.calls.filter (asks name)
  jobs : session.jobsOf name = (alone.jobsOf name).map (number numbers)

/-- A session that a run leads to, with what is known of its jobs. -/
structure Known (session : Session) : Prop where
  struck : session.Struck
  begun : session.Begun

theorem Known.around {options : Manager.Options} {capacity : Nat} {manager : Manager}
    (h : Manager.new options capacity = .ok manager) : (Session.around manager).Known :=
  ⟨.around h, .around manager⟩

theorem Known.jobs (h : session.Known) : session.Jobs := h.struck.jobs

theorem Known.run (h : session.Known) {events : List Event}
    (hRun : session.run? events = some next) : next.Known :=
  ⟨h.struck.run hRun, h.begun.run hRun⟩

/-- An event that starts no job leaves the jobs of a name as they are. -/
theorem Begun.jobsOf_kept (h : session.Begun) (hStep : session.step? event = some next)
    (hNone : session.newStarts event = []) (name : String) :
    next.jobsOf name = session.jobsOf name := by
  rw [h.jobsOf_step hStep, hNone]
  exact List.append_nil _

/-- The job that a cycle starts is one of its name. -/
theorem Begun.jobsOf_stepped (h : session.Begun) {id : Nat} {cycle : Cycle} {stimulus : Stimulus}
    (hCycle : session.manager.cycles[id]? = some cycle)
    (hSuits : stimulus.suits session.now session.manager.shutDown cycle.phase.need = true)
    (draw : Nat) (name : String) :
    (session.stepped id draw stimulus).jobsOf name = session.jobsOf name
      ++ if cycle.name = name then (cycle.phase.starts id stimulus).map Prod.snd else [] := by
  have hStarts : session.newStarts (.move id draw stimulus) = cycle.phase.starts id stimulus := by
    simp only [newStarts, hCycle]
  rw [h.jobsOf_step (step?_move hCycle hSuits draw), hStarts]
  have hOwner : ∀ start ∈ cycle.phase.starts id stimulus,
      decide (session.nameOf? start.1 = some name) = decide (cycle.name = name) := by
    intro start hStart
    simp only [(Cycle.Phase.of_mem_starts hStart).1, nameOf?_of_cycle hCycle, Option.some.injEq]
  rw [List.filter_congr hOwner]
  split
  · next hSame => simp only [hSame, decide_true, List.filter_true]
  · next hOther => simp only [hOther, decide_false, List.filter_false, List.map_nil]

/-- The signal of a job is one that was made. -/
theorem Jobs.jobsOf_lt (h : session.Jobs) {signal : SignalId}
    (hSignal : signal ∈ session.jobsOf name) :
    signal < session.manager.signals.cancelled.length := by
  obtain ⟨⟨id, other⟩, hMem, rfl⟩ := List.mem_map.mp hSignal
  obtain ⟨effect, hEffect, hStart⟩ := List.mem_filterMap.mp (List.mem_filter.mp hMem).1
  cases effect with
  | startJob job signal =>
      obtain ⟨rfl, rfl⟩ := Prod.mk.inj (Option.some.inj hStart)
      exact h.created _ _ hEffect
  | _ => cases hStart

namespace Mirrors

theorem around {options : Manager.Options} {capacity : Nat} {manager : Manager}
    (h : Manager.new options capacity = .ok manager) (name : String) :
    Mirrors name [] (Session.around manager) (Session.around manager) :=
  ⟨rfl, .of_new h name, rfl, rfl⟩

/-- The jobs of the name are cancelled in both or in none. -/
theorem jobFlags (h : Mirrors name numbers session alone) (hAlone : alone.Jobs) :
    Session.jobFlags name session = Session.jobFlags name alone := by
  rw [Session.jobFlags, h.jobs, List.map_map, Session.jobFlags]
  refine List.map_congr_left fun signal hSignal => h.manager.signals.isCancelled ?_
  rw [← h.manager.signals.length]
  exact hAlone.jobsOf_lt hSignal

/-- A registration of the name begins. -/
theorem enter (h : Mirrors name numbers session alone) {interval : IntervalClass}
    (hStep : session.step? (.enter name interval) = some next) :
    ∃ later, alone.step? (.enter name interval) = some later ∧ Mirrors name numbers next later := by
  have hScreen : alone.manager.screen name = session.manager.screen name := by
    rw [Manager.screen, Manager.screen, h.manager.flag, h.manager.flagAlone]
  simp only [step?] at hStep
  cases hPassed : session.manager.screen name with
  | error error =>
      rw [hPassed] at hStep
      obtain rfl := Option.some.inj hStep
      exact ⟨alone, by simp only [step?, hScreen, hPassed], h⟩
  | ok passed =>
      rw [hPassed] at hStep
      obtain rfl := Option.some.inj hStep
      refine ⟨{ alone with calls := alone.calls ++ [(name, interval)] },
        by simp only [step?, hScreen, hPassed], h.now, h.manager, ?_, h.jobs⟩
      have hAsks : asks name (name, interval) = true := decide_eq_true rfl
      simp only [h.calls, List.filter_append, List.filter_cons_of_pos hAsks, List.filter_nil]

/-- A registration of another name begins. -/
theorem enter_other (h : Mirrors name numbers session alone) {other : String}
    (hOther : other ≠ name) {interval : IntervalClass}
    (hStep : session.step? (.enter other interval) = some next) :
    Mirrors name numbers next alone := by
  simp only [step?] at hStep
  split at hStep
  · obtain rfl := Option.some.inj hStep
    exact h
  · obtain rfl := Option.some.inj hStep
    refine ⟨h.now, h.manager, ?_, h.jobs⟩
    have hAsks : ¬asks name (other, interval) = true :=
      fun hSame => hOther (of_decide_eq_true hSame)
    simp only [h.calls, List.filter_append, List.filter_cons_of_neg hAsks, List.filter_nil,
      List.append_nil]

/-- A registration of the name comes to the registry. -/
theorem enroll (h : Mirrors name numbers session alone) (hKnown : session.Known)
    (hAlone : alone.Known) {k : Nat} {interval : IntervalClass}
    (hCall : session.calls[k]? = some (name, interval)) :
    ∃ later, alone.step? (.enroll (rank (asks name) session.calls k)) = some later ∧
      Mirrors name numbers (session.enrolled k name interval) later := by
  have hAsks : asks name (name, interval) = true := decide_eq_true rfl
  have hPlace : alone.calls[rank (asks name) session.calls k]? = some (name, interval) := by
    rw [h.calls]
    exact getElem?_rank hCall hAsks
  have hStep : session.step? (.enroll k) = some (session.enrolled k name interval) := by
    simp only [step?, hCall, Option.map_some]
  have hStepAlone : alone.step? (.enroll (rank (asks name) session.calls k))
      = some (alone.enrolled (rank (asks name) session.calls k) name interval) := by
    simp only [step?, hPlace, Option.map_some]
  refine ⟨_, hStepAlone, h.now, h.manager.enroll interval, ?_, ?_⟩
  · simp only [enrolled, h.calls, filter_eraseIdx_of_pos hCall hAsks]
  · rw [hKnown.begun.jobsOf_kept hStep rfl, hAlone.begun.jobsOf_kept hStepAlone rfl, h.jobs]

/-- A registration of another name comes to the registry. -/
theorem enroll_other (h : Mirrors name numbers session alone) (hKnown : session.Known) {k : Nat}
    {other : String} {interval : IntervalClass} (hCall : session.calls[k]? = some (other, interval))
    (hOther : other ≠ name) :
    Mirrors name numbers (session.enrolled k other interval) alone := by
  have hAsks : asks name (other, interval) = false := decide_eq_false hOther
  have hStep : session.step? (.enroll k) = some (session.enrolled k other interval) := by
    simp only [step?, hCall, Option.map_some]
  refine ⟨h.now, h.manager.enroll_other hOther interval, ?_, ?_⟩
  · simp only [enrolled, h.calls, filter_eraseIdx_of_neg hCall hAsks]
  · rw [hKnown.begun.jobsOf_kept hStep rfl, h.jobs]

variable {id draw : Nat} {cycle : Cycle} {stimulus : Stimulus}

/-- A cycle of the name moves. -/
theorem move (h : Mirrors name numbers session alone) (hKnown : session.Known)
    (hAlone : alone.Known) (hCycle : session.manager.cycles[id]? = some cycle)
    (hName : cycle.name = name)
    (hSuits : stimulus.suits session.now session.manager.shutDown cycle.phase.need = true) :
    ∃ later more,
      alone.step? (.move (rank (Manager.follows name) session.manager.cycles id) draw stimulus)
        = some later ∧
      Mirrors name (numbers ++ more) (session.stepped id draw stimulus) later := by
  obtain ⟨copy, more, hCopy, hSame, hSuitsCopy, hManager⟩ :=
    h.manager.step hKnown.jobs.sound.coherent hAlone.jobs.sound.coherent hCycle hName hSuits draw
  rw [← h.now] at hSuitsCopy
  have hCopyName : copy.name = name := by
    rw [← hName, ← hSame]
    rfl
  generalize rank (Manager.follows name) session.manager.cycles id = place at *
  have hStep := step?_move hCycle hSuits draw
  have hStepAlone := step?_move hCopy hSuitsCopy draw
  refine ⟨_, more, hStepAlone, h.now, ?_, h.calls, ?_⟩
  · simp only [stepped, h.now]
    exact hManager
  · rw [hKnown.begun.jobsOf_stepped hCycle hSuits, if_pos hName,
      hAlone.begun.jobsOf_stepped hCopy hSuitsCopy, if_pos hCopyName, List.map_append, h.jobs,
      ← hSame]
    have hLength := h.manager.signals.length
    have hOld : ∀ signal ∈ alone.jobsOf name,
        number numbers signal = number (numbers ++ more) signal := fun signal hSignal =>
      (number_append_of_lt (hLength ▸ hAlone.jobs.jobsOf_lt hSignal) more).symm
    have hNew : ∀ signal ∈ (copy.phase.starts place stimulus).map Prod.snd,
        number numbers signal = number (numbers ++ more) signal := by
      intro signal hSignal
      obtain ⟨start, hStart, rfl⟩ := List.mem_map.mp hSignal
      have hMade := hAlone.jobs.sound.coherent.created place copy start.2 hCopy
        (Cycle.Phase.of_mem_starts hStart).2
      exact (number_append_of_lt (hLength ▸ hMade) more).symm
    rw [List.map_congr_left hOld, ← List.map_congr_left hNew]
    exact congrArg _ (Cycle.Phase.starts_renumber _ id place stimulus copy.phase)

/-- A cycle of another name moves. -/
theorem move_other (h : Mirrors name numbers session alone) (hKnown : session.Known)
    (hCycle : session.manager.cycles[id]? = some cycle) (hOther : cycle.name ≠ name)
    (hSuits : stimulus.suits session.now session.manager.shutDown cycle.phase.need = true) :
    Mirrors name numbers (session.stepped id draw stimulus) alone := by
  obtain ⟨moved, hMoves⟩ :
      ∃ moved, session.manager.Moves (session.stepped id draw stimulus).manager id cycle
        ⟨session.now, draw⟩ stimulus moved := Manager.exists_moves_of_suits hCycle hSuits
  refine ⟨h.now, h.manager.moves_other hCycle hOther hMoves, h.calls, ?_⟩
  rw [hKnown.begun.jobsOf_stepped hCycle hSuits, if_neg hOther, List.append_nil]
  exact h.jobs

/-- **The step lemma of a name.**  What is left of an event happens to the session of the name as
it does to the larger one, -/
theorem step (h : Mirrors name numbers session alone) (hKnown : session.Known)
    (hAlone : alone.Known) (hStep : session.step? event = some next) (hQuiet : event ≠ .raiseFlag)
    {mine : Event} (hMine : session.only? name event = some mine) :
    ∃ later more, alone.step? mine = some later ∧ Mirrors name (numbers ++ more) next later := by
  have hNoShutdown : session.manager.shutDown ≠ true := by
    rw [h.manager.flag]
    nofun
  -- Only the moves of cycles make signals.
  have hKeeps : ∀ {later : Session}, alone.step? mine = some later →
      Mirrors name numbers next later →
      ∃ later more, alone.step? mine = some later ∧ Mirrors name (numbers ++ more) next later :=
    fun hLater hNext => ⟨_, [], hLater, (List.append_nil numbers).symm ▸ hNext⟩
  cases event with
  | enter other interval =>
      simp only [only?] at hMine
      split at hMine
      · next hName =>
        subst hName
        obtain rfl := Option.some.inj hMine
        obtain ⟨later, hLater, hNext⟩ := h.enter hStep
        exact hKeeps hLater hNext
      · cases hMine
  | enroll k =>
      obtain ⟨⟨other, interval⟩, hCall, rfl⟩ := Option.map_eq_some_iff.mp hStep
      cases hAsks : asks name (other, interval) with
      | false => simp [only?, place?_of_neg hCall hAsks] at hMine
      | true =>
          obtain rfl : _ = mine := by simpa [only?, place?_of_pos hCall hAsks] using hMine
          obtain rfl : other = name := of_decide_eq_true hAsks
          obtain ⟨later, hLater, hNext⟩ := h.enroll hKnown hAlone hCall
          exact hKeeps hLater hNext
  | raiseFlag => exact absurd rfl hQuiet
  | cancelOne signal =>
      simp only [step?] at hStep
      rw [if_neg fun hBoth => hNoShutdown hBoth.1] at hStep
      cases hStep
  | cancelRegistered =>
      simp only [step?] at hStep
      rw [if_neg hNoShutdown] at hStep
      cases hStep
  | move id draw stimulus =>
      obtain ⟨cycle, hCycle, hSuits, rfl⟩ := exists_of_move hStep
      cases hFollows : Manager.follows name cycle with
      | false => simp [only?, place?_of_neg hCycle hFollows] at hMine
      | true =>
          obtain rfl : _ = mine := by simpa [only?, place?_of_pos hCycle hFollows] using hMine
          exact h.move hKnown hAlone hCycle (of_decide_eq_true hFollows) hSuits
  | pass nanos =>
      obtain rfl := Option.some.inj hMine
      obtain rfl := Option.some.inj hStep
      exact hKeeps rfl ⟨congrArg (· + nanos) h.now, h.manager, h.calls, h.jobs⟩
  | receive =>
      obtain rfl := Option.some.inj hMine
      have hJobs := hKnown.begun.jobsOf_kept hStep rfl name
      obtain rfl := Option.some.inj hStep
      have hLater : alone.step? .receive = some _ := rfl
      refine hKeeps hLater ⟨h.now, h.manager.withOutbox _ _, h.calls, ?_⟩
      rw [hJobs, hAlone.begun.jobsOf_kept hLater rfl, h.jobs]
  | dropReceiver =>
      obtain rfl := Option.some.inj hMine
      have hJobs := hKnown.begun.jobsOf_kept hStep rfl name
      obtain rfl := Option.some.inj hStep
      have hLater : alone.step? .dropReceiver = some _ := rfl
      refine hKeeps hLater ⟨h.now, h.manager.withOutbox _ _, h.calls, ?_⟩
      rw [hJobs, hAlone.begun.jobsOf_kept hLater rfl, h.jobs]

/-- and an event of which nothing is left changes nothing for the name. -/
theorem step_other (h : Mirrors name numbers session alone) (hKnown : session.Known)
    (hStep : session.step? event = some next) (hNone : session.only? name event = none) :
    Mirrors name numbers next alone := by
  cases event with
  | enter other interval =>
      simp only [only?] at hNone
      split at hNone
      · cases hNone
      · next hOther => exact h.enter_other hOther hStep
  | enroll k =>
      obtain ⟨⟨other, interval⟩, hCall, rfl⟩ := Option.map_eq_some_iff.mp hStep
      cases hAsks : asks name (other, interval) with
      | true => simp [only?, place?_of_pos hCall hAsks] at hNone
      | false => exact h.enroll_other hKnown hCall (of_decide_eq_false hAsks)
  | move id draw stimulus =>
      obtain ⟨cycle, hCycle, hSuits, rfl⟩ := exists_of_move hStep
      cases hFollows : Manager.follows name cycle with
      | true => simp [only?, place?_of_pos hCycle hFollows] at hNone
      | false => exact h.move_other hKnown hCycle (of_decide_eq_false hFollows) hSuits
  | _ => cases hNone

end Mirrors

/-! ## The history of a name -/

/-- What the cycles of a name wait for. -/
def needsOf (name : String) (session : Session) : List Cycle.Need :=
  (session.manager.cycles.filter (Manager.follows name)).map fun cycle => cycle.phase.need

/-- The loss of a lease of a name that an event stands for, with the time. -/
def lossOf? (name : String) (before after : Session) : Option (Nat × LeaseLoss) :=
  ((before.loss? after).filter fun loss => decide (loss.name = name)).map fun loss =>
    (after.now, loss)

/-- The losses of a name in a run, in their order, with their times. -/
def lossesOf (name : String) (start : Session) (events : List Event) : List (Nat × LeaseLoss) :=
  (trace step? start events).filterMap fun (before, _, after) => lossOf? name before after

/-- A loss of a name is its way from held to lost. -/
theorem Struck.lossOf?_eq (h : session.Struck) (hStep : session.step? event = some next)
    (name : String) :
    lossOf? name session next
      = if session.manager.state name = .held ∧ next.manager.state name = .lost then
          some (next.now, ⟨name, session.manager.options.identity,
            session.manager.options.maxFailures⟩)
        else none := by
  cases h.tally hStep with
  | @lost _ _ other _ _ hHeld hLost hOthers _ _ =>
      rw [lossOf?, loss?_of_lost hHeld hLost hOthers]
      by_cases hName : other = name
      · subst hName
        rw [if_pos ⟨hHeld, hLost⟩]
        simp only [Option.filter_some, decide_true, if_true, Option.map_some]
      · have hNot : ¬(session.manager.state name = .held ∧ next.manager.state name = .lost) := by
          rintro ⟨hStill, hGone⟩
          rw [hOthers name (Ne.symm hName), hStill] at hGone
          cases hGone
        simp [hName, if_neg hNot]
  | kept hKept _ _ =>
      rw [lossOf?, loss?_of_kept hKept, if_neg fun hBoth => hKept name hBoth.1 hBoth.2]
      rfl

theorem lossesOf_snoc {start : Session} {events : List Event}
    (hRun : start.run? events = some session) (hStep : session.step? event = some next)
    (name : String) :
    lossesOf name start (events ++ [event])
      = lossesOf name start events ++ (lossOf? name session next).toList := by
  rw [lossesOf, trace_snoc hRun hStep, List.filterMap_append, lossesOf]
  congr 1

theorem only_snoc {start : Session} {events : List Event}
    (hRun : start.run? events = some session) (hStep : session.step? event = some next)
    (name : String) :
    only name start (events ++ [event])
      = only name start events ++ (session.only? name event).toList := by
  rw [only, trace_snoc hRun hStep, List.filterMap_append, only]
  congr 1

/-- A view of a session that shows one name only. -/
def IsViewOf (name : String) {α : Type} (view : Session → α) : Prop :=
  ∀ (numbers : List SignalId) (session alone : Session), session.Known → alone.Known →
    Mirrors name numbers session alone → view session = view alone

theorem isViewOf_state (name : String) :
    IsViewOf name fun session => session.manager.state name :=
  fun _ _ _ _ _ hMirrors => hMirrors.manager.state

theorem isViewOf_jobFlags (name : String) : IsViewOf name (jobFlags name) :=
  fun _ _ _ _ hAlone hMirrors => hMirrors.jobFlags hAlone.jobs

theorem isViewOf_needsOf (name : String) : IsViewOf name (needsOf name) := by
  intro numbers session alone _ _ hMirrors
  have hCycles := hMirrors.manager.cycles
  -- The copies follow the name that the cycles follow.
  have hFollow : ∀ copy ∈ alone.manager.cycles, Manager.follows name copy = true := by
    intro copy hCopy
    have hMem := List.mem_map_of_mem (f := Cycle.renumber (number numbers)) hCopy
    rw [← hCycles] at hMem
    exact (List.mem_filter.mp hMem).2
  rw [needsOf, hCycles, List.map_map, needsOf, List.filter_eq_self.mpr hFollow]
  exact List.map_congr_left fun copy _ => Cycle.Phase.need_renumber

variable {start : Session} {events mine : List Event}

/-- **The run `mine` shows the same of a name as the run `events`.** -/
structure Echoes (name : String) (start : Session) (events mine : List Event) : Prop where
  changes : ∀ {α : Type} [DecidableEq α] (view : Session → α), IsViewOf name view →
    changes step? Session.now view start mine = changes step? Session.now view start events
  losses : lossesOf name start mine = lossesOf name start events

/-- An event that leaves nothing to the name shows nothing of it. -/
theorem Echoes.snoc_other (h : Echoes name start events mine)
    (hRun : start.run? events = some session) (hStep : session.step? event = some next)
    (hKnown : session.Known) (hNext : next.Known) (hAlone : alone.Known)
    (hBefore : Mirrors name numbers session alone) (hAfter : Mirrors name numbers next alone) :
    Echoes name start (events ++ [event]) mine := by
  constructor
  · intro α _ view hView
    have hSame : view next = view session :=
      (hView _ _ _ hNext hAlone hAfter).trans (hView _ _ _ hKnown hAlone hBefore).symm
    rw [changes_snoc _ view hRun hStep, change?_of_eq hSame, Option.toList_none, List.append_nil,
      h.changes view hView]
  · have hSame : next.manager.state name = session.manager.state name :=
      hAfter.manager.state.trans hBefore.manager.state.symm
    have hNone : lossOf? name session next = none := by
      rw [hKnown.struck.lossOf?_eq hStep, hSame]
      refine if_neg ?_
      rintro ⟨hHeld, hLost⟩
      rw [hHeld] at hLost
      cases hLost
    rw [lossesOf_snoc hRun hStep, hNone, Option.toList_none, List.append_nil, h.losses]

/-- An event that happens in both shows the same in both. -/
theorem Echoes.snoc (h : Echoes name start events mine) {later : Session} {left : Event}
    {more : List SignalId}
    (hRun : start.run? events = some session) (hStep : session.step? event = some next)
    (hRunAlone : start.run? mine = some alone) (hStepAlone : alone.step? left = some later)
    (hKnown : session.Known) (hNext : next.Known) (hAlone : alone.Known) (hLater : later.Known)
    (hBefore : Mirrors name numbers session alone)
    (hAfter : Mirrors name (numbers ++ more) next later) :
    Echoes name start (events ++ [event]) (mine ++ [left]) := by
  constructor
  · intro α _ view hView
    rw [changes_snoc _ view hRun hStep, changes_snoc _ view hRunAlone hStepAlone,
      h.changes view hView, change?, change?, hView _ _ _ hKnown hAlone hBefore,
      hView _ _ _ hNext hLater hAfter, hAfter.now]
  · rw [lossesOf_snoc hRun hStep, lossesOf_snoc hRunAlone hStepAlone, h.losses,
      hKnown.struck.lossOf?_eq hStep, hAlone.struck.lossOf?_eq hStepAlone,
      hBefore.manager.state, hAfter.manager.state, hBefore.manager.options, hAfter.now]

/-- What is left of a run is a run, and echoes it. -/
theorem exists_echo (hKnown : start.Known) (hStart : Mirrors name [] start start)
    (hRun : start.run? events = some session) (hQuiet : .raiseFlag ∉ events) :
    ∃ alone numbers, start.run? (only name start events) = some alone ∧
      Mirrors name numbers session alone ∧ Echoes name start events (only name start events) := by
  refine runs?_induction (motive := fun events session => .raiseFlag ∉ events →
    ∃ alone numbers, start.run? (only name start events) = some alone ∧
      Mirrors name numbers session alone ∧ Echoes name start events (only name start events))
    (fun _ => ⟨start, [], rfl, hStart, fun _ _ => rfl, rfl⟩) ?_ hRun hQuiet
  intro events session event next hBefore ih hStep hQuiet
  obtain ⟨alone, numbers, hAlone, hMirrors, hEchoes⟩ :=
    ih fun hMem => hQuiet (List.mem_append_left _ hMem)
  have hEvent : event ≠ .raiseFlag := fun hSame =>
    hQuiet (List.mem_append_right _ (List.mem_singleton.mpr hSame.symm))
  have hSession := hKnown.run hBefore
  have hNext : next.Known := ⟨hSession.struck.step hStep, hSession.begun.step hStep⟩
  have hKnownAlone := hKnown.run hAlone
  rw [only_snoc hBefore hStep]
  cases hOnly : session.only? name event with
  | none =>
      have hAfter := hMirrors.step_other hSession hStep hOnly
      rw [Option.toList_none, List.append_nil]
      exact ⟨alone, numbers, hAlone, hAfter,
        hEchoes.snoc_other hBefore hStep hSession hNext hKnownAlone hMirrors hAfter⟩
  | some mine =>
      obtain ⟨later, more, hLater, hAfter⟩ :=
        hMirrors.step hSession hKnownAlone hStep hEvent hOnly
      have hRunLater : start.run? (only name start events ++ [mine]) = some later := by
        rw [run?, runs?_snoc]
        exact Option.bind_eq_some_iff.mpr ⟨alone, hAlone, hLater⟩
      exact ⟨later, numbers ++ more, hRunLater, hAfter,
        hEchoes.snoc hBefore hStep hAlone hLater hSession hNext hKnownAlone
          (hKnown.run hRunLater) hMirrors hAfter⟩

/-- What has arrived of the losses of a name, and what is on the way. -/
def arrivals (name : String) (start : Session) (events : List Event) (session : Session) :
    List LeaseLoss :=
  (received start events ++ session.manager.outbox.pending).filter fun loss =>
    decide (loss.name = name)

/-- **What becomes of a name among others** in a run from `start` to `session`: without other
names the run can be taken again, and the name has the same history. -/
structure Apart (name : String) (start : Session) (events : List Event) (session : Session) :
    Prop where
  runs : (start.run? (only name start events)).isSome = true
  states : changes step? Session.now (fun session => session.manager.state name) start
      (only name start events)
    = changes step? Session.now (fun session => session.manager.state name) start events
  /-- The signals of its jobs are made and cancelled at the same times, -/
  signals : changes step? Session.now (jobFlags name) start (only name start events)
    = changes step? Session.now (jobFlags name) start events
  /-- its cycles have the same calls of the store and the same waits, -/
  needs : changes step? Session.now (needsOf name) start (only name start events)
    = changes step? Session.now (needsOf name) start events
  losses : lossesOf name start (only name start events) = lossesOf name start events
  /-- and while the receiver is there, it gets the same losses of the name. -/
  arrived : ∀ (alone : Session), start.run? (only name start events) = some alone →
    .dropReceiver ∉ events →
    arrivals name start (only name start events) alone = arrivals name start events session

theorem map_snd_lossesOf (name : String) (start : Session) (events : List Event) :
    (lossesOf name start events).map Prod.snd
      = (losses start events).filter fun loss => decide (loss.name = name) := by
  rw [lossesOf, List.map_filterMap, losses, List.filter_filterMap]
  refine List.filterMap_congr fun step _ => ?_
  simp only [lossOf?, Option.map_map]
  exact Option.map_id'

/-- The receiver goes away only if it goes away among others. -/
theorem dropReceiver_not_mem_only (name : String) (h : .dropReceiver ∉ events) :
    .dropReceiver ∉ only name start events := by
  intro hMem
  obtain ⟨⟨before, event, after⟩, hTrace, hOnly⟩ := List.mem_filterMap.mp hMem
  obtain ⟨early, late, hOccurs⟩ := exists_occurs_of_mem_trace hTrace
  have hEvent : event = .dropReceiver := by
    cases event with
    | enter other interval =>
        simp only [only?] at hOnly
        split at hOnly <;> cases hOnly
    | enroll k =>
        obtain ⟨_, -, hSame⟩ := Option.map_eq_some_iff.mp hOnly
        cases hSame
    | move id draw stimulus =>
        obtain ⟨_, -, hSame⟩ := Option.map_eq_some_iff.mp hOnly
        cases hSame
    | dropReceiver => rfl
    | _ => cases hOnly
  exact h (by simp [hOccurs.split, hEvent])

theorem arrivals_eq (h : Delivered start events session) (hThere : .dropReceiver ∉ events)
    (name : String) :
    arrivals name start events session = (lossesOf name start events).map Prod.snd := by
  rw [arrivals, (h.whole hThere).2, map_snd_lossesOf]

/-- **Names are apart** in every session without a shutdown. -/
theorem apart_of_run {options : Manager.Options} {capacity : Nat} {manager : Manager}
    (hNew : Manager.new options capacity = .ok manager) (hCapacity : 1 ≤ capacity)
    {events : List Event} {session : Session}
    (hRun : (around manager).run? events = some session) (hQuiet : .raiseFlag ∉ events)
    (name : String) : Apart name (around manager) events session := by
  have hKnown : (around manager).Known := .around hNew
  obtain ⟨alone, numbers, hAlone, hMirrors, hEchoes⟩ :=
    exists_echo hKnown (.around hNew name) hRun hQuiet
  constructor
  case runs => rw [hAlone]; rfl
  case states => exact hEchoes.changes _ (isViewOf_state name)
  case signals => exact hEchoes.changes _ (isViewOf_jobFlags name)
  case needs => exact hEchoes.changes _ (isViewOf_needsOf name)
  case losses => exact hEchoes.losses
  case arrived =>
    intro found hFound hThere
    have hStart := Delivered.around hNew hCapacity
    rw [arrivals_eq (hStart.run hKnown.struck hFound) (dropReceiver_not_mem_only name hThere),
      arrivals_eq (hStart.run hKnown.struck hRun) hThere, hEchoes.losses]

/-- A name gets its lock while another one has its lock and then loses it. -/
def oneOfTwoLost : List Event :=
  .enter "job" .short :: .enroll 0 :: firstLease 0
    ++ .enter "mail" .medium :: .enroll 0 :: firstLease 1
    ++ (List.replicate 3 missedBeat).flatten ++ [.move 0 0 .turn, .move 0 0 .turn]

end Session

/-- Two nodes insert the rows of two locks, each between the calls of the other. -/
def Contest.twoFirstRows : List Contest.Event :=
  [.start "a" "job" (.attempt (.ofSeconds 10)), .start "b" "mail" (.attempt (.ofSeconds 10)),
    .serve 0, .serve 1, .tell 1 ⟨3, 0⟩, .tell 0 ⟨5, 0⟩, .serve 1, .serve 0]

/-- **Lock names are independent.**  What happens to a name, in the store that the nodes share and
in each manager until its shutdown, would have happened to it without any other name. -/
theorem names_apart {database table : String} {memory : Memory}
    (hConforms : memory.Conforms (lockSpace database table)) {acts : List Contest.Event}
    {contest : Contest} (hContest : (Contest.around database table memory).run? acts = some contest)
    {options : Manager.Options} {capacity : Nat} {manager : Manager}
    (hNew : Manager.new options capacity = .ok manager) (hCapacity : 1 ≤ capacity)
    {events : List Session.Event} {session : Session}
    (hRun : (Session.around manager).run? events = some session) (hQuiet : .raiseFlag ∉ events)
    (name : String) :
    Contest.Apart name (Contest.around database table memory) acts contest ∧
      Session.Apart name (Session.around manager) events session :=
  ⟨Contest.apart_of_run hConforms hContest name,
    Session.apart_of_run hNew hCapacity hRun hQuiet name⟩

theorem names_apart_of_two :
    Memory.empty.Conforms (lockSpace Lock.standardDatabase Lock.standardTable) ∧
      ∃ contest session,
        (Contest.around Lock.standardDatabase Lock.standardTable .empty).run? Contest.twoFirstRows
          = some contest ∧
        Manager.new (.ofIdentity "a") 1 = .ok Session.soleManager ∧ 1 ≤ 1 ∧
        (Session.around Session.soleManager).run? Session.oneOfTwoLost = some session ∧
        .raiseFlag ∉ Session.oneOfTwoLost ∧
        Contest.Apart "mail" (Contest.around Lock.standardDatabase Lock.standardTable .empty)
          Contest.twoFirstRows contest ∧
        Session.Apart "mail" (Session.around Session.soleManager) Session.oneOfTwoLost session ∧
        contest.lockRow? "mail" = some ⟨"mail", 0, "b", ⟨3, 0⟩⟩ ∧
        session.manager.state "job" = .lost ∧ session.manager.state "mail" = .held := by
  have hConforms := Memory.conforms_empty (lockSpace Lock.standardDatabase Lock.standardTable)
  have hActs : ((Contest.around Lock.standardDatabase Lock.standardTable .empty).run?
      Contest.twoFirstRows).isSome = true := by decide
  have hRuns : ((Session.around Session.soleManager).run? Session.oneOfTwoLost).isSome = true := by
    decide
  obtain ⟨contest, hContest⟩ := Option.isSome_iff_exists.mp hActs
  obtain ⟨session, hRun⟩ := Option.isSome_iff_exists.mp hRuns
  have hRow : ((Contest.around Lock.standardDatabase Lock.standardTable .empty).run?
      Contest.twoFirstRows).bind (fun contest => contest.lockRow? "mail")
      = some ⟨"mail", 0, "b", ⟨3, 0⟩⟩ := by rfl
  have hStates : ((Session.around Session.soleManager).run? Session.oneOfTwoLost).map
      (fun session => (session.manager.state "job", session.manager.state "mail"))
      = some (.lost, .held) := by rfl
  rw [hContest, Option.bind_some] at hRow
  rw [hRun, Option.map_some, Option.some.injEq, Prod.mk.injEq] at hStates
  have hNew : Manager.new (.ofIdentity "a") 1 = .ok Session.soleManager := rfl
  have hQuiet : .raiseFlag ∉ Session.oneOfTwoLost := by
    simp [Session.oneOfTwoLost, Session.firstLease, Session.missedBeat]
  have hApart := names_apart hConforms hContest hNew (Nat.le_refl 1) hRun hQuiet "mail"
  exact ⟨hConforms, contest, session, hContest, hNew, Nat.le_refl 1, hRun, hQuiet, hApart.1,
    hApart.2, hRow, hStates.1, hStates.2⟩

end Leasehold
