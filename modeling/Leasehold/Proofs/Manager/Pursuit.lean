import Leasehold.Proofs.Lock.Delays
import Leasehold.Proofs.Manager.Session

/-!
# Tasks in pursuit of a lock

A task that wants a lock makes attempts until one of them gets it, and waits for a delay after each
that does not.  How the attempts turn out is up to others; when they are made is not, if calls take
no time, deadlines are met exactly and a shutdown wakes the task at once.

* `Standing.Goes`: what can become of a task that is on time, whatever goes on around it.
* `Pursuit`: what is seen of a task in pursuit of a lock; `Pursuit.along` collects it in a run.
* `Pursuit.Stands`: the invariant of runs, by the phase of the task.
* `Pursuit.Exact`: the account of a pursuit; `Pursuit.Stands.exact` shows it.
-/

namespace Leasehold

/-! ## Tasks on time -/

/-- A task as it is found at a time, and whether the flag of a shutdown is raised. -/
structure Standing where
  now : Nat
  flag : Bool
  cycle : Cycle

/-- The waits of a cycle after it has moved to a phase: a miss is followed by a delay. -/
def Cycle.backoffAfter (cycle : Cycle) : Phase → Backoff
  | .waiting _ => cycle.backoff.next
  | _ => cycle.backoff

/-- **What can become of a task** that is on time: time passes while it rests, something else
happens, or it moves. -/
inductive Standing.Goes (before after : Standing) : Prop where
  | passed
      (hRests : before.cycle.phase.need = .finished ∨ ∃ due, before.cycle.phase.need = .pause due ∧
        before.flag = false ∧ after.now ≤ due)
      (hNow : before.now ≤ after.now) (hFlag : after.flag = before.flag)
      (hCycle : after.cycle = before.cycle)
  | kept (hNow : after.now = before.now) (hFlag : before.flag = true → after.flag = true)
      (hCycle : after.cycle = before.cycle)
  | moved {manager : Manager} {draw : Nat} {stimulus : Stimulus}
      (hNow : after.now = before.now) (hFlag : after.flag = before.flag)
      (hManager : manager.shutDown = before.flag)
      (hSuits : stimulus.suits before.now before.flag before.cycle.phase.need = true)
      (hMove : Cycle.Move manager before.cycle ⟨before.now, draw⟩ stimulus before.cycle.phase
        after.cycle.phase)
      (hBackoff : after.cycle.backoff = before.cycle.backoffAfter after.cycle.phase)

theorem Standing.Goes.flag {before after : Standing} (h : before.Goes after)
    (hFlag : before.flag = true) : after.flag = true := by
  cases h with
  | passed hRests hNow hSame => exact hSame.trans hFlag
  | kept hNow hStays => exact hStays hFlag
  | moved hNow hSame => exact hSame.trans hFlag

/-! ## What is seen of a pursuit -/

/-- How the pursuit of a lock ends. -/
inductive PursuitEnd where
  | acquired (version : Int)
  | shutDown
  deriving Repr, DecidableEq

/-- The flag of a shutdown as it is first seen: when, after how many attempts, and whether the task
waits between two of them. -/
structure Pursuit.Alarm where
  time : Nat
  begun : Nat
  inDelay : Bool
  deriving Repr, DecidableEq

/-- What is seen of a task in pursuit of a lock: when its attempts began, their results, the delays
after those that did not get the lock, when and how it ended, and the alarm. -/
structure Pursuit where
  begun : List Nat
  results : List (Except LockError Outcome)
  delays : List Nat
  ends : List (Nat × PursuitEnd)
  alarm? : Option Pursuit.Alarm

/-- The version under which an attempt got the lock. -/
def acquiredVersion? : Except LockError Outcome → Option Int
  | .ok (.acquired version) => some version
  | _ => none

theorem acquiredVersion?_eq_none {result : Except LockError Outcome}
    (h : ∀ version, result ≠ .ok (.acquired version)) : acquiredVersion? result = none := by
  unfold acquiredVersion?
  split
  · exact absurd rfl (h _)
  · rfl

/-- Whether a task waits between two attempts. -/
def Cycle.Phase.isWaiting : Cycle.Phase → Bool
  | .waiting _ => true
  | _ => false

namespace Pursuit

/-- Nothing is seen. -/
def nothing : Pursuit := ⟨[], [], [], [], none⟩

/-- What a move of the task from one phase to another shows. -/
def note (pursuit : Pursuit) (now : Nat) : Cycle.Phase → Cycle.Phase → Pursuit
  | .retrying, .attempting _ => { pursuit with begun := pursuit.begun ++ [now] }
  | .retrying, .leaving => { pursuit with ends := pursuit.ends ++ [(now, .shutDown)] }
  | .attempting attempt, .acquired version =>
    { pursuit with
      results := pursuit.results ++ attempt.result?.toList
      ends := pursuit.ends ++ [(now, .acquired version)] }
  | .attempting attempt, .waiting due =>
    { pursuit with
      results := pursuit.results ++ attempt.result?.toList
      delays := pursuit.delays ++ [due - now] }
  | .waiting _, .leaving => { pursuit with ends := pursuit.ends ++ [(now, .shutDown)] }
  | _, _ => pursuit

/-- A look at the flag. -/
def look (pursuit : Pursuit) (now : Nat) (flag : Bool) (phase : Cycle.Phase) : Pursuit :=
  { pursuit with
    alarm? := pursuit.alarm?.or
      (if flag then some ⟨now, pursuit.begun.length, phase.isWaiting⟩ else none) }

/-- What an event shows of a task. -/
def seen (pursuit : Pursuit) (before after : Standing) : Pursuit :=
  (pursuit.note before.now before.cycle.phase after.cycle.phase).look after.now after.flag
    after.cycle.phase

section

variable {σ ε : Type}

/-- What a run shows of a task. -/
def along (step? : σ → ε → Option σ) (standing? : σ → Option Standing) (start : σ)
    (events : List ε) : Pursuit :=
  (trace step? start events).foldl
    (fun pursuit (before, _, after) =>
      match standing? before, standing? after with
      | some before, some after => pursuit.seen before after
      | _, _ => pursuit)
    (match standing? start with
      | some standing => nothing.look standing.now standing.flag standing.cycle.phase
      | none => nothing)

theorem along_snoc {step? : σ → ε → Option σ} {standing? : σ → Option Standing}
    {start state next : σ} {events : List ε} {event : ε} {before after : Standing}
    (hRun : runs? step? start events = some state) (hStep : step? state event = some next)
    (hBefore : standing? state = some before) (hAfter : standing? next = some after) :
    along step? standing? start (events ++ [event])
      = (along step? standing? start events).seen before after := by
  rw [along, trace_snoc hRun hStep, List.foldl_append, List.foldl_cons, List.foldl_nil, ← along]
  simp only [hBefore, hAfter]

end

/-- A task that stays where it is shows nothing. -/
theorem note_self (pursuit : Pursuit) (now : Nat) (phase : Cycle.Phase) :
    pursuit.note now phase phase = pursuit := by
  cases phase <;> rfl

/-- A look at a flag that is not raised shows nothing. -/
theorem look_false (pursuit : Pursuit) (now : Nat) (phase : Cycle.Phase) :
    pursuit.look now false phase = pursuit := by
  simp [look]

@[simp]
theorem note_alarm? (pursuit : Pursuit) (now : Nat) (phase phase' : Cycle.Phase) :
    (pursuit.note now phase phase').alarm? = pursuit.alarm? := by
  unfold note
  split <;> rfl

/-- An alarm that is seen was seen before, or it is raised now. -/
theorem alarm?_look_cases {pursuit : Pursuit} {now : Nat} {flag : Bool} {phase : Cycle.Phase}
    {alarm : Alarm} (h : alarm ∈ (pursuit.look now flag phase).alarm?) :
    alarm ∈ pursuit.alarm? ∨ alarm = ⟨now, pursuit.begun.length, phase.isWaiting⟩ := by
  rcases Option.or_eq_some_iff.mp h with hOld | ⟨-, hNew⟩
  · exact .inl hOld
  · cases flag with
    | true => exact .inr (Option.some.inj hNew).symm
    | false => cases hNew

/-- Whether an alarm was seen is whether the flag is raised. -/
theorem isSome_alarm?_look {pursuit : Pursuit} {flag later : Bool}
    (h : pursuit.alarm?.isSome = flag) (hStays : flag = true → later = true) (now : Nat)
    (phase : Cycle.Phase) : (pursuit.look now later phase).alarm?.isSome = later := by
  unfold look
  cases later with
  | true => simp
  | false =>
      have hDown : flag = false := Bool.eq_false_iff.mpr fun hUp => by cases hStays hUp
      simp [h, hDown]

end Pursuit

/-! ## The invariant of a pursuit -/

/-- Whether a task does not pursue its lock any more. -/
def Cycle.Phase.isSettled : Cycle.Phase → Bool
  | .retrying | .attempting _ | .waiting _ => false
  | _ => true

/-- A task does not take up its pursuit again. -/
theorem Cycle.Move.isSettled {manager : Manager} {cycle : Cycle} {moment : Moment}
    {stimulus : Stimulus} {phase phase' : Cycle.Phase}
    (h : Cycle.Move manager cycle moment stimulus phase phase') (hPhase : phase.isSettled = true) :
    phase'.isSettled = true := by
  cases h <;> first | rfl | cases hPhase

namespace Pursuit

/-- A task that is not in pursuit any more shows nothing. -/
theorem note_of_isSettled (pursuit : Pursuit) (now : Nat) {phase : Cycle.Phase}
    (h : phase.isSettled = true) (phase' : Cycle.Phase) :
    pursuit.note now phase phase' = pursuit := by
  cases phase <;> first | rfl | cases h

/-- A pursuit that goes on: each attempt that has ended did not get the lock and was followed by a
delay, and an alarm was seen just now. -/
structure Open (pursuit : Pursuit) (first : Backoff) (now : Nat) : Prop where
  generated : first.Generates pursuit.delays
  counted : pursuit.results.length = pursuit.delays.length
  missed : ∀ result ∈ pursuit.results, acquiredVersion? result = none
  unended : pursuit.ends = []
  alarm : ∀ alarm ∈ pursuit.alarm?, alarm.time = now ∧ alarm.begun = pursuit.begun.length

/-- **The invariant of a pursuit.**  The next attempt is due after all delays.  A raised flag is
seen before any time passes.  After the end it is known which of the two ends it was. -/
inductive Stands (pursuit : Pursuit) (start : Nat) (first : Backoff) (now : Nat)
    (backoff : Backoff) : Cycle.Phase → Prop where
  | retrying (hOpen : pursuit.Open first now)
      (hBegun : pursuit.begun = attemptTimes start pursuit.delays pursuit.delays.length)
      (hBackoff : backoff = first.after pursuit.delays.length)
      (hNow : now = start + pursuit.delays.sum) :
      Stands pursuit start first now backoff .retrying
  | attempting {attempt : Attempt} (hOpen : pursuit.Open first now)
      (hBegun : pursuit.begun = attemptTimes start pursuit.delays (pursuit.delays.length + 1))
      (hBackoff : backoff = first.after pursuit.delays.length)
      (hNow : now = start + pursuit.delays.sum)
      (hDelay : ∀ alarm ∈ pursuit.alarm?, alarm.inDelay = false) :
      Stands pursuit start first now backoff (.attempting attempt)
  | waiting {due : Nat} (hOpen : pursuit.Open first now)
      (hBegun : pursuit.begun = attemptTimes start pursuit.delays pursuit.delays.length)
      (hBackoff : backoff = first.after pursuit.delays.length)
      (hDue : due = start + pursuit.delays.sum) (hLate : now ≤ due) :
      Stands pursuit start first now backoff (.waiting due)
  | won {phase : Cycle.Phase} {version : Int} {missed : List (Except LockError Outcome)}
      (hPhase : phase.isSettled = true) (hGenerated : first.Generates pursuit.delays)
      (hBegun : pursuit.begun = attemptTimes start pursuit.delays (pursuit.delays.length + 1))
      (hResults : pursuit.results = missed ++ [.ok (.acquired version)])
      (hCounted : missed.length = pursuit.delays.length)
      (hMissed : ∀ result ∈ missed, acquiredVersion? result = none)
      (hEnds : pursuit.ends = [(start + pursuit.delays.sum, .acquired version)])
      (hNow : start + pursuit.delays.sum ≤ now)
      (hAlarm : ∀ alarm ∈ pursuit.alarm?, start + pursuit.delays.sum ≤ alarm.time ∧
        alarm.begun = pursuit.begun.length ∧ alarm.inDelay = false) :
      Stands pursuit start first now backoff phase
  | left {phase : Cycle.Phase} {alarm : Alarm} (hPhase : phase.isSettled = true)
      (hGenerated : first.Generates pursuit.delays)
      (hBegun : pursuit.begun = attemptTimes start pursuit.delays pursuit.delays.length)
      (hCounted : pursuit.results.length = pursuit.delays.length)
      (hMissed : ∀ result ∈ pursuit.results, acquiredVersion? result = none)
      (hAlarm : pursuit.alarm? = some alarm) (hAttempts : alarm.begun = pursuit.begun.length)
      (hEnds : pursuit.ends = [(alarm.time, .shutDown)])
      (hLate : alarm.time ≤ start + pursuit.delays.sum) :
      Stands pursuit start first now backoff phase

theorem Open.look {pursuit : Pursuit} {first : Backoff} {now : Nat} (h : pursuit.Open first now)
    (flag : Bool) (phase : Cycle.Phase) : (pursuit.look now flag phase).Open first now := by
  refine ⟨h.generated, h.counted, h.missed, h.unended, fun alarm hAlarm => ?_⟩
  rcases alarm?_look_cases hAlarm with hOld | rfl
  · exact h.alarm alarm hOld
  · exact ⟨rfl, rfl⟩

namespace Stands

variable {pursuit : Pursuit} {start now : Nat} {first backoff : Backoff} {phase : Cycle.Phase}

/-- A look at the flag finds it raised now or as it was. -/
theorem look (h : pursuit.Stands start first now backoff phase) (flag : Bool) :
    (pursuit.look now flag phase).Stands start first now backoff phase := by
  cases h with
  | retrying hOpen hBegun hBackoff hNow =>
      exact .retrying (hOpen.look flag .retrying) hBegun hBackoff hNow
  | attempting hOpen hBegun hBackoff hNow hDelay =>
      refine .attempting (hOpen.look flag _) hBegun hBackoff hNow fun alarm hAlarm => ?_
      rcases alarm?_look_cases hAlarm with hOld | rfl
      · exact hDelay alarm hOld
      · rfl
  | waiting hOpen hBegun hBackoff hDue hLate =>
      exact .waiting (hOpen.look flag _) hBegun hBackoff hDue hLate
  | won hPhase hGenerated hBegun hResults hCounted hMissed hEnds hNow hAlarm =>
      refine .won hPhase hGenerated hBegun hResults hCounted hMissed hEnds hNow ?_
      intro alarm hSeen
      rcases alarm?_look_cases hSeen with hOld | rfl
      · exact hAlarm alarm hOld
      · refine ⟨hNow, rfl, ?_⟩
        cases phase <;> first | rfl | cases hPhase
  | left hPhase hGenerated hBegun hCounted hMissed hAlarm hAttempts hEnds hLate =>
      refine .left hPhase hGenerated hBegun hCounted hMissed ?_ hAttempts hEnds hLate
      rw [Pursuit.look, hAlarm]
      rfl

/-- Time passes up to the next attempt, and not at all once the flag is raised. -/
theorem pass {later : Nat} (h : pursuit.Stands start first now backoff phase) (hNow : now ≤ later)
    (hRests : phase.need = .finished ∨ ∃ due, phase.need = .pause due ∧
      pursuit.alarm? = none ∧ later ≤ due) :
    pursuit.Stands start first later backoff phase := by
  cases h with
  | retrying => rcases hRests with hOver | ⟨due, hNeed, -⟩ <;> contradiction
  | attempting =>
      -- An attempt waits for an answer or for its turn, and neither takes time.
      rcases hRests with hOver | ⟨due, hNeed, -⟩
      · exact absurd hOver (Cycle.Need.ofRequest_ne_finished _)
      · exact absurd hNeed (Cycle.Need.ofRequest_ne_pause _ _)
  | waiting hOpen hBegun hBackoff hDue hLate =>
      rcases hRests with hOver | ⟨due, hNeed, hDown, hSoon⟩
      · cases hOver
      · obtain rfl := Cycle.Need.pause.inj hNeed
        -- No alarm was seen, so none is out of date after the time has passed.
        have hNone : ∀ alarm ∈ pursuit.alarm?, alarm.time = later ∧
            alarm.begun = pursuit.begun.length := by simp [hDown]
        exact .waiting ⟨hOpen.generated, hOpen.counted, hOpen.missed, hOpen.unended, hNone⟩ hBegun
          hBackoff hDue hSoon
  | won hPhase hGenerated hBegun hResults hCounted hMissed hEnds hEarlier hAlarm =>
      exact .won hPhase hGenerated hBegun hResults hCounted hMissed hEnds (by omega) hAlarm
  | left hPhase hGenerated hBegun hCounted hMissed hAlarm hAttempts hEnds hLate =>
      exact .left hPhase hGenerated hBegun hCounted hMissed hAlarm hAttempts hEnds hLate

/-- What stands before an attempt. -/
theorem of_retrying (h : pursuit.Stands start first now backoff .retrying) :
    pursuit.Open first now ∧ backoff = first.after pursuit.delays.length ∧
      now = start + pursuit.delays.sum := by
  cases h with
  | retrying hOpen hBegun hBackoff hNow => exact ⟨hOpen, hBackoff, hNow⟩
  | won hPhase => cases hPhase
  | left hPhase => cases hPhase

/-- What stands in an attempt. -/
theorem of_attempting {attempt : Attempt}
    (h : pursuit.Stands start first now backoff (.attempting attempt)) :
    pursuit.Open first now ∧ backoff = first.after pursuit.delays.length ∧
      now = start + pursuit.delays.sum := by
  cases h with
  | attempting hOpen hBegun hBackoff hNow => exact ⟨hOpen, hBackoff, hNow⟩
  | won hPhase => cases hPhase
  | left hPhase => cases hPhase

/-- What stands in a delay. -/
theorem of_waiting {due : Nat} (h : pursuit.Stands start first now backoff (.waiting due)) :
    pursuit.Open first now ∧
      pursuit.begun = attemptTimes start pursuit.delays pursuit.delays.length ∧
      due = start + pursuit.delays.sum ∧ now ≤ due := by
  cases h with
  | waiting hOpen hBegun hBackoff hDue hLate => exact ⟨hOpen, hBegun, hDue, hLate⟩
  | won hPhase => cases hPhase
  | left hPhase => cases hPhase

/-- When the attempts began. -/
theorem exists_begun_eq (h : pursuit.Stands start first now backoff phase) :
    ∃ n ≤ pursuit.delays.length + 1, pursuit.begun = attemptTimes start pursuit.delays n := by
  cases h with
  | retrying hOpen hBegun => exact ⟨_, Nat.le_succ _, hBegun⟩
  | attempting hOpen hBegun => exact ⟨_, Nat.le_refl _, hBegun⟩
  | waiting hOpen hBegun => exact ⟨_, Nat.le_succ _, hBegun⟩
  | won hPhase hGenerated hBegun => exact ⟨_, Nat.le_refl _, hBegun⟩
  | left hPhase hGenerated hBegun => exact ⟨_, Nat.le_succ _, hBegun⟩

/-- What the delays of a pursuit are. -/
theorem generates (h : pursuit.Stands start first now backoff phase) :
    first.Generates pursuit.delays := by
  cases h with
  | retrying hOpen | attempting hOpen | waiting hOpen => exact hOpen.generated
  | won hPhase hGenerated | left hPhase hGenerated => exact hGenerated

/-- As long as a task is in pursuit, it is not late. -/
theorem of_not_isSettled (h : pursuit.Stands start first now backoff phase)
    (hPhase : phase.isSettled = false) :
    pursuit.ends = [] ∧ now ≤ start + pursuit.delays.sum := by
  cases h with
  | retrying hOpen hBegun hBackoff hNow => exact ⟨hOpen.unended, by omega⟩
  | attempting hOpen hBegun hBackoff hNow => exact ⟨hOpen.unended, by omega⟩
  | waiting hOpen hBegun hBackoff hDue hLate => exact ⟨hOpen.unended, by omega⟩
  | won hSettled | left hSettled =>
      rw [hPhase] at hSettled
      cases hSettled

/-- A lock that was got was got before now, and one more attempt was made than there were delays. -/
theorem of_acquired {time : Nat} {version : Int}
    (h : pursuit.Stands start first now backoff phase)
    (hEnds : pursuit.ends = [(time, .acquired version)]) :
    time ≤ now ∧ pursuit.begun.length = pursuit.delays.length + 1 := by
  cases h with
  | retrying hOpen | attempting hOpen | waiting hOpen =>
      rw [hOpen.unended] at hEnds
      cases hEnds
  | won hPhase hGenerated hBegun hResults hCounted hMissed hEnds' hNow =>
      rw [hEnds'] at hEnds
      cases hEnds
      rw [hBegun, length_attemptTimes]
      exact ⟨hNow, rfl⟩
  | left hPhase hGenerated hBegun hCounted hMissed hAlarm hAttempts hEnds' =>
      rw [hEnds'] at hEnds
      cases hEnds

/-- A raised flag ends a pursuit between two attempts. -/
theorem leave {pursuit' : Pursuit} {next : Backoff} (hOpen : pursuit.Open first now)
    (hBegun : pursuit.begun = attemptTimes start pursuit.delays pursuit.delays.length)
    (hLate : now ≤ start + pursuit.delays.sum) (hRaised : pursuit.alarm?.isSome = true)
    (hNext : pursuit' = { pursuit with ends := pursuit.ends ++ [(now, .shutDown)] }) :
    pursuit'.Stands start first now next .leaving := by
  subst hNext
  obtain ⟨alarm, hAlarm⟩ := Option.isSome_iff_exists.mp hRaised
  -- While the pursuit is open, the alarm that was seen was seen just now.
  obtain ⟨hTime, hAttempts⟩ := hOpen.alarm alarm hAlarm
  have hInTime : alarm.time ≤ start + pursuit.delays.sum := by omega
  refine .left rfl hOpen.generated hBegun hOpen.counted hOpen.missed hAlarm hAttempts ?_ hInTime
  rw [hTime, hOpen.unended]
  rfl

/-- The end of an attempt is seen. -/
theorem results_note {attempt : Attempt} {result : Except LockError Outcome}
    (hResult : attempt.result? = some result) (pursuit : Pursuit) :
    pursuit.results ++ attempt.result?.toList = pursuit.results ++ [result] := by
  rw [hResult]
  rfl

/-- An attempt that gets the lock ends the pursuit. -/
theorem win {attempt : Attempt} {version : Int} {next : Backoff}
    (h : pursuit.Stands start first now backoff (.attempting attempt))
    (hResult : attempt.result? = some (.ok (.acquired version))) :
    (pursuit.note now (.attempting attempt) (.acquired version)).Stands start first now next
      (.acquired version) := by
  cases h with
  | attempting hOpen hBegun hBackoff hNow hDelay =>
      have hResults := results_note hResult pursuit
      have hReached : start + pursuit.delays.sum ≤ now := by omega
      refine .won rfl hOpen.generated hBegun hResults hOpen.counted hOpen.missed ?_ hReached ?_
      · show pursuit.ends ++ [(now, PursuitEnd.acquired version)] = _
        rw [hOpen.unended, hNow]
        rfl
      · intro alarm hAlarm
        obtain ⟨hTime, hAttempts⟩ := hOpen.alarm alarm hAlarm
        exact ⟨hTime.symm ▸ hReached, hAttempts, hDelay alarm hAlarm⟩
  | won hPhase => cases hPhase
  | left hPhase => cases hPhase

/-- An attempt that does not get the lock is followed by the next delay. -/
theorem miss {attempt : Attempt} {result : Except LockError Outcome}
    (h : pursuit.Stands start first now backoff (.attempting attempt))
    (hResult : attempt.result? = some result)
    (hMissed : ∀ version, result ≠ .ok (.acquired version)) (draw : Nat) :
    (pursuit.note now (.attempting attempt)
      (.waiting (now + (backoff.delay draw).nanos))).Stands start first now backoff.next
      (.waiting (now + (backoff.delay draw).nanos)) := by
  cases h with
  | attempting hOpen hBegun hBackoff hNow hDelay =>
      -- The task draws from the wait that has made all earlier delays.
      have hGenerated := hOpen.generated.concat draw
      rw [← hBackoff] at hGenerated
      generalize (backoff.delay draw).nanos = delay at hGenerated ⊢
      have hCount : (pursuit.delays ++ [delay]).length = pursuit.delays.length + 1 := by
        rw [List.length_append, List.length_singleton]
      have hNoted : pursuit.note now (.attempting attempt) (.waiting (now + delay))
          = { pursuit with
            results := pursuit.results ++ [result]
            delays := pursuit.delays ++ [delay] } := by
        rw [note, results_note hResult, Nat.add_sub_cancel_left]
      rw [hNoted]
      refine .waiting ⟨hGenerated, ?_, ?_, hOpen.unended, hOpen.alarm⟩ ?_ ?_ ?_
        (Nat.le_add_right _ _)
      · rw [hCount, List.length_append, List.length_singleton, hOpen.counted]
      · intro other hMem
        rcases List.mem_append.mp hMem with hOld | hNew
        · exact hOpen.missed other hOld
        · rw [List.mem_singleton.mp hNew]
          exact acquiredVersion?_eq_none hMissed
      · rw [hCount, attemptTimes_concat, hBegun]
      · rw [hCount, hBackoff]
        rfl
      · rw [hNow, List.sum_append, List.sum_singleton, Nat.add_assoc]
  | won hPhase => cases hPhase
  | left hPhase => cases hPhase

/-- **What a move keeps.**  An attempt begins when it is due, and ends the pursuit if it gets the
lock; otherwise the next delay follows. -/
theorem move {manager : Manager} {cycle : Cycle} {draw : Nat} {stimulus : Stimulus}
    {phase' : Cycle.Phase}
    (h : pursuit.Stands start first now cycle.backoff phase)
    (hMove : Cycle.Move manager cycle ⟨now, draw⟩ stimulus phase phase')
    (hSuits : stimulus.suits now manager.shutDown phase.need = true)
    (hRaised : pursuit.alarm?.isSome = manager.shutDown) :
    (pursuit.note now phase phase').Stands start first now (cycle.backoffAfter phase') phase' := by
  cases h with
  | retrying hOpen hBegun hBackoff hNow =>
      cases hMove with
      | quit hFlag => exact leave hOpen hBegun (by omega) (hRaised.trans hFlag) rfl
      | attempt hFlag =>
          -- An attempt begins only if the flag is down, so that no alarm was seen.
          have hSilent : pursuit.alarm? = none :=
            Option.not_isSome_iff_eq_none.mp (by rw [hRaised, hFlag]; exact Bool.false_ne_true)
          have hNone : ∀ alarm ∈ pursuit.alarm?, False := by simp [hSilent]
          refine .attempting ⟨hOpen.generated, hOpen.counted, hOpen.missed, hOpen.unended, ?_⟩ ?_
            hBackoff hNow ?_
          · exact fun alarm hAlarm => (hNone alarm hAlarm).elim
          · show pursuit.begun ++ [now] = _
            rw [hBegun, hNow]
            exact (attemptTimes_succ _ _).symm
          · exact fun alarm hAlarm => (hNone alarm hAlarm).elim
  | @attempting attempt hOpen hBegun hBackoff hNow hDelay =>
      have hStands : pursuit.Stands start first now cycle.backoff (.attempting attempt) :=
        .attempting hOpen hBegun hBackoff hNow hDelay
      cases hMove with
      | win hResult => exact hStands.win hResult
      | miss hResult hMissed => exact hStands.miss hResult hMissed draw
      | answer => exact .attempting hOpen hBegun hBackoff hNow hDelay
  | waiting hOpen hBegun hBackoff hDue hLate =>
      cases hMove with
      | retry =>
          -- The deadline has come, and it was not missed.
          have hCome : _ ≤ now := of_decide_eq_true hSuits
          have hExact : now = start + pursuit.delays.sum := by omega
          exact .retrying hOpen hBegun hBackoff hExact
      | wakeWaiting => exact leave hOpen hBegun (by omega) (hRaised.trans hSuits) rfl
  | won hPhase hGenerated hBegun hResults hCounted hMissed hEnds hNow hAlarm =>
      rw [note_of_isSettled pursuit now hPhase]
      exact .won (hMove.isSettled hPhase) hGenerated hBegun hResults hCounted hMissed hEnds hNow
        hAlarm
  | left hPhase hGenerated hBegun hCounted hMissed hAlarm hAttempts hEnds hLate =>
      rw [note_of_isSettled pursuit now hPhase]
      exact .left (hMove.isSettled hPhase) hGenerated hBegun hCounted hMissed hAlarm hAttempts
        hEnds hLate

end Stands
end Pursuit

/-- A task whose pursuit stands, and an alarm that was seen if the flag is raised. -/
structure Pursued (start : Nat) (first : Backoff) (pursuit : Pursuit) (standing : Standing) :
    Prop where
  stands : pursuit.Stands start first standing.now standing.cycle.backoff standing.cycle.phase
  alarm : pursuit.alarm?.isSome = standing.flag

namespace Pursued

variable {start : Nat} {first : Backoff} {pursuit : Pursuit} {before after : Standing}

/-- A pursuit begins. -/
theorem begin {standing : Standing} (hPhase : standing.cycle.phase = .retrying) :
    Pursued standing.now standing.cycle.backoff
      (Pursuit.nothing.look standing.now standing.flag standing.cycle.phase) standing := by
  have hNothing : Pursuit.nothing.Stands standing.now standing.cycle.backoff standing.now
      standing.cycle.backoff .retrying :=
    .retrying ⟨Backoff.generates_nil _, rfl, nofun, rfl, nofun⟩ rfl rfl rfl
  rw [← hPhase] at hNothing
  exact ⟨hNothing.look standing.flag, by cases h : standing.flag <;> rfl⟩

/-- **Whatever happens, the pursuit stands.** -/
theorem goes (h : Pursued start first pursuit before) (hGoes : before.Goes after) :
    Pursued start first (pursuit.seen before after) after := by
  have hNoted : (pursuit.note before.now before.cycle.phase after.cycle.phase).alarm?.isSome
      = before.flag := by
    rw [Pursuit.note_alarm?]
    exact h.alarm
  refine ⟨?_, Pursuit.isSome_alarm?_look hNoted hGoes.flag _ _⟩
  cases hGoes with
  | passed hRests hNow hFlag hCycle =>
      rw [Pursuit.seen, hCycle, Pursuit.note_self]
      refine (h.stands.pass hNow ?_).look _
      refine hRests.imp_right ?_
      rintro ⟨due, hNeed, hDown, hSoon⟩
      have hSilent := h.alarm
      rw [hDown] at hSilent
      exact ⟨due, hNeed, Option.not_isSome_iff_eq_none.mp (Bool.eq_false_iff.mp hSilent), hSoon⟩
  | kept hNow hFlag hCycle =>
      rw [Pursuit.seen, hCycle, Pursuit.note_self, hNow]
      exact h.stands.look _
  | moved hNow hFlag hManager hSuits hMove hBackoff =>
      rw [Pursuit.seen, hNow, hBackoff]
      rw [← hManager] at hSuits
      exact (h.stands.move hMove hSuits (h.alarm.trans hManager.symm)).look _

/-- **Every run keeps the pursuit**, in whatever system the task runs. -/
theorem along {σ ε : Type} {step? : σ → ε → Option σ} {standing? : σ → Option Standing}
    {initial state : σ} {events : List ε} {standing : Standing}
    (hGoes : ∀ state event next before, step? state event = some next →
      standing? state = some before → ∃ after, standing? next = some after ∧ before.Goes after)
    (hStart : standing? initial = some standing) (hPhase : standing.cycle.phase = .retrying)
    (hRun : runs? step? initial events = some state) :
    ∃ later, standing? state = some later ∧ Pursued standing.now standing.cycle.backoff
      (Pursuit.along step? standing? initial events) later := by
  refine runs?_induction (motive := fun events state => ∃ later, standing? state = some later ∧
    Pursued standing.now standing.cycle.backoff
      (Pursuit.along step? standing? initial events) later) ?_ ?_ hRun
  · refine ⟨standing, hStart, ?_⟩
    simp only [Pursuit.along, trace, List.foldl_nil, hStart]
    exact .begin hPhase
  · rintro events state event next hBefore ⟨before, hFound, hPursued⟩ hStep
    obtain ⟨after, hAfter, hMoved⟩ := hGoes state event next before hStep hFound
    refine ⟨after, hAfter, ?_⟩
    rw [Pursuit.along_snoc hBefore hStep hFound hAfter]
    exact hPursued.goes hMoved

end Pursued

/-! ## The account of a pursuit -/

/-- **The account of a pursuit** up to a time.
* The first attempt begins at the start, each other one exactly one delay after the one before, and
  the delays are those that the policy generates, one after each attempt that did not get the lock.
* The lock is had under a version exactly if this is the version of the first attempt that got it,
  at the time of this attempt, and no attempt follows.
* Otherwise only the flag of a shutdown ends the pursuit, at the time at which it is raised; no
  attempt begins after that.  A flag that is raised in a delay always does.
* Until the end nothing is late. -/
structure Pursuit.Exact (pursuit : Pursuit) (start : Nat) (first : Backoff) (now : Nat) :
    Prop where
  generated : first.Generates pursuit.delays
  missed : pursuit.delays.length
    = (pursuit.results.filter fun result => (acquiredVersion? result).isNone).length
  begun_first : ∀ time, pursuit.begun[0]? = some time → time = start
  begun_next : ∀ k time, pursuit.begun[k + 1]? = some time → ∃ earlier delay,
    pursuit.begun[k]? = some earlier ∧ pursuit.delays[k]? = some delay ∧ time = earlier + delay
  once : pursuit.ends.length ≤ 1
  returned : ∀ version, (∃ time, (time, .acquired version) ∈ pursuit.ends)
    ↔ pursuit.results.findSome? acquiredVersion? = some version
  last : ∀ time version, (time, .acquired version) ∈ pursuit.ends →
    pursuit.begun.getLast? = some time ∧ pursuit.results.length = pursuit.begun.length ∧
      pursuit.results.getLast? = some (.ok (.acquired version))
  stopped : ∀ time, (time, .shutDown) ∈ pursuit.ends → ∃ alarm ∈ pursuit.alarm?, alarm.time = time
  alarmed : ∀ alarm ∈ pursuit.alarm?, pursuit.begun.length = alarm.begun ∧
    (alarm.time < now → pursuit.ends = [(alarm.time, .shutDown)] ∨ alarm.inDelay = false ∧
      ∃ time version, time ≤ alarm.time ∧ pursuit.ends = [(time, .acquired version)])
  prompt : pursuit.ends = [] →
    now ≤ start + pursuit.delays.sum ∧ pursuit.delays.length ≤ pursuit.begun.length

namespace Pursuit

variable {pursuit : Pursuit} {start now : Nat} {first backoff : Backoff} {phase : Cycle.Phase}

/-- Among results that are all misses no version is found. -/
theorem findSome?_of_missed {results : List (Except LockError Outcome)}
    (h : ∀ result ∈ results, acquiredVersion? result = none) :
    results.findSome? acquiredVersion? = none :=
  List.findSome?_eq_none_iff.mpr h

theorem filter_of_missed {results : List (Except LockError Outcome)}
    (h : ∀ result ∈ results, acquiredVersion? result = none) :
    (results.filter fun result => (acquiredVersion? result).isNone) = results :=
  List.filter_eq_self.mpr fun result hMem => by rw [h result hMem]; rfl

theorem begun_first_of_eq {n : Nat} (h : pursuit.begun = attemptTimes start pursuit.delays n) :
    ∀ time, pursuit.begun[0]? = some time → time = start := by
  intro time hTime
  rw [h, getElem?_attemptTimes_eq_some_iff] at hTime
  obtain ⟨-, rfl⟩ := hTime
  simp

/-- The account of a pursuit that goes on. -/
theorem Open.exact {n : Nat} (h : pursuit.Open first now)
    (hBegun : pursuit.begun = attemptTimes start pursuit.delays n)
    (hFew : n ≤ pursuit.delays.length + 1) (hMany : pursuit.delays.length ≤ n)
    (hNow : now ≤ start + pursuit.delays.sum) : pursuit.Exact start first now := by
  constructor
  · exact h.generated
  · rw [filter_of_missed h.missed, h.counted]
  · exact begun_first_of_eq hBegun
  · intro k time hTime
    rw [hBegun] at hTime ⊢
    exact exists_delay_of_attemptTimes hFew hTime
  · simp [h.unended]
  · simp [h.unended, findSome?_of_missed h.missed]
  · simp [h.unended]
  · simp [h.unended]
  · intro alarm hAlarm
    obtain ⟨hTime, hAttempts⟩ := h.alarm alarm hAlarm
    exact ⟨hAttempts.symm, fun hPassed => by omega⟩
  · intro _
    rw [hBegun, length_attemptTimes]
    exact ⟨hNow, hMany⟩

/-- **The invariant gives the account.** -/
theorem Stands.exact (h : pursuit.Stands start first now backoff phase) :
    pursuit.Exact start first now := by
  cases h with
  | retrying hOpen hBegun hBackoff hNow =>
      exact hOpen.exact hBegun (by omega) (by omega) (by omega)
  | attempting hOpen hBegun hBackoff hNow =>
      exact hOpen.exact hBegun (by omega) (by omega) (by omega)
  | waiting hOpen hBegun hBackoff hDue hLate =>
      exact hOpen.exact hBegun (by omega) (by omega) (by omega)
  | @won _ version missed hPhase hGenerated hBegun hResults hCounted hMissed hEnds hNow hAlarm =>
      have hLength : pursuit.results.length = pursuit.begun.length := by
        rw [hBegun, hResults, List.length_append, List.length_singleton, hCounted,
          length_attemptTimes]
      constructor
      · exact hGenerated
      · rw [hResults, List.filter_append, filter_of_missed hMissed]
        simp [acquiredVersion?, hCounted]
      · exact begun_first_of_eq hBegun
      · intro k time hTime
        rw [hBegun] at hTime ⊢
        exact exists_delay_of_attemptTimes (Nat.le_refl _) hTime
      · simp [hEnds]
      · intro other
        rw [hResults, List.findSome?_append, findSome?_of_missed hMissed]
        simp [hEnds, acquiredVersion?, eq_comm]
      · intro time other hMem
        rw [hEnds, List.mem_singleton] at hMem
        cases hMem
        refine ⟨?_, hLength, ?_⟩
        · rw [hBegun, attemptTimes_succ, List.getLast?_concat]
        · rw [hResults, List.getLast?_concat]
      · simp [hEnds]
      · -- A flag that is raised after the last attempt has begun comes too late.
        intro alarm hSeen
        obtain ⟨hTime, hAttempts, hDelay⟩ := hAlarm alarm hSeen
        exact ⟨hAttempts.symm, fun _ => .inr ⟨hDelay, _, version, hTime, hEnds⟩⟩
      · simp [hEnds]
  | @left _ alarm hPhase hGenerated hBegun hCounted hMissed hAlarm hAttempts hEnds hLate =>
      constructor
      · exact hGenerated
      · rw [filter_of_missed hMissed, hCounted]
      · exact begun_first_of_eq hBegun
      · intro k time hTime
        rw [hBegun] at hTime ⊢
        exact exists_delay_of_attemptTimes (Nat.le_succ _) hTime
      · simp [hEnds]
      · simp [hEnds, findSome?_of_missed hMissed]
      · simp [hEnds]
      · intro time hMem
        rw [hEnds, List.mem_singleton] at hMem
        cases hMem
        exact ⟨alarm, hAlarm, rfl⟩
      · intro other hOther
        obtain rfl := Option.some.inj (hAlarm.symm.trans hOther)
        exact ⟨hAttempts.symm, fun _ => .inl hEnds⟩
      · simp [hEnds]

end Pursuit
end Leasehold
