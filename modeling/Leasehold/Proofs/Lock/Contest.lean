import Leasehold.Proofs.Data.Runs
import Leasehold.Proofs.Lock.RowStep
import Leasehold.Simulation.Race

/-!
# Contests for locks

Any number of nodes work on the locks of one table at the same time.  Each attempt, each
renewal and each lookup is an errand; between two requests of one errand any others may
come, and a request that goes to the store is answered by the store or fails without an
effect.  A run is a list of such events, so it is every interleaving there is.

* `Contest`: a memory store, the errands in the order in which they began, and the
  attempts that have won, in the order of their writes.
* `Contest.step?`, `Contest.run?`: one event and a list of events.
* `Contest.Legal`: the invariant of runs; the store holds locks and every errand works on
  its table.
* `Contest.RowChange`: what one event can do to the row of a name, and which wins it
  records.  `rowChange_of_step?` shows that there is nothing else.
-/

namespace Leasehold

/-- What a node sets out to do with a lock. -/
inductive Contest.Task where
  | attempt (lease : Span)
  | renewal
  | lookup
  deriving Repr

/-- The errand of a task that begins. -/
def Contest.Task.start (claimant : Claimant) : Contest.Task → Errand
  | .attempt lease => .attempt (.start claimant lease)
  | .renewal => .renewal (.start claimant)
  | .lookup => .lookup (.start claimant)

/-- An attempt that has got its lock: which errand it is, who made it, and the version that
it returned. -/
structure Contest.Win where
  errand : Nat
  claimant : Claimant
  version : Int
  deriving Repr, DecidableEq

/-- Errands of any number of nodes on one lock table. -/
structure Contest where
  database : String
  table : String
  memory : Memory
  errands : List Errand
  wins : List Contest.Win
  deriving Repr

/-- What happens next: an errand begins, it reads the clock, the store serves its call, or
its call fails. -/
inductive Contest.Event where
  | start (identity name : String) (task : Contest.Task)
  | tell (id : Nat) (now : Instant)
  | serve (id : Nat)
  | fail (id : Nat) (error : StoreError)
  deriving Repr

/-- The version with which an errand has got its lock. -/
def Errand.acquired? : Errand → Option Int
  | .attempt a =>
    match a.stage with
    | .finished (.ok (.acquired version)) => some version
    | _ => none
  | _ => none

namespace Contest

/-- The lock table that the errands work on. -/
def space (contest : Contest) : Space := lockSpace contest.database contest.table

/-- The row of a lock. -/
def lockRow? (contest : Contest) (name : String) : Option LockRow :=
  contest.memory.lockRow? contest.space name

/-- The wins of a lock, in the order of their writes. -/
def winsOf (contest : Contest) (name : String) : List Win :=
  contest.wins.filter fun win => decide (win.claimant.name = name)

/-- The contest on a store before the first errand begins. -/
def around (database table : String) (memory : Memory) : Contest :=
  ⟨database, table, memory, [], []⟩

/-- The contest with one errand moved on. -/
def withErrand (contest : Contest) (id : Nat) (errand : Errand) : Contest :=
  { contest with errands := contest.errands.set id errand }

/-- The win that an errand has just had, if it has. -/
def winOf (id : Nat) (errand : Errand) : List Win :=
  (errand.acquired?.map fun version => ⟨id, errand.claimant, version⟩).toList

/-- The contest after the store has served the call of an errand. -/
def served (contest : Contest) (id : Nat) (errand : Errand) (call : Call) : Contest :=
  let outcome := contest.memory.perform call
  let next := errand.resume (.reply outcome.1)
  { contest.withErrand id next with
    memory := outcome.2
    wins := contest.wins ++ winOf id next }

/-- An errand with the request that it waits for. -/
def pending? (contest : Contest) (id : Nat) : Option (Errand × Request) :=
  contest.errands[id]?.bind fun errand => errand.request?.map fun request => (errand, request)

/-- One event; `none` if it cannot happen. -/
def step? (contest : Contest) : Event → Option Contest
  | .start identity name task =>
    some { contest with
      errands := contest.errands ++ [task.start ⟨contest.space, identity, name⟩] }
  | .tell id now =>
    match contest.pending? id with
    | some (errand, .time) => some (contest.withErrand id (errand.resume (.time now)))
    | _ => none
  | .serve id =>
    match contest.pending? id with
    | some (errand, .call call) => some (contest.served id errand call)
    | _ => none
  | .fail id error =>
    match contest.pending? id with
    | some (errand, .call _) =>
      some (contest.withErrand id (errand.resume (.reply (.error error))))
    | _ => none

/-- A run of events. -/
def run? (contest : Contest) (events : List Event) : Option Contest := runs? step? contest events

/-! ## What an event does -/

theorem pending?_eq_some {contest : Contest} {id : Nat} {errand : Errand} {request : Request}
    (h : contest.pending? id = some (errand, request)) :
    contest.errands[id]? = some errand ∧ errand.request? = some request := by
  obtain ⟨found, hFound, hRequest⟩ := Option.bind_eq_some_iff.mp h
  obtain ⟨asked, hAsked, hPair⟩ := Option.map_eq_some_iff.mp hRequest
  obtain ⟨rfl, rfl⟩ := Prod.mk.inj hPair
  exact ⟨hFound, hAsked⟩

/-- The four events by what they need and what they leave. -/
inductive Step (contest : Contest) : Event → Contest → Prop where
  | start (identity name : String) (task : Task) :
      Step contest (.start identity name task)
        { contest with
          errands := contest.errands ++ [task.start ⟨contest.space, identity, name⟩] }
  | tell {id : Nat} {errand : Errand} (now : Instant)
      (hErrand : contest.errands[id]? = some errand) (hRequest : errand.request? = some .time) :
      Step contest (.tell id now) (contest.withErrand id (errand.resume (.time now)))
  | serve {id : Nat} {errand : Errand} {call : Call}
      (hErrand : contest.errands[id]? = some errand)
      (hRequest : errand.request? = some (.call call)) :
      Step contest (.serve id) (contest.served id errand call)
  | fail {id : Nat} {errand : Errand} {call : Call} (error : StoreError)
      (hErrand : contest.errands[id]? = some errand)
      (hRequest : errand.request? = some (.call call)) :
      Step contest (.fail id error) (contest.withErrand id (errand.resume (.reply (.error error))))

theorem step_of_step? {contest next : Contest} {event : Event}
    (h : contest.step? event = some next) : Step contest event next := by
  cases event with
  | start identity name task =>
      obtain rfl := Option.some.inj h
      exact .start identity name task
  | tell id now =>
      simp only [step?] at h
      split at h
      · next errand hPending =>
        obtain rfl := Option.some.inj h
        obtain ⟨hErrand, hRequest⟩ := pending?_eq_some hPending
        exact .tell now hErrand hRequest
      · cases h
  | serve id =>
      simp only [step?] at h
      split at h
      · next errand call hPending =>
        obtain rfl := Option.some.inj h
        obtain ⟨hErrand, hRequest⟩ := pending?_eq_some hPending
        exact .serve hErrand hRequest
      · cases h
  | fail id error =>
      simp only [step?] at h
      split at h
      · next errand call hPending =>
        obtain rfl := Option.some.inj h
        obtain ⟨hErrand, hRequest⟩ := pending?_eq_some hPending
        exact .fail error hErrand hRequest
      · cases h

/-- Where an errand that is there after an event comes from: it was there before, it has
just begun, or the event moved it on. -/
inductive Origin (contest : Contest) (event : Event) (id : Nat) (errand : Errand) : Prop where
  | same (hErrand : contest.errands[id]? = some errand)
  | begun {identity name : String} {task : Task}
      (hNext : errand = task.start ⟨contest.space, identity, name⟩)
  | told {earlier : Errand} {now : Instant} (hEvent : event = .tell id now)
      (hErrand : contest.errands[id]? = some earlier) (hRequest : earlier.request? = some .time)
      (hNext : errand = earlier.resume (.time now))
  | served {earlier : Errand} {call : Call} (hEvent : event = .serve id)
      (hErrand : contest.errands[id]? = some earlier)
      (hRequest : earlier.request? = some (.call call))
      (hNext : errand = earlier.resume (.reply (contest.memory.perform call).1))
  | failed {earlier : Errand} {call : Call} {error : StoreError} (hEvent : event = .fail id error)
      (hErrand : contest.errands[id]? = some earlier)
      (hRequest : earlier.request? = some (.call call))
      (hNext : errand = earlier.resume (.reply (.error error)))

/-- An errand in a list in which one was replaced is the new one, or was there before. -/
theorem getElem?_set_cases {errands : List Errand} {target id : Nat} {moved errand : Errand}
    (h : (errands.set target moved)[id]? = some errand) :
    target = id ∧ errand = moved ∨ errands[id]? = some errand := by
  by_cases hId : target = id
  · subst hId
    obtain ⟨hBound, -⟩ := List.getElem?_eq_some_iff.mp h
    rw [List.length_set] at hBound
    rw [List.getElem?_set_self hBound] at h
    exact .inl ⟨rfl, (Option.some.inj h).symm⟩
  · rw [List.getElem?_set_ne hId] at h
    exact .inr h

theorem Step.origin {contest next : Contest} {event : Event} (hStep : Step contest event next)
    {id : Nat} {errand : Errand} (h : next.errands[id]? = some errand) :
    Origin contest event id errand := by
  cases hStep with
  | start identity name task =>
      rcases Nat.lt_or_ge id contest.errands.length with hBound | hBound
      · rw [List.getElem?_append_left hBound] at h
        exact .same h
      · rw [List.getElem?_append_right hBound] at h
        obtain ⟨hZero, hNew⟩ := List.getElem?_eq_some_iff.mp h
        rw [List.getElem_singleton] at hNew
        exact .begun hNew.symm
  | tell now hErrand hRequest =>
      rcases getElem?_set_cases h with ⟨rfl, hNext⟩ | hSame
      · exact .told rfl hErrand hRequest hNext
      · exact .same hSame
  | serve hErrand hRequest =>
      rcases getElem?_set_cases h with ⟨rfl, hNext⟩ | hSame
      · exact .served rfl hErrand hRequest hNext
      · exact .same hSame
  | fail error hErrand hRequest =>
      rcases getElem?_set_cases h with ⟨rfl, hNext⟩ | hSame
      · exact .failed rfl hErrand hRequest hNext
      · exact .same hSame

/-- An errand that has ended stays as it is. -/
theorem Step.getElem?_of_ended {contest next : Contest} {event : Event}
    (hStep : Step contest event next) {id : Nat} {errand : Errand}
    (h : contest.errands[id]? = some errand) (hEnded : errand.request? = none) :
    next.errands[id]? = some errand := by
  have hSet : ∀ {target : Nat} {waiting : Errand} {request : Request} (moved : Errand),
      contest.errands[target]? = some waiting → waiting.request? = some request →
      (contest.errands.set target moved)[id]? = some errand := by
    intro target waiting request moved hWaiting hRequest
    have hOther : target ≠ id := by
      rintro rfl
      obtain rfl : waiting = errand := Option.some.inj (hWaiting.symm.trans h)
      rw [hEnded] at hRequest
      cases hRequest
    rw [List.getElem?_set_ne hOther]
    exact h
  cases hStep with
  | start identity name task =>
      obtain ⟨hBound, -⟩ := List.getElem?_eq_some_iff.mp h
      exact (List.getElem?_append_left hBound).trans h
  | tell now hErrand hRequest => exact hSet _ hErrand hRequest
  | serve hErrand hRequest => exact hSet _ hErrand hRequest
  | fail error hErrand hRequest => exact hSet _ hErrand hRequest

/-- **The invariant of runs.**  The store holds locks, and every errand works on them. -/
structure Legal (contest : Contest) : Prop where
  locks : contest.memory.HoldsLocks contest.space
  spaces : ∀ errand ∈ contest.errands, errand.claimant.space = contest.space

theorem legal_around {database table : String} {memory : Memory}
    (h : memory.HoldsLocks (lockSpace database table)) :
    (around database table memory).Legal :=
  ⟨h, by simp [around]⟩

/-! ## What an event does to one row -/

/-- **All that can happen to a lock.**  One event keeps its row, renews it for its owner,
creates it, or passes it on at the version that the winner had read; only the last two
record a win. -/
inductive RowChange (contest next : Contest) (event : Event) (name : String) : Prop where
  | kept
      (hRow : next.lockRow? name = contest.lockRow? name)
      (hWins : next.winsOf name = contest.winsOf name)
  | renewed {id : Nat} {renewal : Renewal} {now : Instant} {row : LockRow}
      (hEvent : event = .serve id)
      (hErrand : contest.errands[id]? = some (.renewal renewal))
      (hStage : renewal.stage = .writing now) (hName : renewal.claimant.name = name)
      (hRow : contest.lockRow? name = some row)
      (hOwner : row.owner = renewal.claimant.identity)
      (hNext : next.lockRow? name = some (row.renewedAt now))
      (hWins : next.winsOf name = contest.winsOf name)
  | created {id : Nat} {attempt : Attempt} {now : Instant}
      (hEvent : event = .serve id)
      (hErrand : contest.errands[id]? = some (.attempt attempt))
      (hStage : attempt.stage = .inserting now) (hName : attempt.claimant.name = name)
      (hRow : contest.lockRow? name = none)
      (hNext : next.lockRow? name = some (.first name attempt.claimant.identity now))
      (hWins : next.winsOf name = contest.winsOf name ++ [⟨id, attempt.claimant, 0⟩])
  | taken {id : Nat} {attempt : Attempt} {read row : LockRow} {now : Instant}
      (hEvent : event = .serve id)
      (hErrand : contest.errands[id]? = some (.attempt attempt))
      (hStage : attempt.stage = .replacing read now) (hName : attempt.claimant.name = name)
      (hRow : contest.lockRow? name = some row) (hVersion : row.version = read.version)
      (hNext : next.lockRow? name = some (row.takenBy attempt.claimant read.version now))
      (hWins : next.winsOf name
        = contest.winsOf name ++ [⟨id, attempt.claimant, read.version + 1⟩])

theorem claimant_resume (errand : Errand) (response : Response) :
    (errand.resume response).claimant = errand.claimant := by
  cases errand with
  | attempt attempt => exact attempt.resume_claimant response
  | renewal renewal => exact renewal.resume_claimant response
  | lookup lookup => cases response <;> rfl

theorem filter_winOf_of_ne {id : Nat} {errand : Errand} {name : String}
    (h : errand.claimant.name ≠ name) :
    ((winOf id errand).filter fun win => decide (win.claimant.name = name)) = [] := by
  unfold winOf
  cases errand.acquired? with
  | none => rfl
  | some version => simp [h]

theorem Legal.claimant_space {contest : Contest} (hLegal : contest.Legal) {id : Nat}
    {errand : Errand} (hErrand : contest.errands[id]? = some errand) :
    errand.claimant.space = contest.space :=
  hLegal.spaces errand (List.mem_of_getElem? hErrand)

/-- The call of an attempt, served. -/
theorem Legal.served_attempt {contest : Contest} (hLegal : contest.Legal) {id : Nat}
    {attempt : Attempt} {call : Call} (hErrand : contest.errands[id]? = some (.attempt attempt))
    (hRequest : attempt.request? = some (.call call)) :
    let next := contest.served id (.attempt attempt) call
    let stage := attempt.stageAfter (contest.lockRow? attempt.claimant.name)
    contest.memory.ChangesRow next.memory contest.space attempt.claimant.name
        (attempt.rowAfter (contest.lockRow? attempt.claimant.name)) ∧
      next = { contest.withErrand id (.attempt { attempt with stage := stage }) with
        memory := next.memory
        wins := contest.wins ++ winOf id (.attempt { attempt with stage := stage }) } := by
  intro next stage
  obtain ⟨reply, memory', hPerform, hChange, hStage, -⟩ :=
    Attempt.perform_eq (hLegal.claimant_space hErrand) hLegal.locks rfl hRequest
  have hResume : (Errand.attempt attempt).resume (.reply (contest.memory.perform call).1)
      = .attempt { attempt with stage := stage } := by
    rw [hPerform]
    exact congrArg (fun stage => Errand.attempt { attempt with stage := stage }) hStage
  refine ⟨?_, ?_⟩
  · have hMemory : next.memory = memory' := by simp only [next, served, hPerform]
    rw [hMemory]
    exact hChange
  · simp only [next, served, hResume]

/-- An attempt after the store has served its call. -/
theorem Legal.moved_attempt {contest next : Contest} (hLegal : contest.Legal) {event : Event}
    (hStep : Step contest event next) {id : Nat} (hEvent : event = .serve id)
    {attempt moved : Attempt}
    (hErrand : contest.errands[id]? = some (.attempt attempt))
    (hMoved : next.errands[id]? = some (.attempt moved)) :
    next.lockRow? attempt.claimant.name
        = attempt.rowAfter (contest.lockRow? attempt.claimant.name) ∧
      moved = { attempt with
        stage := attempt.stageAfter (contest.lockRow? attempt.claimant.name) } := by
  subst hEvent
  cases hStep with
  | @serve _ errand other hFound hAsked =>
      obtain rfl : errand = .attempt attempt := Option.some.inj (hFound.symm.trans hErrand)
      obtain ⟨hChange, hNext⟩ := hLegal.served_attempt hErrand hAsked
      obtain ⟨hBound, -⟩ := List.getElem?_eq_some_iff.mp hErrand
      refine ⟨hChange.lockRow?_self, ?_⟩
      rw [hNext] at hMoved
      have hSelf := hMoved.symm.trans (List.getElem?_set_self hBound)
      exact Errand.attempt.inj (Option.some.inj hSelf)

/-- The call of a renewal, served. -/
theorem Legal.served_renewal {contest : Contest} (hLegal : contest.Legal) {id : Nat}
    {renewal : Renewal} {call : Call} (hErrand : contest.errands[id]? = some (.renewal renewal))
    (hRequest : renewal.request? = some (.call call)) :
    let next := contest.served id (.renewal renewal) call
    let stage := renewal.stageAfter (contest.lockRow? renewal.claimant.name)
    contest.memory.ChangesRow next.memory contest.space renewal.claimant.name
        (renewal.rowAfter (contest.lockRow? renewal.claimant.name)) ∧
      next = { contest.withErrand id (.renewal { renewal with stage := stage }) with
        memory := next.memory } := by
  intro next stage
  obtain ⟨reply, memory', hPerform, hChange, hStage, -⟩ :=
    Renewal.perform_eq (hLegal.claimant_space hErrand) hLegal.locks rfl hRequest
  have hResume : (Errand.renewal renewal).resume (.reply (contest.memory.perform call).1)
      = .renewal { renewal with stage := stage } := by
    rw [hPerform]
    exact congrArg Errand.renewal hStage
  refine ⟨?_, ?_⟩
  · have hMemory : next.memory = memory' := by simp only [next, served, hPerform]
    rw [hMemory]
    exact hChange
  · simp only [next, served, hResume, winOf, Errand.acquired?, Option.map_none, Option.toList_none,
      List.append_nil, withErrand]

/-- The call of a lookup, served: the store stays as it is. -/
theorem served_lookup (contest : Contest) (id : Nat) {lookup : Lookup} {call : Call}
    (hRequest : lookup.request? = some (.call call)) :
    (contest.served id (.lookup lookup) call).memory = contest.memory ∧
      (contest.served id (.lookup lookup) call).wins = contest.wins := by
  unfold Lookup.request? at hRequest
  split at hRequest
  · simp only [Option.some.injEq, Request.call.injEq] at hRequest
    subst hRequest
    exact ⟨rfl, List.append_nil _⟩
  · cases hRequest

theorem winsOf_of_wins_eq {contest next : Contest} (h : next.wins = contest.wins)
    (name : String) : next.winsOf name = contest.winsOf name := by
  rw [winsOf, h, winsOf]

/-- An attempt that has not won records no win. -/
theorem winOf_of_not_hasWon (id : Nat) (attempt : Attempt) (h : attempt.stage.hasWon = false) :
    winOf id (.attempt attempt) = [] := by
  cases hStage : attempt.stage with
  | finished result =>
      rw [hStage] at h
      rcases result with error | outcome
      · simp [winOf, Errand.acquired?, hStage]
      · cases outcome with
        | acquired version => cases h
        | heldElsewhere owner elapsed => simp [winOf, Errand.acquired?, hStage]
        | lostRace => simp [winOf, Errand.acquired?, hStage]
  | _ => simp [winOf, Errand.acquired?, hStage]

/-- What the call of a renewal does to the row of its lock. -/
theorem Legal.rowChange_of_renewal {contest : Contest} (hLegal : contest.Legal) {id : Nat}
    {renewal : Renewal} {call : Call} (hErrand : contest.errands[id]? = some (.renewal renewal))
    (hRequest : renewal.request? = some (.call call)) (name : String) :
    RowChange contest (contest.served id (.renewal renewal) call) (.serve id) name := by
  obtain ⟨hChange, hNext⟩ := hLegal.served_renewal hErrand hRequest
  have hWins : (contest.served id (.renewal renewal) call).winsOf name = contest.winsOf name :=
    winsOf_of_wins_eq (by rw [hNext]; rfl) name
  by_cases hName : renewal.claimant.name = name
  · subst hName
    have hSelf := hChange.lockRow?_self
    cases hRenewed :
        (renewal.stageAfter (contest.lockRow? renewal.claimant.name)).hasRenewed with
    | false =>
        rw [Renewal.rowAfter_eq_self hRenewed] at hSelf
        exact .kept hSelf hWins
    | true =>
        obtain ⟨now, row, hStage, hRow, hOwner, -, hAfter⟩ :=
          Renewal.hasRenewed_cases hRequest hRenewed
        rw [hAfter] at hSelf
        exact .renewed rfl hErrand hStage rfl hRow hOwner hSelf hWins
  · exact .kept (hChange.lockRow?_of_ne (Ne.symm hName)) hWins

/-- What the call of an attempt does to the row of its lock. -/
theorem Legal.rowChange_of_attempt {contest : Contest} (hLegal : contest.Legal) {id : Nat}
    {attempt : Attempt} {call : Call} (hErrand : contest.errands[id]? = some (.attempt attempt))
    (hRequest : attempt.request? = some (.call call)) (name : String) :
    RowChange contest (contest.served id (.attempt attempt) call) (.serve id) name := by
  obtain ⟨hChange, hNext⟩ := hLegal.served_attempt hErrand hRequest
  generalize hStageNext : attempt.stageAfter (contest.lockRow? attempt.claimant.name) = stage
    at hNext
  have hWins : (contest.served id (.attempt attempt) call).winsOf name
      = contest.winsOf name
        ++ (winOf id (.attempt { attempt with stage := stage })).filter
          fun win => decide (win.claimant.name = name) := by
    rw [winsOf, hNext, winsOf]
    exact List.filter_append ..
  by_cases hName : attempt.claimant.name = name
  · subst hName
    have hSelf := hChange.lockRow?_self
    cases hWon : stage.hasWon with
    | false =>
        rw [winOf_of_not_hasWon id _ hWon] at hWins
        rw [← hStageNext] at hWon
        rw [Attempt.rowAfter_eq_self hWon] at hSelf
        exact .kept hSelf (hWins.trans (List.append_nil _))
    | true =>
        rw [← hStageNext] at hWon
        rcases Attempt.hasWon_cases hRequest hWon with
          ⟨now, hStage, hRow, hEnd⟩ | ⟨read, now, row, hStage, hRow, hVersion, hEnd⟩
        · refine .created rfl hErrand hStage rfl hRow (hSelf.trans ?_) ?_
          · simp [Attempt.rowAfter, hStage, hRow]
          · rw [hWins, ← hStageNext, hEnd]
            simp [winOf, Errand.acquired?, Errand.claimant]
        · refine .taken rfl hErrand hStage rfl hRow hVersion (hSelf.trans ?_) ?_
          · simp [Attempt.rowAfter, hStage, hRow, hVersion]
          · rw [hWins, ← hStageNext, hEnd]
            simp [winOf, Errand.acquired?, Errand.claimant]
  · refine .kept (hChange.lockRow?_of_ne (Ne.symm hName)) ?_
    rw [hWins, filter_winOf_of_ne (by exact hName), List.append_nil]

/-- **The step lemma of a row.**  An event does one of four things to a lock. -/
theorem Legal.rowChange_of_step {contest next : Contest} {event : Event} (hLegal : contest.Legal)
    (hStep : Step contest event next) (name : String) : RowChange contest next event name := by
  cases hStep with
  | start identity other task => exact .kept rfl rfl
  | tell now hErrand hRequest => exact .kept rfl rfl
  | fail error hErrand hRequest => exact .kept rfl rfl
  | @serve id errand call hErrand hRequest =>
      cases errand with
      | attempt attempt => exact hLegal.rowChange_of_attempt hErrand hRequest name
      | renewal renewal => exact hLegal.rowChange_of_renewal hErrand hRequest name
      | lookup lookup =>
          obtain ⟨hMemory, hWins⟩ := served_lookup contest id hRequest
          refine .kept ?_ (winsOf_of_wins_eq hWins name)
          rw [lockRow?, hMemory]
          rfl

/-- Every event keeps the invariant. -/
theorem Legal.step {contest next : Contest} {event : Event} (hLegal : contest.Legal)
    (hStep : Step contest event next) : next.Legal := by
  have hSet : ∀ {id : Nat} {errand : Errand} {response : Response},
      contest.errands[id]? = some errand →
      ∀ other ∈ contest.errands.set id (errand.resume response),
        other.claimant.space = contest.space := by
    intro id errand response hErrand other hOther
    rcases List.mem_or_eq_of_mem_set hOther with hOld | rfl
    · exact hLegal.spaces other hOld
    · rw [claimant_resume]
      exact hLegal.claimant_space hErrand
  cases hStep with
  | start identity name task =>
      refine ⟨hLegal.locks, fun errand hMem => ?_⟩
      rcases List.mem_append.mp hMem with hOld | hNew
      · exact hLegal.spaces errand hOld
      · rw [List.mem_singleton.mp hNew]
        cases task <;> rfl
  | tell now hErrand hRequest => exact ⟨hLegal.locks, hSet hErrand⟩
  | fail error hErrand hRequest => exact ⟨hLegal.locks, hSet hErrand⟩
  | @serve id errand call hErrand hRequest =>
      refine ⟨?_, hSet hErrand⟩
      cases errand with
      | attempt attempt => exact (hLegal.served_attempt hErrand hRequest).1.locks
      | renewal renewal => exact (hLegal.served_renewal hErrand hRequest).1.locks
      | lookup lookup =>
          rw [(served_lookup contest id hRequest).1]
          exact hLegal.locks

/-- Every run keeps the invariant. -/
theorem Legal.run {start contest : Contest} {events : List Event} (hLegal : start.Legal)
    (hRun : start.run? events = some contest) : contest.Legal :=
  runs?_induction (motive := fun _ contest => contest.Legal) hLegal
    (fun _ _ _ _ _ hBefore hStep => hBefore.step (step_of_step? hStep)) hRun

end Contest
end Leasehold
