import Leasehold.Proofs.Data.Selection
import Leasehold.Proofs.Lock.Contest
import Leasehold.Proofs.Store.Confinement

/-!
# Locks of different names

Errands on different names share a table and nothing else.  Whatever a contest on several names
does for one of them, the errands on this name do alone: every run can be taken again without the
errands on other names, and nothing about this name comes out differently.

* `Contest.errandsOf`: the errands on a name.
* `Contest.only?`, `Contest.only`: what is left of an event and of a run without the other names.
* `Contest.Mirrors`: a contest on one name is as a larger one is for this name.
* `Contest.Apart`, `Contest.apart_of_run`: what becomes of a name among others.
-/

namespace Leasehold

theorem Errand.isOn_of_request {errand : Errand} {database table : String} {call : Call}
    (hSpace : errand.claimant.space = lockSpace database table)
    (h : errand.request? = some (.call call)) :
    call.IsOn (lockSpace database table) errand.claimant.name := by
  cases errand with
  | attempt attempt => exact Claimant.isOn_of_attempt hSpace h
  | renewal renewal => exact Claimant.isOn_of_renewal hSpace h
  | lookup lookup => exact Claimant.isOn_of_lookup hSpace h

namespace Contest

/-- Whether an errand is on a name. -/
def isOn (name : String) (errand : Errand) : Bool := decide (errand.claimant.name = name)

/-- The errands on a name, in the order in which they began. -/
def errandsOf (contest : Contest) (name : String) : List Errand :=
  contest.errands.filter (isOn name)

/-- What is left of an event without the errands on other names. -/
def only? (contest : Contest) (name : String) : Event → Option Event
  | .start identity other task => if other = name then some (.start identity other task) else none
  | .tell id now => (place? (isOn name) contest.errands id).map fun place => .tell place now
  | .serve id => (place? (isOn name) contest.errands id).map .serve
  | .fail id error => (place? (isOn name) contest.errands id).map fun place => .fail place error

/-- What is left of a run without the errands on other names. -/
def only (name : String) (start : Contest) (events : List Event) : List Event :=
  (trace step? start events).filterMap fun (before, event, _) => before.only? name event

/-- Who has won a lock, and with which version. -/
def Win.claim (win : Win) : Claimant × Int := (win.claimant, win.version)

/-! ## One errand among others -/

variable {contest next alone : Contest} {name : String} {id : Nat} {errand : Errand}

theorem isOn_resume (name : String) (errand : Errand) (response : Response) :
    isOn name (errand.resume response) = isOn name errand := by
  rw [isOn, claimant_resume, isOn]

theorem pending?_of_errand {request : Request} (hErrand : contest.errands[id]? = some errand)
    (hRequest : errand.request? = some request) :
    contest.pending? id = some (errand, request) := by
  simp only [pending?, hErrand, Option.bind_some, hRequest, Option.map_some]

theorem claim_winOf (place id : Nat) (errand : Errand) :
    (winOf place errand).map Win.claim = (winOf id errand).map Win.claim := by
  unfold winOf
  cases errand.acquired? <;> rfl

theorem filter_winOf_of_isOn (id : Nat) (h : isOn name errand = true) :
    ((winOf id errand).filter fun win => decide (win.claimant.name = name))
      = winOf id errand := by
  have hName : errand.claimant.name = name := of_decide_eq_true h
  unfold winOf
  cases errand.acquired? with
  | none => rfl
  | some version => simp [hName]

/-! ## A contest on one name -/

/-- **A contest on one name that mirrors a larger one**: its errands are the errands on this name,
each as far as there, its store keeps the same record of the name, and it has the same wins. -/
structure Mirrors (name : String) (contest alone : Contest) : Prop where
  database : alone.database = contest.database
  table : alone.table = contest.table
  errands : alone.errands = contest.errandsOf name
  record : alone.memory.record? contest.space name = contest.memory.record? contest.space name
  wins : alone.wins.map Win.claim = (contest.winsOf name).map Win.claim
  conforms : contest.memory.Conforms contest.space
  conformsAlone : alone.memory.Conforms contest.space
  spaces : ∀ errand ∈ contest.errands, errand.claimant.space = contest.space

namespace Mirrors

theorem around (database table : String) {memory : Memory}
    (h : memory.Conforms (lockSpace database table)) (name : String) :
    Mirrors name (Contest.around database table memory)
      (Contest.around database table memory) :=
  ⟨rfl, rfl, rfl, rfl, rfl, h, h, by simp [Contest.around]⟩

theorem space (h : Mirrors name contest alone) : alone.space = contest.space := by
  rw [Contest.space, h.database, h.table, Contest.space]

/-- An errand on the name is there at its place. -/
theorem getElem? (h : Mirrors name contest alone) (hErrand : contest.errands[id]? = some errand)
    (hOn : isOn name errand = true) :
    alone.errands[rank (isOn name) contest.errands id]? = some errand := by
  rw [h.errands]
  exact getElem?_rank hErrand hOn

theorem claimant_space (h : Mirrors name contest alone)
    (hErrand : contest.errands[id]? = some errand) : errand.claimant.space = contest.space :=
  h.spaces errand (List.mem_of_getElem? hErrand)

theorem spaces_set (h : Mirrors name contest alone) (hErrand : contest.errands[id]? = some errand)
    (response : Response) :
    ∀ other ∈ contest.errands.set id (errand.resume response),
      other.claimant.space = contest.space := by
  intro other hOther
  rcases List.mem_or_eq_of_mem_set hOther with hOld | rfl
  · exact h.spaces other hOld
  · rw [claimant_resume]
    exact h.claimant_space hErrand

/-- An errand on the name moves on in both. -/
theorem withErrand (h : Mirrors name contest alone)
    (hErrand : contest.errands[id]? = some errand) (hOn : isOn name errand = true)
    (response : Response) :
    Mirrors name (contest.withErrand id (errand.resume response))
      (alone.withErrand (rank (isOn name) contest.errands id) (errand.resume response)) := by
  refine { h with errands := ?_, spaces := h.spaces_set hErrand response }
  have hNext : isOn name (errand.resume response) = true := (isOn_resume ..).trans hOn
  have hSet := filter_set_of_pos hErrand hOn hNext
  simp only [Contest.withErrand, h.errands]
  exact hSet.symm

/-- An errand on another name moves on in the larger one. -/
theorem withErrand_other (h : Mirrors name contest alone)
    (hErrand : contest.errands[id]? = some errand) (hOn : isOn name errand = false)
    (response : Response) :
    Mirrors name (contest.withErrand id (errand.resume response)) alone := by
  refine { h with errands := ?_, spaces := h.spaces_set hErrand response }
  have hNext : isOn name (errand.resume response) = false := (isOn_resume ..).trans hOn
  exact h.errands.trans (filter_set_of_neg hErrand hOn hNext).symm

variable {call : Call}

/-- The call of an errand on the name is served alike in both. -/
theorem served (h : Mirrors name contest alone) (hErrand : contest.errands[id]? = some errand)
    (hRequest : errand.request? = some (.call call)) (hOn : isOn name errand = true) :
    Mirrors name (contest.served id errand call)
      (alone.served (rank (isOn name) contest.errands id) errand call) := by
  have hName : errand.claimant.name = name := of_decide_eq_true hOn
  have hCall : call.IsOn contest.space name :=
    hName ▸ Errand.isOn_of_request (h.claimant_space hErrand) hRequest
  obtain ⟨memory, hPerform, hChange⟩ := h.conforms.perform_eq hCall
  obtain ⟨memoryAlone, hPerformAlone, hChangeAlone⟩ := h.conformsAlone.perform_eq hCall
  rw [h.record] at hPerformAlone hChangeAlone
  have hBuilt : contest.space.Built := Space.built_lockSpace _ _
  have hConforms := h.conforms.perform hBuilt hCall.respects
  have hConformsAlone := h.conformsAlone.perform hBuilt hCall.respects
  rw [hPerform] at hConforms
  rw [hPerformAlone] at hConformsAlone
  have hMoved := h.withErrand hErrand hOn
    (.reply (call.answerOn (contest.memory.record? contest.space name)))
  simp only [Contest.served, hPerform, hPerformAlone]
  refine ⟨h.database, h.table, hMoved.errands, ?_, ?_, hConforms, hConformsAlone, hMoved.spaces⟩
  · exact hChangeAlone.self.trans hChange.self.symm
  · generalize hNext : errand.resume
      (.reply (call.answerOn (contest.memory.record? contest.space name))) = moved
    have hMovedOn : isOn name moved = true := by
      rw [← hNext, isOn_resume]
      exact hOn
    rw [winsOf, List.filter_append, filter_winOf_of_isOn id hMovedOn, List.map_append,
      List.map_append, claim_winOf _ id]
    exact congrArg (· ++ _) h.wins

/-- The call of an errand on another name leaves the record of the name. -/
theorem served_other (h : Mirrors name contest alone)
    (hErrand : contest.errands[id]? = some errand)
    (hRequest : errand.request? = some (.call call)) (hOn : isOn name errand = false) :
    Mirrors name (contest.served id errand call) alone ∧
      (contest.served id errand call).memory.record? contest.space name
        = contest.memory.record? contest.space name := by
  have hName : errand.claimant.name ≠ name := of_decide_eq_false hOn
  have hCall : call.IsOn contest.space errand.claimant.name :=
    Errand.isOn_of_request (h.claimant_space hErrand) hRequest
  obtain ⟨memory, hPerform, hChange⟩ := h.conforms.perform_eq hCall
  have hConforms := h.conforms.perform (Space.built_lockSpace _ _) hCall.respects
  rw [hPerform] at hConforms
  have hKept := hChange.of_ne (Ne.symm hName)
  have hMoved := h.withErrand_other hErrand hOn
    (.reply (call.answerOn (contest.memory.record? contest.space errand.claimant.name)))
  simp only [Contest.served, hPerform]
  refine ⟨⟨h.database, h.table, hMoved.errands, h.record.trans hKept.symm, ?_, hConforms,
    h.conformsAlone, hMoved.spaces⟩, hKept⟩
  rw [winsOf, List.filter_append, filter_winOf_of_ne, List.append_nil]
  · exact h.wins
  · rw [claimant_resume]
    exact hName

/-- An errand begins, on the name or on another one. -/
theorem start (h : Mirrors name contest alone) (identity other : String) (task : Task) :
    Mirrors name
      { contest with errands := contest.errands ++ [task.start ⟨contest.space, identity, other⟩] }
      (if other = name then
        { alone with errands := alone.errands ++ [task.start ⟨alone.space, identity, other⟩] }
      else alone) := by
  have hClaimant : (task.start ⟨contest.space, identity, other⟩).claimant
      = ⟨contest.space, identity, other⟩ := by cases task <;> rfl
  have hSpaces : ∀ errand ∈ contest.errands ++ [task.start ⟨contest.space, identity, other⟩],
      errand.claimant.space = contest.space := by
    intro errand hMem
    rcases List.mem_append.mp hMem with hOld | hNew
    · exact h.spaces errand hOld
    · rw [List.mem_singleton.mp hNew, hClaimant]
  by_cases hName : other = name
  · rw [if_pos hName]
    refine { h with errands := ?_, spaces := hSpaces }
    have hOn : isOn name (task.start ⟨contest.space, identity, other⟩) = true := by
      rw [isOn, hClaimant]
      exact decide_eq_true hName
    simp only [h.errands, h.space, errandsOf, List.filter_append, List.filter_cons_of_pos hOn,
      List.filter_nil]
  · rw [if_neg hName]
    refine { h with errands := ?_, spaces := hSpaces }
    have hOn : isOn name (task.start ⟨contest.space, identity, other⟩) ≠ true := by
      rw [isOn, hClaimant]
      exact fun hSame => hName (of_decide_eq_true hSame)
    simp only [h.errands, errandsOf, List.filter_append, List.filter_cons_of_neg hOn,
      List.filter_nil, List.append_nil]

/-- **The step lemma of a name.**  What is left of an event happens to the smaller contest as it
does to the larger one, -/
theorem step (h : Mirrors name contest alone) {event mine : Event}
    (hStep : Step contest event next) (hMine : contest.only? name event = some mine) :
    ∃ later, alone.step? mine = some later ∧ Mirrors name next later := by
  cases hStep with
  | start identity other task =>
      simp only [only?] at hMine
      split at hMine
      · next hName =>
        obtain rfl := Option.some.inj hMine
        have hNext := h.start identity other task
        rw [if_pos hName] at hNext
        exact ⟨_, rfl, hNext⟩
      · cases hMine
  | @tell id errand now hErrand hRequest =>
      cases hOn : isOn name errand with
      | false => simp [only?, place?_of_neg hErrand hOn] at hMine
      | true =>
          obtain rfl : _ = mine := by simpa [only?, place?_of_pos hErrand hOn] using hMine
          refine ⟨_, ?_, h.withErrand hErrand hOn (.time now)⟩
          simp only [step?, pending?_of_errand (h.getElem? hErrand hOn) hRequest]
  | @serve id errand call hErrand hRequest =>
      cases hOn : isOn name errand with
      | false => simp [only?, place?_of_neg hErrand hOn] at hMine
      | true =>
          obtain rfl : _ = mine := by simpa [only?, place?_of_pos hErrand hOn] using hMine
          refine ⟨_, ?_, h.served hErrand hRequest hOn⟩
          simp only [step?, pending?_of_errand (h.getElem? hErrand hOn) hRequest]
  | @fail id errand call error hErrand hRequest =>
      cases hOn : isOn name errand with
      | false => simp [only?, place?_of_neg hErrand hOn] at hMine
      | true =>
          obtain rfl : _ = mine := by simpa [only?, place?_of_pos hErrand hOn] using hMine
          refine ⟨_, ?_, h.withErrand hErrand hOn (.reply (.error error))⟩
          simp only [step?, pending?_of_errand (h.getElem? hErrand hOn) hRequest]

/-- and an event of which nothing is left keeps the errands and the record of the name. -/
theorem step_other (h : Mirrors name contest alone) {event : Event}
    (hStep : Step contest event next) (hNone : contest.only? name event = none) :
    Mirrors name next alone ∧
      next.memory.record? contest.space name = contest.memory.record? contest.space name := by
  cases hStep with
  | start identity other task =>
      simp only [only?] at hNone
      split at hNone
      · cases hNone
      · next hName =>
        have hNext := h.start identity other task
        rw [if_neg hName] at hNext
        exact ⟨hNext, rfl⟩
  | @tell id errand now hErrand hRequest =>
      cases hOn : isOn name errand with
      | true => simp [only?, place?_of_pos hErrand hOn] at hNone
      | false => exact ⟨h.withErrand_other hErrand hOn (.time now), rfl⟩
  | @serve id errand call hErrand hRequest =>
      cases hOn : isOn name errand with
      | true => simp [only?, place?_of_pos hErrand hOn] at hNone
      | false => exact h.served_other hErrand hRequest hOn
  | @fail id errand call error hErrand hRequest =>
      cases hOn : isOn name errand with
      | true => simp [only?, place?_of_pos hErrand hOn] at hNone
      | false => exact ⟨h.withErrand_other hErrand hOn (.reply (.error error)), rfl⟩

end Mirrors

/-! ## Runs -/

theorem only_snoc {start contest next : Contest} {events : List Event} {event : Event}
    (hRun : start.run? events = some contest) (hStep : contest.step? event = some next)
    (name : String) :
    only name start (events ++ [event])
      = only name start events ++ (contest.only? name event).toList := by
  rw [only, trace_snoc hRun hStep, List.filterMap_append, only]
  congr 1

/-- What is left of a run is a run, and mirrors it. -/
theorem exists_mirror {start contest : Contest} {name : String} (hStart : Mirrors name start start)
    {events : List Event} (hRun : start.run? events = some contest) :
    ∃ alone, start.run? (only name start events) = some alone ∧ Mirrors name contest alone := by
  refine runs?_induction (motive := fun events contest =>
    ∃ alone, start.run? (only name start events) = some alone ∧ Mirrors name contest alone)
    ⟨start, rfl, hStart⟩ ?_ hRun
  rintro events contest event next hBefore ⟨alone, hAlone, hMirrors⟩ hStep
  rw [only_snoc hBefore hStep]
  cases hOnly : contest.only? name event with
  | none =>
      rw [Option.toList_none, List.append_nil]
      exact ⟨alone, hAlone, (hMirrors.step_other (step_of_step? hStep) hOnly).1⟩
  | some mine =>
      obtain ⟨later, hLater, hNext⟩ := hMirrors.step (step_of_step? hStep) hOnly
      refine ⟨later, ?_, hNext⟩
      rw [Option.toList_some, run?, runs?_snoc]
      exact Option.bind_eq_some_iff.mpr ⟨alone, hAlone, hLater⟩

/-- **What becomes of a name among others** in a run from `start` to `contest`. -/
structure Apart (name : String) (start : Contest) (events : List Event) (contest : Contest) :
    Prop where
  /-- Without the errands on other names the run can be taken again.  It has the same errands on
  the name with the same outcomes, the same wins with the same versions, and the same last row. -/
  alone : ∃ alone, start.run? (only name start events) = some alone ∧
    alone.errands = contest.errandsOf name ∧
    alone.wins.map Win.claim = (contest.winsOf name).map Win.claim ∧
    alone.memory.record? contest.space name = contest.memory.record? contest.space name ∧
    alone.lockRow? name = contest.lockRow? name
  /-- No event of an errand on another name changes the row of the name. -/
  kept : ∀ (early : List Event) (event : Event) (late : List Event) (before after : Contest),
    Occurs step? start events early event late before after → before.only? name event = none →
    after.memory.record? start.space name = before.memory.record? start.space name ∧
    after.lockRow? name = before.lockRow? name

theorem space_of_step {contest next : Contest} {event : Event} (hStep : Step contest event next) :
    next.space = contest.space := by
  cases hStep <;> rfl

theorem space_of_run {start contest : Contest} {events : List Event}
    (hRun : start.run? events = some contest) : contest.space = start.space :=
  runs?_induction (motive := fun _ contest => contest.space = start.space) rfl
    (fun _ _ _ _ _ hBefore hStep => (space_of_step (step_of_step? hStep)).trans hBefore) hRun

/-- **Names are independent.**  Whatever errands there are on other names, a name is apart. -/
theorem apart_of_run {database table : String} {memory : Memory}
    (hConforms : memory.Conforms (lockSpace database table)) {events : List Event}
    {contest : Contest} (hRun : (around database table memory).run? events = some contest)
    (name : String) : Apart name (around database table memory) events contest := by
  have hStart := Mirrors.around database table hConforms name
  constructor
  case alone =>
    obtain ⟨alone, hAlone, hMirrors⟩ := exists_mirror hStart hRun
    refine ⟨alone, hAlone, hMirrors.errands, hMirrors.wins, hMirrors.record, ?_⟩
    rw [lockRow?, hMirrors.space, lockRow?, Memory.lockRow?_eq_of_record? hMirrors.record]
  case kept =>
    intro early event late before after hOccurs hNone
    obtain ⟨alone, -, hMirrors⟩ := exists_mirror hStart hOccurs.run
    have hStep := step_of_step? hOccurs.step
    obtain ⟨-, hKept⟩ := hMirrors.step_other hStep hNone
    rw [← space_of_run hOccurs.run]
    refine ⟨hKept, ?_⟩
    rw [lockRow?, space_of_step hStep, lockRow?, Memory.lockRow?_eq_of_record? hKept]

end Contest
end Leasehold
