import Leasehold.Lock.Policy
import Leasehold.Lock.Row
import Leasehold.Log.Entry

/-!
# Attempts on a lock

An attempt asks the store and the clock several times, and other nodes may write
between any two of its requests.  It is therefore a list of stages: each stage says
what it asks for, and moves on when it is told.

* `Request`, `Response`: what a stage asks for and what it is told.
* `Attempt`: one try to get a lock, up to its `Outcome`.
* `Renewal`: one heartbeat on a held lock.
* `Lookup`: one look at the row of a lock.

A row changes owner only by a write on its name and its version, which raises the
version, so that of all attempts that read one version at most one succeeds.  A version
that cannot be raised within its word is left as it is: the attempt stops before it
writes.
-/

namespace Leasehold

/-- What a stage asks for: a store call, or the time. -/
inductive Request where
  | call (call : Call)
  | time
  deriving Repr, DecidableEq

/-- What a stage is told. -/
inductive Response where
  | reply (reply : Reply)
  | time (now : Instant)
  deriving Repr

/-- How an attempt ended. -/
inductive Outcome where
  | acquired (version : Int)
  | heldElsewhere (owner : String) (elapsed : Gap)
  | lostRace
  deriving Repr, DecidableEq

namespace Outcome

/-- Whether the lock was had. -/
def isAcquired : Outcome → Bool
  | acquired _ => true
  | _ => false

/-- The name under which outcomes are counted. -/
def label : Outcome → String
  | acquired _ => "acquired"
  | heldElsewhere _ _ => "held_elsewhere"
  | lostRace => "lost_race"

end Outcome

/-- Who asks for which lock: a table, an identity and a lock name. -/
structure Claimant where
  space : Space
  identity : String
  name : String
  deriving Repr, DecidableEq

namespace Claimant

/-- The row of the lock. -/
def byName (claimant : Claimant) : Condition :=
  .column Lock.nameColumn (.text claimant.name)

/-- The row of the lock at one version. -/
def byVersion (claimant : Claimant) (version : Int) : Condition :=
  claimant.byName.and Lock.versionColumn (.int version)

/-- The row of the lock if the claimant owns it. -/
def byOwner (claimant : Claimant) : Condition :=
  claimant.byName.and Lock.ownerColumn (.text claimant.identity)

/-- What the claimant writes into a row that it takes. -/
def takeover (claimant : Claimant) (row : LockRow) (now : Instant) : Record :=
  .ofList
    [(Lock.versionColumn, .int (row.version + 1)), (Lock.ownerColumn, .text claimant.identity),
      (Lock.timeColumn, .time now)]

/-- What the claimant writes into a row that it keeps. -/
def refresh (now : Instant) : Record := .ofList [(Lock.timeColumn, .time now)]

end Claimant

/-! ## Attempts -/

/-- Where an attempt stands. -/
inductive Attempt.Stage where
  | counting
  | stamping
  | inserting (now : Instant)
  | searching
  | judging (row : LockRow)
  | claiming (row : LockRow)
  | replacing (row : LockRow) (now : Instant)
  | finished (result : Except LockError Outcome)
  deriving Repr

/-- One try of a claimant to get a lock whose row expires after a lease. -/
structure Attempt where
  claimant : Claimant
  lease : Span
  stage : Attempt.Stage
  deriving Repr

namespace Attempt

/-- An attempt that begins. -/
def start (claimant : Claimant) (lease : Span) : Attempt := ⟨claimant, lease, .counting⟩

/-- How the attempt ended, if it did. -/
def result? (attempt : Attempt) : Option (Except LockError Outcome) :=
  match attempt.stage with
  | .finished result => some result
  | _ => none

/-- What the attempt asks for next. -/
def request? (attempt : Attempt) : Option Request :=
  let claimant := attempt.claimant
  match attempt.stage with
  | .counting => some (.call (.count claimant.space claimant.byName))
  | .stamping => some .time
  | .inserting now =>
    some (.call (.insert claimant.space
      (LockRow.first claimant.name claimant.identity now).toRecord))
  | .searching => some (.call (.search claimant.space claimant.byName))
  | .judging _ => some .time
  | .claiming _ => some .time
  | .replacing row now =>
    some (.call (.update claimant.space (claimant.byVersion row.version)
      (claimant.takeover row now)))
  | .finished _ => none

/-- The stage after a row was counted. -/
def afterCount : Reply → Stage
  | .error e => .finished (.error (.store e))
  | .ok answer => if answer.count = 0 then .stamping else .searching

/-- The stage after a first row was written. -/
def afterInsert : Reply → Stage
  | .error e => .finished (.error (.store e))
  | .ok answer => .finished (.ok (if 0 < answer.count then .acquired 0 else .lostRace))

/-- The stage in which a row is claimed, unless its version cannot be raised. -/
def claim (row : LockRow) : Stage :=
  if row.isRaisable then .claiming row else .finished (.error .overflow)

/-- The stage after the row was looked for: one's own row is claimed whatever its age,
the row of another owner is judged first. -/
def afterSearch (identity : String) : Reply → Stage
  | .error e => .finished (.error (.store e))
  | .ok answer =>
    match answer.rows with
    | [] => .finished (.ok .lostRace)
    | record :: _ =>
      match LockRow.ofRecord record with
      | .error e => .finished (.error (.store (.column e)))
      -- One's own row may be left from an earlier life; its age does not matter.
      | .ok row => if row.isOwnedBy identity then claim row else .judging row

/-- The stage after the row of another owner was judged at a time. -/
def afterJudgement (row : LockRow) (lease : Span) (now : Instant) : Stage :=
  if row.isExpired now lease then claim row
  else .finished (.ok (.heldElsewhere row.owner (row.elapsed now)))

/-- The stage after the row was written over at the version that was read. -/
def afterReplace (row : LockRow) : Reply → Stage
  | .error e => .finished (.error (.store e))
  | .ok answer =>
    .finished (.ok (if answer.count = 1 then .acquired (row.version + 1) else .lostRace))

/-- The stage after a response; a response that was not asked for changes nothing. -/
def nextStage (attempt : Attempt) : Response → Stage
  | .reply reply =>
    match attempt.stage with
    | .counting => afterCount reply
    | .inserting _ => afterInsert reply
    | .searching => afterSearch attempt.claimant.identity reply
    | .replacing row _ => afterReplace row reply
    | stage => stage
  | .time now =>
    match attempt.stage with
    | .stamping => .inserting now
    | .judging row => afterJudgement row attempt.lease now
    | .claiming row => .replacing row now
    | stage => stage

/-- The attempt after a response. -/
def resume (attempt : Attempt) (response : Response) : Attempt :=
  { attempt with stage := attempt.nextStage response }

/-- What a response leaves in the log: that a row was found expired. -/
def remark? (attempt : Attempt) : Response → Option Log.Entry
  | .time now =>
    match attempt.stage with
    | .judging row =>
      if row.isExpired now attempt.lease then
        some
          { level := .debug
            target := "clusterlock_core::protocol"
            message := "Lease expired, attempting takeover"
            fields :=
              [("lock", attempt.claimant.name), ("owner", row.owner),
                ("version", toString row.version)] }
      else none
    | _ => none
  | .reply _ => none

/-- A row is claimed if its version can be raised, and otherwise the attempt is over. -/
theorem claim_cases (row : LockRow) :
    row.isRaisable = true ∧ claim row = .claiming row ∨
      row.isRaisable = false ∧ claim row = .finished (.error .overflow) := by
  rw [claim]
  cases row.isRaisable
  · exact .inr ⟨rfl, rfl⟩
  · exact .inl ⟨rfl, rfl⟩

@[simp]
theorem resume_claimant (attempt : Attempt) (response : Response) :
    (attempt.resume response).claimant = attempt.claimant := rfl

@[simp]
theorem resume_lease (attempt : Attempt) (response : Response) :
    (attempt.resume response).lease = attempt.lease := rfl

/-- An attempt asks for something exactly until it has ended. -/
theorem request?_eq_none_iff (attempt : Attempt) :
    attempt.request? = none ↔ attempt.result?.isSome = true := by
  cases h : attempt.stage <;> simp [request?, result?, h]

end Attempt

/-! ## Renewals -/

/-- Where a renewal stands. -/
inductive Renewal.Stage where
  | stamping
  | writing (now : Instant)
  | finished (result : Except LockError Bool)
  deriving Repr

/-- One heartbeat of a claimant on its lock. -/
structure Renewal where
  claimant : Claimant
  stage : Renewal.Stage
  deriving Repr

namespace Renewal

/-- A renewal that begins. -/
def start (claimant : Claimant) : Renewal := ⟨claimant, .stamping⟩

/-- Whether the lock was renewed, if the renewal has ended. -/
def result? (renewal : Renewal) : Option (Except LockError Bool) :=
  match renewal.stage with
  | .finished result => some result
  | _ => none

/-- What the renewal asks for next. -/
def request? (renewal : Renewal) : Option Request :=
  match renewal.stage with
  | .stamping => some .time
  | .writing now =>
    some (.call (.update renewal.claimant.space renewal.claimant.byOwner
      (Claimant.refresh now)))
  | .finished _ => none

/-- The stage after the write. -/
def afterWrite : Reply → Stage
  | .error e => .finished (.error (.store e))
  | .ok answer => .finished (.ok (decide (0 < answer.count)))

/-- The renewal after a response; a response that was not asked for changes nothing. -/
def resume (renewal : Renewal) (response : Response) : Renewal :=
  match renewal.stage, response with
  | .stamping, .time now => { renewal with stage := .writing now }
  | .writing _, .reply reply => { renewal with stage := afterWrite reply }
  | _, _ => renewal

@[simp]
theorem resume_claimant (renewal : Renewal) (response : Response) :
    (renewal.resume response).claimant = renewal.claimant := by
  unfold resume
  split <;> rfl

end Renewal

/-! ## Lookups -/

/-- One look at the row of a lock. -/
structure Lookup where
  claimant : Claimant
  result? : Option (Except LockError (Option LockRow))
  deriving Repr

namespace Lookup

/-- A lookup that begins. -/
def start (claimant : Claimant) : Lookup := ⟨claimant, none⟩

/-- What the lookup asks for. -/
def request? (lookup : Lookup) : Option Request :=
  match lookup.result? with
  | none => some (.call (.search lookup.claimant.space lookup.claimant.byName))
  | some _ => none

/-- What a reply says of the row. -/
def ofReply : Reply → Except LockError (Option LockRow)
  | .error e => .error (.store e)
  | .ok answer =>
    match answer.rows with
    | [] => .ok none
    | record :: _ =>
      match LockRow.ofRecord record with
      | .error e => .error (.store (.column e))
      | .ok row => .ok (some row)

/-- The lookup after a response. -/
def resume (lookup : Lookup) : Response → Lookup
  | .reply reply => { lookup with result? := some (ofReply reply) }
  | .time _ => lookup

end Lookup

end Leasehold
