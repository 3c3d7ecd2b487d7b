import Leasehold.Manager.Basic
import Leasehold.Signal.Deadline
import Leasehold.Simulation.Site

/-!
# A world of lock managers

Several managers share one store and one clock that moves only when nothing else can.
The world runs every cycle and every job as far as it can, lets time pass up to the
next deadline, and notes what happens.

* `Job`: what the job of a lock does.
* `Station`: a manager with its clock and its jobs.
* `World`: the stations, the store, the calls on their way, the running jobs, and the
  notes.
* `World.settle`: runs everything without letting time pass.
* `World.sleep`: lets time pass.
-/

namespace Leasehold

/-- What the job of a lock does: it waits for its signal, succeeds, fails, dies without
a word, or works for some milliseconds whatever its signal says. -/
inductive Job where
  | wait
  | succeed
  | fail (text : String)
  | die
  | work (millis : Nat)
  deriving Repr

/-- A job under the label by which its notes are told apart. -/
structure LabelledJob where
  label : String
  job : Job
  deriving Repr

/-- A manager with its clock: the reading at the start, the jobs of its cycles in the
order of the cycles, and every name that it was asked to run. -/
structure Station where
  manager : Manager
  base : Instant
  jobs : List LabelledJob
  names : List String
  deriving Repr

/-- A job that has not come to its end; a working job does so at a time. -/
structure RunningJob where
  node : Nat
  lock : String
  label : String
  signal : SignalId
  due? : Option Nat
  deriving Repr

/-- Something that a job did. -/
structure JobNote where
  time : Nat
  node : Nat
  label : String
  what : String
  deriving Repr

/-- A call of a cycle on its way. -/
structure CycleFlight where
  cycle : Nat
  flight : Flight
  deriving Repr

/-- A log entry with its time. -/
structure TimedEntry where
  time : Nat
  entry : Log.Entry
  deriving Repr

/-- Several managers on one store; time is in milliseconds. -/
structure World where
  now : Nat
  stations : List Station
  site : Site
  flights : List CycleFlight
  running : List RunningJob
  metrics : Metrics
  notes : List JobNote
  log : List TimedEntry
  deriving Repr

namespace Station

/-- What the clock of a station reads after some milliseconds. -/
def reading (station : Station) (now : Nat) : Instant :=
  (station.base.plus? (Span.ofMillis now).toGap).getD station.base

/-- Every name that was asked for, with its state, in the order of the names. -/
def states (station : Station) : List (String × LockState) :=
  (OrderedMap.ofList (station.names.map fun name => (name, station.manager.state name))).entries

end Station

namespace World

/-- A world of stations around a store. -/
def ofStations (stations : List Station) (store : RecordStore) : World :=
  { now := 0
    stations := stations
    site := .ofStore store
    flights := []
    running := []
    metrics := .empty
    notes := []
    log := [] }

/-- The time in nanoseconds. -/
def nanos (world : World) : Nat := world.now * Span.nanosPerMilli

/-- Adds an entry to the log. -/
def say (world : World) (entry : Log.Entry) : World :=
  { world with log := world.log ++ [⟨world.now, entry⟩] }

/-- Replaces the site, and takes over what the store left in the log. -/
def withSite (world : World) (site : Site) : World :=
  site.remarks.foldl say { world with site := { site with remarks := [] } }

/-- Adds a note of a job. -/
def note (world : World) (node : Nat) (label what : String) : World :=
  { world with notes := world.notes ++ [⟨world.now, node, label, what⟩] }

/-- Whether a signal of a station is cancelled. -/
def isCancelled (world : World) (node : Nat) (signal : SignalId) : Bool :=
  match world.stations[node]? with
  | some station => station.manager.signals.isCancelled signal
  | none => false

/-- The text of a truth value in a note. -/
def truth (b : Bool) : String := if b then "true" else "false"

/-- Starts a job: it notes whether its signal is already cancelled, and ends at once
unless it waits or works. -/
def startJob (world : World) (node : Nat) (lock : String) (labelled : LabelledJob)
    (signal : SignalId) : World :=
  let label := labelled.label
  let world :=
    world.note node label ("started cancelled=" ++ truth (world.isCancelled node signal))
  match labelled.job with
  | .wait => { world with running := world.running ++ [⟨node, lock, label, signal, none⟩] }
  | .work millis =>
    { world with
      running := world.running ++ [⟨node, lock, label, signal, some (world.now + millis)⟩] }
  | .succeed => world.say (Manager.jobFinished lock)
  | .fail text => world.say (Manager.jobFailed lock text)
  | .die => world

/-- Carries out an effect of a step of a station. -/
def carryOut (node : Nat) (world : World) : Effect → World
  | .log entry => world.say entry
  | .count metric => { world with metrics := world.metrics.count metric }
  | .gauge metric value => { world with metrics := world.metrics.set metric value }
  | .startJob id signal =>
    match world.stations[node]? with
    | some station =>
      match station.manager.cycles[id]?, station.jobs[id]? with
      | some cycle, some job => world.startJob node cycle.name job signal
      | _, _ => world
    | none => world

/-- Replaces the manager of a station and carries out the effects of its step. -/
def withManager (world : World) (node : Nat) (station : Station) (manager : Manager)
    (effects : List Effect) : World :=
  effects.foldl (carryOut node)
    { world with stations := world.stations.set node { station with manager := manager } }

/-- Moves a cycle of a station.  A jittered delay is drawn as long as it can be. -/
def stepCycle (world : World) (node : Nat) (station : Station) (id : Nat) (cycle : Cycle)
    (stimulus : Stimulus) : World :=
  let moment : Moment := ⟨world.nanos, cycle.backoff.ceilingMillis⟩
  let (manager, effects) := station.manager.step id moment stimulus
  world.withManager node station manager effects

/-- The call of a cycle that is on its way. -/
def flight? (world : World) (node id : Nat) : Option Flight :=
  (world.flights.find? fun f => f.flight.node == node && f.cycle == id).map CycleFlight.flight

/-- Forgets the call of a cycle. -/
def land (world : World) (node id : Nat) : World :=
  { world with
    flights := world.flights.filter fun f => !(f.flight.node == node && f.cycle == id) }

/-- Answers the call of a cycle. -/
def arrive (world : World) (node : Nat) (station : Station) (id : Nat) (cycle : Cycle)
    (flight : Flight) : World :=
  let (reply, site) := world.site.arrive flight world.now
  ((world.land node id).withSite site).stepCycle node station id cycle
    (.response (.reply reply))

/-- Moves a cycle if it can move without the passing of time. -/
def moveCycle? (world : World) (node : Nat) (station : Station) (id : Nat) (cycle : Cycle) :
    Option World :=
  match cycle.phase.need with
  | .finished => none
  | .nothing => some (world.stepCycle node station id cycle .turn)
  | .time =>
    some (world.stepCycle node station id cycle
      (.response (.time (station.reading world.now))))
  | .pause due =>
    -- Of a deadline that has come and a shutdown either may wake a pause; here the deadline does.
    if due ≤ world.nanos then some (world.stepCycle node station id cycle .deadline)
    else if station.manager.shutDown then some (world.stepCycle node station id cycle .shutdown)
    else none
  | .answer call =>
    match world.flight? node id with
    | some flight =>
      if flight.due ≤ world.now then some (world.arrive node station id cycle flight) else none
    | none =>
      -- The call was not begun yet; without a delay it is answered at once.
      let (flight, site) := world.site.depart node world.now cycle.name call
      let world := world.withSite site
      if flight.due ≤ world.now then some (world.arrive node station id cycle flight)
      else some { world with flights := world.flights ++ [⟨id, flight⟩] }

/-- Ends a running job if its time has come or its signal was cancelled. -/
def moveJob? (world : World) (index : Nat) (job : RunningJob) : Option World :=
  let ended := { world with running := world.running.eraseIdx index }
  let cancelled := world.isCancelled job.node job.signal
  match job.due? with
  | none =>
    if cancelled then
      some ((ended.note job.node job.label "cancelled").say (Manager.jobFinished job.lock))
    else none
  | some due =>
    if due ≤ world.now then
      some ((ended.note job.node job.label ("finished cancelled=" ++ truth cancelled)).say
        (Manager.jobFinished job.lock))
    else none

/-- Moves the first cycle or job that can move. -/
def move? (world : World) : Option World :=
  let cycle? :=
    world.stations.zipIdx.findSome? fun (station, node) =>
      station.manager.cycles.zipIdx.findSome? fun (cycle, id) =>
        world.moveCycle? node station id cycle
  match cycle? with
  | some world => some world
  | none => world.running.zipIdx.findSome? fun (job, index) => world.moveJob? index job

/-- More moves than happen at one time, unless cycles retry without any delay. -/
def patience : Nat := 20000

/-- Runs everything without letting time pass, for a number of moves. -/
def settleFor (world : World) : Nat → World
  | 0 => world
  | fuel + 1 =>
    match world.move? with
    | some world => settleFor world fuel
    | none => world

/-- Runs everything without letting time pass. -/
def settle (world : World) : World := world.settleFor patience

/-- The deadlines of cycles, in milliseconds. -/
def pauses (world : World) : List Nat :=
  world.stations.flatMap fun station =>
    station.manager.cycles.filterMap fun cycle =>
      match cycle.phase.need with
      | .pause due => some (Span.timerMillis ⟨due⟩)
      | _ => none

/-- The next time at which something happens after now. -/
def nextTime? (world : World) : Option Nat :=
  ((world.pauses ++ world.flights.map (fun f => f.flight.due)
    ++ world.running.filterMap RunningJob.due?).filter (world.now < ·)).min?

/-- Lets time pass from a time that has been reached up to a later one, with everything
that happens on the way. -/
def passTime (target : Nat) (now : Nat) (world : World) : World :=
  if now < target then
    -- Deadlines that have passed were served when everything was settled.
    let next := Nat.min target (Nat.max (now + 1) (world.nextTime?.getD target))
    passTime target next { world with now := next }.settle
  else world
termination_by target - now
decreasing_by
  simp only [Nat.min_def, Nat.max_def]
  split <;> split <;> omega

/-- Lets some milliseconds pass. -/
def sleep (world : World) (millis : Nat) : World :=
  passTime (world.now + millis) world.now world.settle

end World

end Leasehold
