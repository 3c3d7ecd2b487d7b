import Leasehold.Lock.Attempt
import Leasehold.Simulation.Site

/-!
# Errands and races

An errand is one operation on a lock: an attempt, a renewal or a lookup.  It runs until
a store call takes time.  Two errands that race take turns whenever one of them waits.

* `Errand`: the operations under one roof.
* `Errand.proceed`: runs an errand until it waits or ends.
* `Errand.finish`: runs one errand to its end.
* `Race.run`: runs two errands to their ends.
-/

namespace Leasehold

/-- One operation on a lock. -/
inductive Errand where
  | attempt (attempt : Attempt)
  | renewal (renewal : Renewal)
  | lookup (lookup : Lookup)
  deriving Repr

/-- What an errand brought back. -/
inductive Errand.Result where
  | attempt (result : Except LockError Outcome)
  | renewal (result : Except LockError Bool)
  | lookup (result : Except LockError (Option LockRow))
  deriving Repr

namespace Errand

/-- The claimant of an errand. -/
def claimant : Errand → Claimant
  | attempt a => a.claimant
  | renewal r => r.claimant
  | lookup l => l.claimant

/-- What an errand asks for next. -/
def request? : Errand → Option Request
  | attempt a => a.request?
  | renewal r => r.request?
  | lookup l => l.request?

/-- The errand after a response. -/
def resume : Errand → Response → Errand
  | attempt a, response => attempt (a.resume response)
  | renewal r, response => renewal (r.resume response)
  | lookup l, response => lookup (l.resume response)

/-- What the errand brought back, if it has ended. -/
def result? : Errand → Option Result
  | attempt a => a.result?.map .attempt
  | renewal r => r.result?.map .renewal
  | lookup l => l.result?.map .lookup

/-- More requests than any errand has. -/
def mostRequests : Nat := 8

end Errand

/-- An errand of a node, with the call that it waits for. -/
structure Runner where
  node : Nat
  errand : Errand
  flight? : Option Flight
  deriving Repr

namespace Runner

/-- Runs an errand until it waits for a call or has ended. -/
def proceed (clock : Instant) (now : Nat) : Nat → Runner → Site → Runner × Site
  | 0, runner, site => (runner, site)
  | fuel + 1, runner, site =>
    match runner.errand.request? with
    | none => (runner, site)
    | some .time =>
      proceed clock now fuel { runner with errand := runner.errand.resume (.time clock) } site
    | some (.call call) =>
      let (flight, site) := site.depart runner.node now runner.errand.claimant.name call
      if flight.due ≤ now then
        let (reply, site) := site.arrive flight now
        proceed clock now fuel
          { runner with errand := runner.errand.resume (.reply reply) } site
      else ({ runner with flight? := some flight }, site)

/-- Answers the call that an errand waits for and runs on. -/
def land (clock : Instant) (now : Nat) (runner : Runner) (site : Site) : Runner × Site :=
  match runner.flight? with
  | none => (runner, site)
  | some flight =>
    let (reply, site) := site.arrive flight now
    proceed clock now Errand.mostRequests
      { runner with errand := runner.errand.resume (.reply reply), flight? := none } site

/-- When the call that an errand waits for is answered. -/
def due? (runner : Runner) : Option Nat := runner.flight?.map Flight.due

end Runner

/-- The time, and the site of errands. -/
structure Race where
  clock : Instant
  now : Nat
  site : Site
  deriving Repr

namespace Race

/-- Runs an errand that has begun up to its end; the time moves on with its calls. -/
def runAlone (race : Race) (runner : Runner) : Nat → Runner × Race
  | 0 => (runner, race)
  | fuel + 1 =>
    match runner.due? with
    | none => (runner, race)
    | some due =>
      let (runner, site) := runner.land race.clock due race.site
      runAlone { race with now := due, site := site } runner fuel

/-- Runs two errands that have begun up to their ends; of two that are due together the
first goes first. -/
def runBoth (race : Race) (a b : Runner) : Nat → (Runner × Runner) × Race
  | 0 => ((a, b), race)
  | fuel + 1 =>
    match a.due?, b.due? with
    | none, _ =>
      let (b, race) := race.runAlone b (fuel + 1)
      ((a, b), race)
    | some dueA, some dueB =>
      if dueA ≤ dueB then
        let (a, site) := a.land race.clock dueA race.site
        runBoth { race with now := dueA, site := site } a b fuel
      else
        let (b, site) := b.land race.clock dueB race.site
        runBoth { race with now := dueB, site := site } a b fuel
    | some _, none =>
      let (a, race) := race.runAlone a (fuel + 1)
      ((a, b), race)

/-- Begins an errand of a node. -/
def begin (race : Race) (node : Nat) (errand : Errand) : Runner × Race :=
  let (runner, site) :=
    Runner.proceed race.clock race.now Errand.mostRequests ⟨node, errand, none⟩ race.site
  (runner, { race with site := site })

/-- Runs one errand of a node. -/
def one (race : Race) (node : Nat) (errand : Errand) : Option Errand.Result × Race :=
  let (runner, race) := race.begin node errand
  let (runner, race) := race.runAlone runner Errand.mostRequests
  (runner.errand.result?, race)

/-- Runs two errands side by side, the first of them begun first. -/
def both (race : Race) (nodeA : Nat) (a : Errand) (nodeB : Nat) (b : Errand) :
    (Option Errand.Result × Option Errand.Result) × Race :=
  let (a, race) := race.begin nodeA a
  let (b, race) := race.begin nodeB b
  let ((a, b), race) := race.runBoth a b (2 * Errand.mostRequests)
  ((a.errand.result?, b.errand.result?), race)

end Race

end Leasehold
