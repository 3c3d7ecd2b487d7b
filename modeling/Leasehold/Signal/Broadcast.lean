/-!
# The shutdown broadcast

A shutdown is announced to every receiver that has subscribed.  A receiver that does
not listen keeps only the latest announcement and is told how many it missed.

* `Broadcast`: the announcements so far and where each receiver stands.
* `Broadcast.subscribe`, `Broadcast.announce`, `Broadcast.receive`: the operations.
-/

namespace Leasehold

/-- What a receiver finds. -/
inductive Broadcast.Notice where
  | signal
  | empty
  | lagged (missed : Nat)
  deriving Repr, DecidableEq

/-- Announcements to receivers: how many were made, whether one was, and how many each
receiver has behind it. -/
structure Broadcast where
  announced : Nat
  triggered : Bool
  receivers : List Nat
  deriving Repr, DecidableEq

namespace Broadcast

/-- The broadcast before any announcement. -/
def silent : Broadcast := ⟨0, false, []⟩

/-- A new receiver, which hears the announcements made from now on. -/
def subscribe (broadcast : Broadcast) : Nat × Broadcast :=
  (broadcast.receivers.length,
    { broadcast with receivers := broadcast.receivers ++ [broadcast.announced] })

/-- Announces a shutdown. -/
def announce (broadcast : Broadcast) : Broadcast :=
  { broadcast with announced := broadcast.announced + 1, triggered := true }

/-- What a receiver finds that has some announcements behind it, and how many it has
behind it afterwards. -/
def look (announced behind : Nat) : Notice × Nat :=
  if announced ≤ behind then (.empty, behind)
  else if announced = behind + 1 then (.signal, announced)
  else (.lagged (announced - behind - 1), announced - 1)

/-- A receiver looks for an announcement; `none` if there is no such receiver. -/
def receive? (broadcast : Broadcast) (receiver : Nat) : Option (Notice × Broadcast) :=
  broadcast.receivers[receiver]?.map fun behind =>
    let (notice, behind) := look broadcast.announced behind
    (notice, { broadcast with receivers := broadcast.receivers.set receiver behind })

end Broadcast

end Leasehold
