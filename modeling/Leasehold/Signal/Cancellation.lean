/-!
# Cancellation signals

A signal is cancelled once and stays so.  Signals are shared: a copy of a signal is the
same signal under another number.

* `Signals`: which signals exist and which are cancelled.
* `Signals.create`, `Signals.cancel`, `Signals.isCancelled`: the operations.
* `SignalBoard`: numbered copies of signals, with cancellations that happen later.
* `SignalBoard.wait`: waits for a signal up to a time.
-/

namespace Leasehold

/-- A signal. -/
abbrev SignalId := Nat

/-- The signals that exist, with whether each is cancelled. -/
structure Signals where
  cancelled : List Bool
  deriving Repr, DecidableEq

namespace Signals

/-- No signal. -/
def none : Signals := ⟨[]⟩

instance : Inhabited Signals := ⟨none⟩

/-- A new signal. -/
def create (signals : Signals) : SignalId × Signals :=
  (signals.cancelled.length, ⟨signals.cancelled ++ [false]⟩)

/-- Cancels a signal. -/
def cancel (signals : Signals) (signal : SignalId) : Signals :=
  ⟨signals.cancelled.set signal true⟩

/-- Cancels several signals. -/
def cancelAll (signals : Signals) (list : List SignalId) : Signals :=
  list.foldl cancel signals

/-- Whether a signal is cancelled. -/
def isCancelled (signals : Signals) (signal : SignalId) : Bool :=
  signals.cancelled.getD signal false

/-- A cancelled signal stays cancelled. -/
theorem isCancelled_cancel (signals : Signals) (signal other : SignalId)
    (h : signals.isCancelled other = true) :
    (signals.cancel signal).isCancelled other = true := by
  unfold isCancelled cancel at *
  by_cases hSame : signal = other
  · subst hSame
    by_cases hLength : signal < signals.cancelled.length
    · simp [List.getD, hLength]
    · simp [List.getD, hLength] at h
  · simpa [List.getD, List.getElem?_set, hSame] using h

end Signals

/-- Numbered copies of signals at a time in milliseconds, and the cancellations that
are still to come. -/
structure SignalBoard where
  now : Nat
  signals : Signals
  copies : List SignalId
  coming : List (Nat × SignalId)
  deriving Repr, DecidableEq

namespace SignalBoard

/-- One signal under the number zero. -/
def start : SignalBoard :=
  let (signal, signals) := Signals.none.create
  ⟨0, signals, [signal], []⟩

/-- A new signal under the next number. -/
def create (board : SignalBoard) : Nat × SignalBoard :=
  let (signal, signals) := board.signals.create
  (board.copies.length, { board with signals := signals, copies := board.copies ++ [signal] })

/-- A copy of a signal under the next number. -/
def copy (board : SignalBoard) (signal : SignalId) : Nat × SignalBoard :=
  (board.copies.length, { board with copies := board.copies ++ [signal] })

/-- Cancels a signal. -/
def cancel (board : SignalBoard) (signal : SignalId) : SignalBoard :=
  { board with signals := board.signals.cancel signal }

/-- Cancels a signal some milliseconds later. -/
def cancelLater (board : SignalBoard) (signal : SignalId) (delay : Nat) : SignalBoard :=
  { board with coming := board.coming ++ [(board.now + delay, signal)] }

/-- Lets the cancellations happen that a test of their time selects. -/
def settle (board : SignalBoard) (happens : Nat → Bool) : SignalBoard :=
  { board with
    signals :=
      board.signals.cancelAll ((board.coming.filter fun c => happens c.1).map Prod.snd)
    coming := board.coming.filter fun c => !happens c.1 }

/-- When a signal that is not cancelled will be, among the cancellations to come. -/
def cancelTime? (board : SignalBoard) (signal : SignalId) : Option Nat :=
  ((board.coming.filter fun c => c.2 == signal).map fun c => Nat.max c.1 board.now).min?

/-- Waits for a signal, some milliseconds at most: whether it was cancelled before they
were over, and the board afterwards. -/
def wait (board : SignalBoard) (signal : SignalId) (limit : Nat) : Bool × SignalBoard :=
  if board.signals.isCancelled signal then (true, board)
  else
    let deadline := board.now + limit
    let expire := (false, { board.settle (· < deadline) with now := deadline })
    match board.cancelTime? signal with
    | none => expire
    | some time =>
      if time < deadline then (true, { board.settle (· ≤ time) with now := time }) else expire

end SignalBoard

end Leasehold
