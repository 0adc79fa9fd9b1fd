import Gamebook.Book.Basic

/-!
The countdown of a timed menu. At most one runs; starting another replaces it. Each tick takes one
second off, and the tick that takes the last one leaves the countdown idle.
-/
namespace Gamebook

structure Running where
  owner : String
  remaining : Nat
  defaultIndex : Nat
deriving DecidableEq, Repr

structure Countdown where
  running : Option Running
  /-- The number of countdowns started so far. -/
  epoch : Nat
deriving DecidableEq, Repr

inductive TickOutcome where
  | idle
  | counting (remaining : Nat)
  | expired (owner : String) (defaultIndex : Nat)
deriving DecidableEq, Repr

namespace Countdown

def fresh : Countdown := ⟨none, 0⟩

def isRunning (c : Countdown) : Bool := c.running.isSome

/-- The seconds left, none of them when idle. -/
def remaining (c : Countdown) : Nat :=
  match c.running with
  | some r => r.remaining
  | none => 0

def start (c : Countdown) (owner : String) (t : TimedChoices) : Countdown :=
  ⟨some ⟨owner, t.duration, t.defaultIndex.toNat⟩, c.epoch + 1⟩

def cancel (c : Countdown) : Countdown := { c with running := none }

def tick (c : Countdown) : Countdown × TickOutcome :=
  match c.running with
  | none => (c, .idle)
  | some r =>
    if 1 < r.remaining then
      ({ c with running := some { r with remaining := r.remaining - 1 } },
        .counting (r.remaining - 1))
    else (c.cancel, .expired r.owner r.defaultIndex)

/-- What can be done to a countdown. -/
inductive Call where
  | start (owner : String) (t : TimedChoices)
  | cancel
  | tick
deriving DecidableEq, Repr

inductive Answer where
  | started
  /-- Whether there was anything to cancel. -/
  | cancelled (wasRunning : Bool)
  | ticked (outcome : TickOutcome)
deriving DecidableEq, Repr

def perform (c : Countdown) : Call → Countdown × Answer
  | .start owner t => (c.start owner t, .started)
  | .cancel => (c.cancel, .cancelled c.isRunning)
  | .tick => (c.tick.1, .ticked c.tick.2)

end Countdown

end Gamebook
