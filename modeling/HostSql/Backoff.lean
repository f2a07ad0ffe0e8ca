import HostSql.Number.Power

/-!
# Waiting for a lock with growing delays

A `Backoff` answers requests to wait: each waits twice as long as the one before, from a millisecond
up to a tenth of a second, and the last one is cut so that the waits of one lock never exceed the
budget. Attempt zero begins a new lock. Times are in microseconds.
-/

namespace HostSql

/-- The waits granted for one lock. -/
structure Backoff where
  /-- How long the waits for one lock may last together. -/
  budget : Nat
  /-- How long they have lasted. -/
  waited : Nat
  /-- How many delays of the schedule are used up. -/
  used : Nat
  deriving Repr, DecidableEq

namespace Backoff

def minDelay : Nat := 1000

def maxDelay : Nat := 100000

/-- The `n`-th delay of the schedule, counted from zero. -/
def delay (n : Nat) : Nat := min (minDelay * powTwo n) maxDelay

def ofBudget (budget : Nat) : Backoff := ⟨budget, 0, 0⟩

/-- A backoff at the start of a lock. -/
def restart (b : Backoff) : Backoff := ⟨b.budget, 0, 0⟩

/-- The next wait of a schedule, cut to what is left of the budget; `none` once nothing is left. -/
def nextWaitOf (delays : Nat → Nat) (b : Backoff) : Option Nat × Backoff :=
  let remaining := b.budget - b.waited
  if remaining = 0 then (none, b)
  else
    let wait := min (delays b.used) remaining
    (some wait, { b with waited := b.waited + wait, used := b.used + 1 })

/-- The next wait. -/
def nextWait (b : Backoff) : Option Nat × Backoff := b.nextWaitOf delay

/-- Answers one request: whether to try again, after the wait that `nextWait` says. -/
def request (b : Backoff) (attempt : UInt32) : Bool × Backoff :=
  let (wait, b) := (if attempt = 0 then b.restart else b).nextWait
  (wait.isSome, b)

/-- Answers a list of requests in turn. -/
def requests (b : Backoff) : List UInt32 → List Bool
  | [] => []
  | attempt :: rest =>
    let (retry, b) := b.request attempt
    retry :: b.requests rest

end Backoff

end HostSql
