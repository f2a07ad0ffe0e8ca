import HostSql.Backoff
import HostSql.Host.Invocation

/-!
# Policies for locked resources

A connection that meets a lock asks its policy whether to try again: a closure of the host, which
is told the resource and how often it has been asked, or a timeout with growing delays. A closure
that panics counts as a no.
-/

namespace HostSql

variable {σ : Type}

/-- How the question whether to wait for a lock is answered. -/
inductive BusyPolicy where
  | handler (resource : String) (callback : (resource : String) → (attempt : UInt32) → BusyProgram)
  | timeout (backoff : Backoff)

/-- Runs a busy closure; `none` is a panic. -/
def BusyProgram.run (a : Ambient σ) : BusyProgram → StateM σ (Option Bool)
  | answer retry => return some retry
  | panic => return none
  | emit event next => do
    a.emit event
    next.run a
  | execute connection sql next => do
    let answer ← a.execute connection sql
    (next answer).run a

namespace BusyPolicy

/-- A timeout of so many milliseconds. -/
def ofMilliseconds (ms : UInt32) : BusyPolicy := .timeout (.ofBudget (ms.toNat * 1000))

/-- Asks a policy whether to try again. -/
def request (a : Ambient σ) (policy : BusyPolicy) (attempt : UInt32) :
    StateM σ (Bool × BusyPolicy) := do
  match policy with
  | .timeout backoff =>
    let (retry, backoff) := backoff.request attempt
    return (retry, .timeout backoff)
  | .handler resource callback =>
    match ← (callback resource attempt).run a with
    | some retry => return (retry, policy)
    | none =>
      a.log (.of .warn "busy handler panicked"
        [("resource", resource), ("attempt", toString attempt.toNat)])
      return (false, policy)

/-- Asks a policy once for each attempt. -/
def requests (a : Ambient σ) : BusyPolicy → List UInt32 → StateM σ (List Bool)
  | _, [] => return []
  | policy, attempt :: rest => do
    let (retry, policy) ← policy.request a attempt
    return retry :: (← policy.requests a rest)

end BusyPolicy

end HostSql
