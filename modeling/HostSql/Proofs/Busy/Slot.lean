import HostSql.Proofs.Session.Lasting

/-!
# The busy slot of a connection

A connection has one slot for what decides about its locks. Installing a policy, or none, takes the
place of the one before. Questions leave the slot as it is, whatever the closures do that answer
them, and so does all that statements do while they run.

What a question does is in the slot: a closure is run once, on the path of its connection and the
number of the question, and one that panics has said no.

> `Slot.session`: what the slot holds lasts through everything that the engine runs.
> `askPolicy_handler`: a question runs the closure in the slot, once.
-/

namespace HostSql

open Engine (World Hooks HostKeeps Lasting Spare)
open SessionWorld

/-! ## Policies and questions -/

/-- A policy with nothing waited for: that is all that questions change of it. -/
def BusyPolicy.rested : BusyPolicy → BusyPolicy
  | handler resource callback => .handler resource callback
  | timeout backoff => .timeout backoff.restart

/-- A question only uses up the budget for its lock. -/
theorem Backoff.request_restart (b : Backoff) (attempt : UInt32) :
    (b.request attempt).2.restart = b.restart := by
  have hnext (b : Backoff) : b.nextWait.2.restart = b.restart := by
    unfold nextWait nextWaitOf
    dsimp only
    split <;> rfl
  unfold request
  by_cases h : attempt = 0
  · rw [if_pos h]
    exact hnext b.restart
  · rw [if_neg h]
    exact hnext b

theorem BusyPolicy.request_rested {σ : Type} (a : Ambient σ) (policy : BusyPolicy)
    (attempt : UInt32) (w : σ) :
    ((policy.request a attempt).run w).1.2.rested = policy.rested := by
  cases policy with
  | timeout backoff => exact congrArg BusyPolicy.timeout (backoff.request_restart attempt)
  | handler resource callback =>
    unfold request
    rw [run_bind]
    rcases ((callback resource attempt).run a).run w with ⟨answer?, w'⟩
    cases answer? <;> rfl

/-- What the slot of an open connection holds. A timeout may have used up some of its budget. -/
structure Slot (k : Nat) (policy? : Option BusyPolicy) (w : SessionWorld) : Prop where
  /-- The connection's number is not given out again. -/
  given : k < w.nextId
  asks : (w.connections.get? k).map (·.asksHost) = some policy?.isSome
  held : (w.host.policies.get? k).map (·.rested) = policy?

namespace Slot

variable {k : Nat} {policy? : Option BusyPolicy} {w : SessionWorld}

/-- Nothing in the slot depends on statements. -/
theorem spare (n : Nat) : Spare (Slot k policy?) n := fun _ h => ⟨h.given, h.asks, h.held⟩

theorem lasting : Lasting (Slot k policy?) where
  connection c f hf _ := by
    intro w h
    refine ⟨h.given, ?_, h.held⟩
    show ((Assoc.update w.connections c f).get? k).map (·.asksHost) = _
    by_cases hck : c = k
    · subst hck
      obtain ⟨conn, hconn, hasks⟩ := Option.map_eq_some_iff.mp h.asks
      rw [Assoc.get?_update_self, hconn, ← hasks]
      exact congrArg some (hf conn conn.asksHost)
    · rw [Assoc.get?_update_ne _ hck]
      exact h.asks
  statements _ _ := fun _ h => ⟨h.given, h.asks, h.held⟩
  added _ _ _ := fun _ h => ⟨h.given, h.asks, h.held⟩
  fresh := fun _ h => ⟨Nat.lt_succ_of_lt h.given, h.asks, h.held⟩
  volumes _ _ _ := fun _ h => ⟨h.given, h.asks, h.held⟩
  spare _ _ n _ := spare n

/-- A question leaves the slot as it is, and so does what the closure does that it runs. -/
theorem askPolicy_keeps {a : Ambient SessionWorld} (ha : a.Keeps (Slot k policy?))
    (connection attempt : Nat) : Keeps (Slot k policy?) (askPolicy a connection attempt) := by
  unfold askPolicy
  refine .get_bind fun w hw => ?_
  cases hpolicy : w.host.policies.get? connection with
  | none => exact hw
  | some policy =>
    have hrested := policy.request_rested a (UInt32.ofNat attempt) w
    have hasked := BusyPolicy.request_keeps ha policy (UInt32.ofNat attempt) w hw
    dsimp only
    rw [run_bind]
    generalize (policy.request a (UInt32.ofNat attempt)).run w = asked at hrested hasked
    obtain ⟨⟨retry, policy'⟩, w'⟩ := asked
    refine ⟨hasked.given, hasked.asks, ?_⟩
    show ((Assoc.set w'.host.policies connection policy').get? k).map (·.rested) = policy?
    by_cases hck : connection = k
    · subst hck
      rw [Assoc.get?_set_self, ← hw.held, hpolicy]
      exact congrArg some hrested
    · rw [Assoc.get?_set_ne _ hck]
      exact hasked.held

theorem session : SessionLasting (Slot k policy?) where
  toLasting := lasting
  host f hf := by
    intro w h
    refine ⟨h.given, h.asks, ?_⟩
    show ((f w.host).policies.get? k).map (·.rested) = policy?
    rw [hf]
    exact h.held
  asked _ ha connection attempt := askPolicy_keeps ha connection attempt

/-- The closures of a session leave the slot as it is, however deeply they nest. -/
theorem hooks_keep (depth : Nat) : HostKeeps (hooks depth) (Slot k policy?) :=
  HostSql.hooks_keep session depth

/-- Installing a policy takes the place of the one before. -/
theorem install (h : Slot k policy? w) (policy : Option BusyPolicy) :
    Slot k (policy.map (·.rested)) ((setNativePolicy k policy).run w).2 := by
  obtain ⟨conn, hconn, -⟩ := Option.map_eq_some_iff.mp h.asks
  refine ⟨h.given, ?_, ?_⟩
  · show ((Assoc.update w.connections k fun c =>
      { c with asksHost := policy.isSome, asked := some 0 }).get? k).map (·.asksHost) = _
    rw [Assoc.get?_update_self, hconn, Option.isSome_map]
    rfl
  · cases policy with
    | none =>
      show ((Assoc.erase w.host.policies k).get? k).map (·.rested) = none
      rw [Assoc.get?_erase_self]
      rfl
    | some p =>
      show ((Assoc.set w.host.policies k p).get? k).map (·.rested) = some p.rested
      rw [Assoc.get?_set_self]
      rfl

/-- What is installed on another connection is in another slot. -/
theorem install_other {c : Nat} (hck : c ≠ k) (policy : Option BusyPolicy) :
    Keeps (Slot k policy?) (setNativePolicy c policy) := by
  intro w h
  refine ⟨h.given, ?_, ?_⟩
  · show ((Assoc.update w.connections c fun c =>
      { c with asksHost := policy.isSome, asked := some 0 }).get? k).map (·.asksHost) = _
    rw [Assoc.get?_update_ne _ hck]
    exact h.asks
  · cases policy with
    | none =>
      show ((Assoc.erase w.host.policies c).get? k).map (·.rested) = _
      rw [Assoc.get?_erase_ne _ hck]
      exact h.held
    | some p =>
      show ((Assoc.set w.host.policies c p).get? k).map (·.rested) = _
      rw [Assoc.get?_set_ne _ hck]
      exact h.held

/-- A slot with a closure holds just this closure. -/
theorem handler_held {resource : String} {callback : String → UInt32 → BusyProgram}
    (h : Slot k (some (.handler resource callback)) w) :
    w.host.policies.get? k = some (.handler resource callback) := by
  obtain ⟨policy, hpolicy, hrested⟩ := Option.map_eq_some_iff.mp h.held
  cases policy with
  | handler _ _ =>
    cases hrested
    exact hpolicy
  | timeout _ => exact nomatch hrested

end Slot

/-- With nothing in the slot nobody is called, and the answer is no. -/
theorem askPolicy_none {k : Nat} {w : SessionWorld} (h : Slot k none w) (a : Ambient SessionWorld)
    (attempt : Nat) : (askPolicy a k attempt).run w = (false, w) := by
  unfold askPolicy
  rw [run_bind, run_get, Option.map_eq_none_iff.mp h.held]
  rfl

/-- A timeout in the slot answers from what is left of its budget, and nothing else happens. -/
theorem askPolicy_timeout {k : Nat} {w : SessionWorld} {backoff : Backoff}
    (h : Slot k (some (.timeout backoff)) w) (a : Ambient SessionWorld) (attempt : Nat) :
    ∃ used : Backoff, used.restart = backoff ∧
      (askPolicy a k attempt).run w =
        let answered := used.request (UInt32.ofNat attempt)
        (answered.1, { w with host := { w.host with
          policies := w.host.policies.set k (.timeout answered.2) } }) := by
  obtain ⟨policy, hpolicy, hrested⟩ := Option.map_eq_some_iff.mp h.held
  cases policy with
  | handler _ _ => exact nomatch hrested
  | timeout used =>
    refine ⟨used, BusyPolicy.timeout.inj hrested, ?_⟩
    unfold askPolicy
    rw [run_bind, run_get, hpolicy]
    rfl

/-! ## Questions to a closure -/

section Closures

variable {σ : Type}

/-- The answer of a closure that is asked about a lock. One that panics says no, and it is logged. -/
def BusyProgram.decide (a : Ambient σ) (resource : String) (attempt : UInt32)
    (program : BusyProgram) : StateM σ Bool := do
  match ← program.run a with
  | some retry => return retry
  | none =>
    a.log (.of .warn "busy handler panicked"
      [("resource", resource), ("attempt", toString attempt.toNat)])
    return false

/-- A policy with a closure answers what the closure answers, and stays what it is. -/
theorem BusyPolicy.request_handler (a : Ambient σ) (resource : String)
    (callback : String → UInt32 → BusyProgram) (attempt : UInt32) (w : σ) :
    ((BusyPolicy.handler resource callback).request a attempt).run w =
      let answered := ((callback resource attempt).decide a resource attempt).run w
      ((answered.1, .handler resource callback), answered.2) := by
  unfold request BusyProgram.decide
  rw [run_bind, run_bind]
  rcases ((callback resource attempt).run a).run w with ⟨answer?, w'⟩
  cases answer? <;> rfl

theorem BusyProgram.decide_keeps {I : σ → Prop} {a : Ambient σ} (h : a.Keeps I) (resource : String)
    (attempt : UInt32) (program : BusyProgram) : Keeps I (program.decide a resource attempt) := by
  refine (program.run_keeps h).bind fun answer? => ?_
  cases answer? with
  | some retry => exact .pure retry
  | none => exact (h.log _).bind fun _ => .pure false

end Closures

/-- A question runs the closure in the slot once, on the path of its connection and the number of the
question, and does nothing else. -/
theorem askPolicy_handler {k : Nat} {w : SessionWorld} {resource : String}
    {callback : String → UInt32 → BusyProgram} (h : Slot k (some (.handler resource callback)) w)
    {a : Ambient SessionWorld} (ha : a.Keeps (Slot k (some (.handler resource callback))))
    (attempt : Nat) :
    (askPolicy a k attempt).run w =
      ((callback resource (UInt32.ofNat attempt)).decide a resource (UInt32.ofNat attempt)).run w := by
  have hkept := BusyProgram.decide_keeps ha resource (UInt32.ofNat attempt)
    (callback resource (UInt32.ofNat attempt)) w h
  unfold askPolicy
  rw [run_bind, run_get, h.handler_held, run_bind, BusyPolicy.request_handler]
  generalize ((callback resource (UInt32.ofNat attempt)).decide a resource
    (UInt32.ofNat attempt)).run w = answered at hkept
  obtain ⟨again, w'⟩ := answered
  -- the policy that is put back is the one that is there
  show (again, { w' with host := { w'.host with
    policies := w'.host.policies.set k (.handler resource callback) } }) = _
  rw [Assoc.set_of_get? hkept.handler_held]

end HostSql
