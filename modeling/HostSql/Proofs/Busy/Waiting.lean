import HostSql.Engine.Execution
import HostSql.Proofs.AssocLaws
import HostSql.Proofs.Engine.Conduct
import HostSql.Proofs.Engine.Runs

/-!
# Waiting for a lock

A claim to a volume that others hold is tried again as long as the host says yes (`Claim.lock_succ`).
So after a yes the wait goes on as if it had begun in the world that the host left behind
(`Claim.lock_again`), and with a no, or when nobody is to be asked, it is over (`Claim.lock_refused`).

`Waiting` says how the engine gets from one world to another while it waits: what it asks its host
in between, and nothing else. The questions are numbered one after the other (`Waiting.numbered`),
every one but the last has been answered with yes, and after a no there is none.

> `Waiting.numbered`: a wait asks its questions one after the other, and none after a no.
> `Claim.lock_again`, `Claim.lock_refused`: what follows on an answer.
-/

namespace HostSql.Engine

variable {H α β : Type}

/-! ## Claims -/

/-- A claim to a volume that may have to wait for others. -/
inductive Claim where
  /-- To read it. -/
  | share
  /-- To prepare changes, or at once to put them down if it is to be alone. -/
  | reserve (alone : Bool)
  /-- To put prepared changes down. -/
  | exclude
  deriving Repr, DecidableEq

/-- Claims a volume, asking the host as often as it takes. -/
def Claim.lock (scope : Scope H) : Claim → Nat → Run H Unit
  | share => lockShared scope
  | reserve alone => lockReserved scope alone
  | exclude => lockExclusive scope

/-- What is left to do when the volume has been reserved. A connection that wants it alone waits for
those that read, and gives back what it has claimed if that is in vain. -/
def takeAlone (scope : Scope H) (alone : Bool) (fuel : Nat) (release : Run H Unit) : Run H Unit := do
  if alone then
    match ← attempt (lockExclusive scope fuel) with
    | .ok _ => return
    | .error fault =>
      release
      throw fault

/-- Tries a claim once. The answer says whether it was granted; if not, the host is to be asked. -/
def Claim.tryOnce (scope : Scope H) : Claim → Nat → Run H Bool
  | share, _ => do
    let conn ← connectionOf scope.connection
    if conn.lock != .none then return true
    if Lock.allowed .shared (← rivalLocks scope.connection conn.volume) then
      setLock scope.connection .shared
      return true
    return false
  | exclude, _ => do
    let conn ← connectionOf scope.connection
    if conn.lock = .exclusive then return true
    if Lock.allowed .exclusive (← rivalLocks scope.connection conn.volume) then
      setLock scope.connection .exclusive
      return true
    setLock scope.connection .pending
    return false
  | reserve alone, fuel => do
    let before := (← connectionOf scope.connection).lock
    let release : Run H Unit := if before = .none then setLock scope.connection .none else pure ()
    lockShared scope fuel
    let conn ← connectionOf scope.connection
    if conn.lock.strength < Lock.reserved.strength then
      if Lock.allowed .reserved (← rivalLocks scope.connection conn.volume) then
        setLock scope.connection .reserved
      else
        release
        if before = .none then return false
        throw .busy
    takeAlone scope (alone && conn.draft.isNone) fuel release
    return true

/-- A claim is tried, and after a yes of the host claimed again. -/
theorem Claim.lock_succ (scope : Scope H) (c : Claim) (fuel : Nat) :
    c.lock scope (fuel + 1) = (do
      if ← c.tryOnce scope fuel then return
      if ← askHost scope then c.lock scope fuel else throw .busy) := by
  cases c with
  | share =>
    show lockShared scope (fuel + 1) = _
    unfold lockShared Claim.tryOnce Claim.lock
    simp only [bind_assoc]
    refine bind_congr fun conn => ?_
    split
    · simp
    · simp only [bind_assoc]
      refine bind_congr fun rivals => ?_
      split <;> simp
  | exclude =>
    show lockExclusive scope (fuel + 1) = _
    unfold lockExclusive Claim.tryOnce Claim.lock
    simp only [bind_assoc]
    refine bind_congr fun conn => ?_
    split
    · simp
    · simp only [bind_assoc]
      refine bind_congr fun rivals => ?_
      split <;> simp
  | reserve alone =>
    -- what is granted is not asked for
    have hgranted (x : Run H Unit) : x = (do
        x
        let granted ← pure true
        if granted = true then return
        if ← askHost scope then lockReserved scope alone fuel else throw .busy) := by
      simp only [pure_bind, if_true, bind_pure_unit]
    show lockReserved scope alone (fuel + 1) = _
    unfold lockReserved Claim.tryOnce Claim.lock
    simp only [bind_assoc]
    refine bind_congr fun conn => bind_congr fun _ => bind_congr fun conn' => ?_
    split
    · simp only [bind_assoc]
      refine bind_congr fun rivals => ?_
      split
      · simp only [bind_assoc]
        refine bind_congr fun _ => ?_
        exact hgranted (takeAlone scope (alone && conn'.draft.isNone) fuel _)
      · simp only [bind_assoc]
        refine bind_congr fun _ => ?_
        split <;> simp
    · simp only [bind_assoc]
      exact hgranted (takeAlone scope (alone && conn'.draft.isNone) fuel _)

section Courses

variable {scope : Scope H} {c : Claim} {fuel : Nat} {w w₁ w₂ : World H}

/-- A claim that is granted at once waits for nothing. -/
theorem Claim.lock_granted (h : (c.tryOnce scope fuel).run.run w = (.ok true, w₁)) :
    (c.lock scope (fuel + 1)).run.run w = (.ok (), w₁) := by
  rw [lock_succ, run_bind_ok h]
  rfl

/-- A claim that cannot be granted at all fails. -/
theorem Claim.lock_failed {fault : Fault}
    (h : (c.tryOnce scope fuel).run.run w = (.error fault, w₁)) :
    (c.lock scope (fuel + 1)).run.run w = (.error fault, w₁) := by
  rw [lock_succ, run_bind_error h]

/-- After a yes the wait goes on as if it had begun in the world that the host left. -/
theorem Claim.lock_again (h : (c.tryOnce scope fuel).run.run w = (.ok false, w₁))
    (hasked : (askHost scope).run.run w₁ = (.ok true, w₂)) :
    (c.lock scope (fuel + 1)).run.run w = (c.lock scope fuel).run.run w₂ := by
  rw [lock_succ, run_bind_ok h, if_neg Bool.false_ne_true, run_bind_ok hasked]
  rfl

/-- With a no the wait is over. -/
theorem Claim.lock_refused (h : (c.tryOnce scope fuel).run.run w = (.ok false, w₁))
    (hasked : (askHost scope).run.run w₁ = (.ok false, w₂)) :
    (c.lock scope (fuel + 1)).run.run w = (.error .busy, w₂) := by
  rw [lock_succ, run_bind_ok h, if_neg Bool.false_ne_true, run_bind_ok hasked]
  rfl

/-- The locks that others hold on a volume. -/
def World.rivals (w : World H) (k volume : Nat) : List Lock :=
  w.connections.filterMap fun (c, conn) =>
    if c != k && conn.volume = volume && conn.lock != .none then some conn.lock else none

theorem rivalLocks_run (w : World H) (k volume : Nat) :
    (rivalLocks (H := H) k volume).run.run w = (.ok (w.rivals k volume), w) := rfl

/-- A connection that holds a lock shares its volume already. -/
theorem lockShared_held {conn : Connection}
    (hconn : w.connections.get? scope.connection = some conn) (hheld : conn.lock ≠ .none) :
    (lockShared scope (fuel + 1)).run.run w = (.ok (), w) := by
  unfold lockShared
  rw [run_bind_ok (connectionOf_run hconn), if_pos (bne_iff_ne.mpr hheld)]
  rfl

/-- A connection that is reading already is refused at once when another one has reserved the volume:
it does not wait, and nobody is asked. -/
theorem upgrade_refused {conn : Connection}
    (hconn : w.connections.get? scope.connection = some conn) (hshared : conn.lock = .shared)
    (hrivals : Lock.allowed .reserved (w.rivals scope.connection conn.volume) = false)
    (alone : Bool) :
    (lockReserved scope alone (fuel + 2)).run.run w = (.error .busy, w) := by
  have hheld : conn.lock ≠ .none := by
    rw [hshared]
    exact nofun
  refine Claim.lock_failed (c := .reserve alone) ?_
  unfold Claim.tryOnce
  rw [run_bind_ok (connectionOf_run hconn), run_bind_ok (lockShared_held hconn hheld),
    run_bind_ok (connectionOf_run hconn), hshared, if_pos (by decide),
    run_bind_ok (rivalLocks_run w _ _), hrivals]
  rfl

end Courses

/-! ## Questions -/

/-- Whether a host wants to be asked about a connection's locks, and the number of the next question;
there is none after a no. -/
def World.register? (w : World H) (k : Nat) : Option (Bool × Option Nat) :=
  (w.connections.get? k).map fun c => (c.asksHost, c.asked)

/-- The number of the next question about a connection's locks, if one can be asked. -/
def World.nextQuestion? (w : World H) (k : Nat) : Option Nat :=
  (w.register? k).bind fun (asks, asked) => if asks then asked else none

/-- A world in which the next question about a connection has another number, or there is none. -/
def World.withNext (w : World H) (k : Nat) (next? : Option Nat) : World H :=
  ((World.modifyConnection k fun c => { c with asked := next? }).run w).2

/-- What the engine does without its host: nobody has been asked. -/
structure Unasked (k : Nat) (w w' : World H) : Prop where
  host : w'.host = w.host
  register : w'.register? k = w.register? k
  given : w.nextId ≤ w'.nextId

/-- How the engine gets from one world to another while a connection waits for locks: the numbers of
the questions that it asks, which are answered with yes, or the last of them with no. -/
inductive Waiting (ask : Nat → StateM (World H) Bool) (k : Nat) :
    World H → List Nat → Bool → World H → Prop
  | unasked {w w' : World H} (h : Unasked k w w') : Waiting ask k w [] false w'
  | again {w w₀ w₁ w' : World H} {a : Nat} {rest : List Nat} {refused : Bool} (h : Unasked k w w₀)
      (hnext : w₀.nextQuestion? k = some a) (hasked : (ask a).run w₀ = (true, w₁))
      (hrest : Waiting ask k (w₁.withNext k (some (a + 1))) rest refused w') :
      Waiting ask k w (a :: rest) refused w'
  | refused {w w₀ w₁ w' : World H} {a : Nat} (h : Unasked k w w₀)
      (hnext : w₀.nextQuestion? k = some a) (hasked : (ask a).run w₀ = (false, w₁))
      (hrest : Unasked k (w₁.withNext k none) w') :
      Waiting ask k w [a] true w'

namespace Unasked

variable {k : Nat} {w w' w'' : World H}

theorem refl (w : World H) : Unasked k w w := ⟨rfl, rfl, Nat.le_refl _⟩

theorem trans (h : Unasked k w w') (h' : Unasked k w' w'') : Unasked k w w'' :=
  ⟨h'.host.trans h.host, h'.register.trans h.register, Nat.le_trans h.given h'.given⟩

theorem nextQuestion (h : Unasked k w w') : w'.nextQuestion? k = w.nextQuestion? k := by
  unfold World.nextQuestion?
  rw [h.register]

/-- A change of a connection that has nothing to do with questions. -/
theorem modifyConnection (c : Nat) {f : Connection → Connection}
    (hf : ∀ conn, (f conn).asksHost = conn.asksHost ∧ (f conn).asked = conn.asked) (w : World H) :
    Unasked k w ((World.modifyConnection c f).run w).2 := by
  refine ⟨rfl, ?_, Nat.le_refl _⟩
  show ((Assoc.update w.connections c f).get? k).map _ = _
  unfold World.register?
  by_cases hck : c = k
  · subst hck
    rw [Assoc.get?_update_self]
    cases w.connections.get? c with
    | none => rfl
    | some conn => exact congrArg some (Prod.ext (hf conn).1 (hf conn).2)
  · rw [Assoc.get?_update_ne _ hck]

end Unasked

namespace Waiting

variable {ask : Nat → StateM (World H) Bool} {k : Nat} {w w' w'' : World H} {first rest : List Nat}
  {refused : Bool}

theorem after (h : Unasked k w w') (hrest : Waiting ask k w' rest refused w'') :
    Waiting ask k w rest refused w'' := by
  cases hrest with
  | unasked h' => exact .unasked (h.trans h')
  | again h' hnext hasked hrest => exact .again (h.trans h') hnext hasked hrest
  | refused h' hnext hasked hrest => exact .refused (h.trans h') hnext hasked hrest

theorem before (h : Waiting ask k w first refused w') (h' : Unasked k w' w'') :
    Waiting ask k w first refused w'' := by
  induction h with
  | unasked h => exact .unasked (h.trans h')
  | again h hnext hasked _ ih => exact .again h hnext hasked (ih h')
  | refused h hnext hasked hrest => exact .refused h hnext hasked (hrest.trans h')

/-- One wait after another that has not been refused. -/
theorem append (h : Waiting ask k w first false w') (hrest : Waiting ask k w' rest refused w'') :
    Waiting ask k w (first ++ rest) refused w'' := by
  generalize hgoes : false = r at h
  induction h with
  | unasked h => exact .after h hrest
  | again h hnext hasked _ ih => exact .again h hnext hasked (ih hrest hgoes)
  | refused => exact nomatch hgoes

/-- What the engine alone and every question leave true goes through a wait, and the wait may be
described by what its questions do where that is true. -/
theorem consulting {ask' : Nat → StateM (World H) Bool} {I : World H → Prop}
    (hunasked : ∀ w w', Unasked k w w' → I w → I w') (hnext : ∀ w next?, I w → I (w.withNext k next?))
    (hask : ∀ a, Keeps I (ask a)) (hsame : ∀ a w, I w → (ask a).run w = (ask' a).run w)
    (h : Waiting ask k w first refused w') : I w → Waiting ask' k w first refused w' ∧ I w' := by
  induction h with
  | unasked h => exact fun hw => ⟨.unasked h, hunasked _ _ h hw⟩
  | @again w w₀ w₁ w' a rest refused h hnumber hasked _ ih =>
    intro hw
    have hw₀ := hunasked _ _ h hw
    have hw₁ : I w₁ := by
      have := hask a w₀ hw₀
      rwa [hasked] at this
    obtain ⟨hrest, hw'⟩ := ih (hnext _ _ hw₁)
    exact ⟨.again h hnumber ((hsame a w₀ hw₀).symm.trans hasked) hrest, hw'⟩
  | @refused w w₀ w₁ w' a h hnumber hasked hrest =>
    intro hw
    have hw₀ := hunasked _ _ h hw
    have hw₁ : I w₁ := by
      have := hask a w₀ hw₀
      rwa [hasked] at this
    exact ⟨.refused h hnumber ((hsame a w₀ hw₀).symm.trans hasked) hrest,
      hunasked _ _ hrest (hnext _ _ hw₁)⟩

end Waiting

/-! ## Numbers of questions -/

/-- The host wants to be asked about a connection's locks. -/
def Asking (k : Nat) (w : World H) : Prop := (w.connections.get? k).map (·.asksHost) = some true

theorem nextQuestion?_eq_some {w : World H} {k a : Nat} (h : w.nextQuestion? k = some a) :
    Asking k w := by
  obtain ⟨⟨asks, asked⟩, hregister, hnext⟩ := Option.bind_eq_some_iff.mp h
  obtain ⟨conn, hconn, heq⟩ := Option.map_eq_some_iff.mp hregister
  cases asks with
  | false => exact nomatch hnext
  | true =>
    unfold Asking
    rw [hconn]
    exact congrArg some (Prod.ext_iff.mp heq).1

/-- A host that wants to be asked is asked the question with the number that is set. -/
theorem nextQuestion?_withNext {w : World H} {k : Nat} (h : Asking k w) (next? : Option Nat) :
    (w.withNext k next?).nextQuestion? k = next? := by
  obtain ⟨conn, hconn, hasks⟩ := Option.map_eq_some_iff.mp h
  show (((Assoc.update w.connections k fun c => { c with asked := next? }).get? k).map
    fun c => (c.asksHost, c.asked)).bind _ = next?
  rw [Assoc.get?_update_self, hconn]
  show (if conn.asksHost = true then next? else none) = next?
  rw [if_pos hasks]

/-- The questions of a wait are numbered one after the other, and after a no there is none. -/
theorem Waiting.numbered {ask : Nat → StateM (World H) Bool} {k : Nat}
    (hask : ∀ a, Keeps (Asking k) (ask a)) {w w' : World H} {questions : List Nat} {refused : Bool}
    (h : Waiting ask k w questions refused w') : ∀ {a : Nat}, w.nextQuestion? k = some a →
      questions = List.range' a questions.length ∧
        w'.nextQuestion? k = if refused then none else some (a + questions.length) := by
  induction h with
  | unasked h => exact fun ha => ⟨rfl, h.nextQuestion.trans ha⟩
  | @again w w₀ w₁ w' b rest refused h hnext hasked _ ih =>
    intro a ha
    have hab : b = a := Option.some.inj (hnext.symm.trans (h.nextQuestion.trans ha))
    have hasking : Asking k w₁ := by
      have := hask b w₀ (nextQuestion?_eq_some hnext)
      rwa [hasked] at this
    obtain ⟨hrest, hlast⟩ := ih (nextQuestion?_withNext hasking (some (b + 1)))
    subst hab
    refine ⟨?_, ?_⟩
    · rw [List.length_cons, List.range'_succ]
      exact congrArg (b :: ·) hrest
    · rw [hlast, List.length_cons, Nat.add_assoc, Nat.add_comm 1]
  | @refused w w₀ w₁ w' b h hnext hasked hrest =>
    intro a ha
    have hab : b = a := Option.some.inj (hnext.symm.trans (h.nextQuestion.trans ha))
    have hasking : Asking k w₁ := by
      have := hask b w₀ (nextQuestion?_eq_some hnext)
      rwa [hasked] at this
    subst hab
    refine ⟨rfl, ?_⟩
    rw [hrest.nextQuestion, nextQuestion?_withNext hasking]
    rfl

/-- Where nobody is to be asked, nobody is asked. -/
theorem Waiting.silent {ask : Nat → StateM (World H) Bool} {k : Nat} {w w' : World H} {questions : List Nat}
    {refused : Bool} (h : Waiting ask k w questions refused w') (hnext : w.nextQuestion? k = none) :
    questions = [] ∧ refused = false ∧ Unasked k w w' := by
  cases h with
  | unasked h => exact ⟨rfl, rfl, h⟩
  | again h hnext' =>
    rw [h.nextQuestion, hnext] at hnext'
    exact nomatch hnext'
  | refused h hnext' =>
    rw [h.nextQuestion, hnext] at hnext'
    exact nomatch hnext'

/-! ## Asking the host -/

section Asking

variable {scope : Scope H} {w w₁ : World H}

/-- A host is asked the next question, and its answer says whether there is another one. -/
theorem askHost_run {a : Nat} {again : Bool} (hnext : w.nextQuestion? scope.connection = some a)
    (hasked : (scope.hooks.busy scope.connection a).run w = (again, w₁)) :
    (askHost scope).run.run w =
      (.ok again, w₁.withNext scope.connection (if again then some (a + 1) else none)) := by
  obtain ⟨⟨asks, asked⟩, hregister, hnext⟩ := Option.bind_eq_some_iff.mp hnext
  obtain ⟨conn, hconn, heq⟩ := Option.map_eq_some_iff.mp hregister
  cases asks with
  | false => exact nomatch hnext
  | true =>
    have hasks : conn.asksHost = true := (Prod.ext_iff.mp heq).1
    have hnumber : conn.asked = some a := (Prod.ext_iff.mp heq).2.trans hnext
    unfold askHost
    rw [run_bind_ok (connectionOf_run hconn), hasks, hnumber, run_bind_ok (lift_run _ _), hasked]
    rfl

/-- With no next question nobody is asked. -/
theorem askHost_silent {conn : Connection} (hconn : w.connections.get? scope.connection = some conn)
    (hnext : w.nextQuestion? scope.connection = none) :
    (askHost scope).run.run w = (.ok false, w) := by
  unfold World.nextQuestion? World.register? at hnext
  rw [hconn] at hnext
  unfold askHost
  rw [run_bind_ok (connectionOf_run hconn)]
  cases hasks : conn.asksHost with
  | false => rfl
  | true =>
    have hasked : conn.asked = none := by simpa [hasks] using hnext
    rw [hasked]
    rfl

end Asking

end HostSql.Engine
