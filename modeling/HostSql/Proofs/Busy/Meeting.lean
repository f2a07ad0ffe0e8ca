import HostSql.Proofs.Busy.Waiting

/-!
# Meeting a lock

There are three places where a connection can meet a lock: where a statement claims its volume,
where a transaction puts its changes down, and where a command is compiled and the catalog has to
be read. In each of them the engine gets on by waiting and in no other way, and when the host says
no it fails, at once and with nothing asked after that.

> `claim_waits`, `commitDraft_waits`, `catalogOf_waits`: a no is the failure of being locked.
> `compileText_waits`: a no fails the command that is compiled.
-/

namespace HostSql.Engine

variable {H α β : Type}

/-! ## Computations that wait -/

/-- A computation that gets on by waiting, and fails in a certain way if the host says no. -/
def Waits (ask : Nat → StateM (World H) Bool) (k : Nat) (fails : Fault → Prop) (x : Run H α) : Prop :=
  ∀ w, ∃ questions refused, Waiting ask k w questions refused (x.run.run w).2 ∧
    (refused = true → ∃ fault, fails fault ∧ (x.run.run w).1 = .error fault)

namespace Waits

variable {ask : Nat → StateM (World H) Bool} {k : Nat} {fails : Fault → Prop}

theorem unasked {x : Run H α} (h : ∀ w, Unasked k w (x.run.run w).2) : Waits ask k fails x :=
  fun w => ⟨[], false, .unasked (h w), nofun⟩

theorem pure (a : α) : Waits ask k fails (Pure.pure a : Run H α) := unasked fun w => .refl w

theorem throw (fault : Fault) : Waits ask k fails (throw fault : Run H α) := unasked fun w => .refl w

theorem bind {x : Run H α} {f : α → Run H β} (hx : Waits ask k fails x)
    (hf : ∀ a, Waits ask k fails (f a)) : Waits ask k fails (x >>= f) := by
  intro w
  obtain ⟨first, refused, hfirst, hfails⟩ := hx w
  rcases hrun : x.run.run w with ⟨fault | a, w₁⟩
  · rw [hrun] at hfirst hfails
    rw [run_bind_error hrun]
    refine ⟨first, refused, hfirst, fun h => ?_⟩
    obtain ⟨_, hfault, heq⟩ := hfails h
    cases heq
    exact ⟨fault, hfault, rfl⟩
  · rw [hrun] at hfirst hfails
    rw [run_bind_ok hrun]
    cases refused with
    | true =>
      obtain ⟨_, _, heq⟩ := hfails rfl
      exact nomatch heq
    | false =>
      obtain ⟨rest, refused, hrest, hfails⟩ := hf a w₁
      exact ⟨first ++ rest, refused, hfirst.append hrest, hfails⟩

theorem ite {c : Prop} [Decidable c] {x y : Run H α} (hx : Waits ask k fails x)
    (hy : Waits ask k fails y) : Waits ask k fails (if c then x else y) := by
  split
  · exact hx
  · exact hy

/-- A check before a computation. -/
theorem guard {c : Prop} [Decidable c] (fault : Fault) {x : Run H α} (hx : Waits ask k fails x) :
    Waits ask k fails (do
      if c then MonadExcept.throw fault
      x) :=
  .ite ((throw fault).bind fun _ => hx) hx

theorem mono {fails' : Fault → Prop} (h : ∀ fault, fails fault → fails' fault) {x : Run H α}
    (hx : Waits ask k fails x) : Waits ask k fails' x := by
  intro w
  obtain ⟨questions, refused, hwaiting, hfails⟩ := hx w
  refine ⟨questions, refused, hwaiting, fun hr => ?_⟩
  obtain ⟨fault, hfault, heq⟩ := hfails hr
  exact ⟨fault, h fault hfault, heq⟩

end Waits

/-- Puts a question about its own connection's locks. -/
abbrev Scope.ask (scope : Scope H) (attempt : Nat) : StateM (World H) Bool :=
  scope.hooks.busy scope.connection attempt

/-- What fails with a lock if the host says no. -/
abbrev WaitsForLock (scope : Scope H) (x : Run H α) : Prop :=
  Waits scope.ask scope.connection (· = .busy) x

/-! ## Tries and answers -/

section Asking

variable {scope : Scope H}

/-- What is tried again after a yes, and fails after a no. -/
theorem retry_waits {x : Run H α} (hx : WaitsForLock scope x) :
    WaitsForLock scope (do if ← askHost scope then x else throw .busy) := by
  intro w
  cases hconn : w.connections.get? scope.connection with
  | none =>
    have hmissing : (askHost scope).run.run w = (.error .misuse, w) := by
      unfold askHost
      rw [run_bind_error (connectionOf_missing hconn)]
    rw [run_bind_error hmissing]
    exact ⟨[], false, .unasked (.refl w), nofun⟩
  | some conn =>
    cases hnext : w.nextQuestion? scope.connection with
    | none =>
      rw [run_bind_ok (askHost_silent hconn hnext)]
      exact ⟨[], false, .unasked (.refl w), nofun⟩
    | some a =>
      rcases hasked : (scope.hooks.busy scope.connection a).run w with ⟨again, w₁⟩
      rw [run_bind_ok (askHost_run hnext hasked)]
      cases again with
      | false => exact ⟨[a], true, .refused (.refl w) hnext hasked (.refl _), fun _ => ⟨.busy, rfl, rfl⟩⟩
      | true =>
        obtain ⟨rest, refused, hrest, hfails⟩ := hx (w₁.withNext scope.connection (some (a + 1)))
        exact ⟨a :: rest, refused, .again (.refl w) hnext hasked hrest, hfails⟩

/-- What gives something back when the wait was in vain. -/
theorem giveBack_waits {x : Run H Unit} {release : Run H Unit}
    (hx : WaitsForLock scope x)
    (hrelease : ∀ w, ∃ w', release.run.run w = (.ok (), w') ∧ Unasked scope.connection w w') :
    WaitsForLock scope (do
      match ← attempt x with
      | .ok _ => return
      | .error fault =>
        release
        throw fault) := by
  intro w
  obtain ⟨questions, refused, hwaiting, hfails⟩ := hx w
  rcases hrun : x.run.run w with ⟨fault | _, w₁⟩
  all_goals
    rw [hrun] at hwaiting hfails
    have hattempt : (attempt x).run.run w = (.ok (x.run.run w).1, (x.run.run w).2) := rfl
    rw [run_bind_ok hattempt, hrun]
  · obtain ⟨w₂, hreleased, hunasked⟩ := hrelease w₁
    rw [run_bind_ok hreleased]
    exact ⟨questions, refused, hwaiting.before hunasked, hfails⟩
  · refine ⟨questions, refused, hwaiting, fun h => ?_⟩
    obtain ⟨_, _, heq⟩ := hfails h
    exact nomatch heq

end Asking

/-! ## Where the engine waits -/

section Locks

variable (scope : Scope H) {ask : Nat → StateM (World H) Bool} {k : Nat} {fails : Fault → Prop}

theorem connectionOf_waits (c : Nat) :
    Waits ask k fails (connectionOf (H := H) c) := by
  refine .unasked fun w => ?_
  cases h : w.connections.get? c with
  | none =>
    rw [connectionOf_missing h]
    exact .refl w
  | some conn =>
    rw [connectionOf_run h]
    exact .refl w

theorem rivalLocks_waits (c volume : Nat) :
    Waits ask k fails (rivalLocks (H := H) c volume) := .unasked fun w => .refl w

theorem setLock_unasked (k c : Nat) (lock : Lock) (w : World H) :
    ∃ w', (setLock c lock).run.run w = (.ok (), w') ∧ Unasked k w w' :=
  ⟨_, rfl, .modifyConnection c (f := fun conn => { conn with lock := lock }) (fun _ => ⟨rfl, rfl⟩) w⟩

theorem setLock_waits (c : Nat) (lock : Lock) :
    Waits ask k fails (setLock (H := H) c lock) :=
  .unasked fun w =>
    .modifyConnection c (f := fun conn => { conn with lock := lock }) (fun _ => ⟨rfl, rfl⟩) w

/-- Giving back a lock that was taken for a moment. -/
theorem unlock_waits (c : Nat) (lock : Lock) {x : Run H α}
    (hx : Waits ask k fails x) :
    Waits ask k fails (do
      if lock = .none then setLock c .none
      x) :=
  .ite ((setLock_waits c .none).bind fun _ => hx) hx

/-- Reading the database changes nothing. -/
theorem currentDatabase_world (c : Nat) (w : World H) :
    ((currentDatabase (H := H) c).run.run w).2 = w := by
  unfold currentDatabase
  cases hconn : w.connections.get? c with
  | none => rw [run_bind_error (connectionOf_missing hconn)]
  | some conn =>
    rw [run_bind_ok (connectionOf_run hconn)]
    cases conn.draft with
    | some db => rfl
    | none =>
      dsimp only
      rw [run_get_bind]
      cases w.volumes.get? conn.volume with
      | none => rfl
      | some v =>
        dsimp only
        cases v.content.database? <;> rfl

theorem attemptDatabase_waits (c : Nat) :
    Waits ask k fails (attempt (currentDatabase (H := H) c)) := by
  refine .unasked fun w => ?_
  show Unasked _ w ((currentDatabase (H := H) c).run.run w).2
  rw [currentDatabase_world]
  exact .refl w

theorem currentDatabase_waits (c : Nat) :
    Waits ask k fails (currentDatabase (H := H) c) := by
  refine .unasked fun w => ?_
  rw [currentDatabase_world]
  exact .refl w

/-- A wait whose single tries wait in the same way. -/
theorem lock_waits_of (c : Claim)
    (h : ∀ fuel, WaitsForLock scope (c.tryOnce scope fuel)) (fuel : Nat) :
    WaitsForLock scope (c.lock scope fuel) := by
  induction fuel with
  | zero => cases c <;> exact .throw .busy
  | succ fuel ih =>
    rw [Claim.lock_succ]
    exact (h fuel).bind fun granted => .ite (.pure ()) (retry_waits ih)

theorem lockShared_waits (fuel : Nat) :
    WaitsForLock scope (lockShared scope fuel) := by
  refine lock_waits_of scope .share (fun _ => ?_) fuel
  refine (connectionOf_waits _).bind fun conn => .ite (.pure true) ?_
  refine (rivalLocks_waits _ _).bind fun rivals => .ite ?_ (.pure false)
  exact (setLock_waits _ _).bind fun _ => .pure true

theorem lockExclusive_waits (fuel : Nat) :
    WaitsForLock scope (lockExclusive scope fuel) := by
  refine lock_waits_of scope .exclude (fun _ => ?_) fuel
  refine (connectionOf_waits _).bind fun conn => .ite (.pure true) ?_
  refine (rivalLocks_waits _ _).bind fun rivals => .ite ?_ ?_
  · exact (setLock_waits _ _).bind fun _ => .pure true
  · exact (setLock_waits _ _).bind fun _ => .pure false

theorem lockReserved_waits (alone : Bool) (fuel : Nat) :
    WaitsForLock scope (lockReserved scope alone fuel) := by
  refine lock_waits_of scope (.reserve alone) (fun fuel => ?_) fuel
  refine (connectionOf_waits _).bind fun before => ?_
  have hrelease (w : World H) : ∃ w', (if before.lock = .none then setLock scope.connection .none
      else pure () : Run H Unit).run.run w = (.ok (), w') ∧ Unasked scope.connection w w' := by
    split
    · exact setLock_unasked _ _ _ w
    · exact ⟨w, rfl, .refl w⟩
  have halone (alone : Bool) : WaitsForLock scope (do
      takeAlone scope alone fuel
        (if before.lock = .none then setLock scope.connection .none else pure ())
      return true) :=
    .bind (.ite (giveBack_waits (lockExclusive_waits scope fuel) hrelease) (.pure ()))
      fun _ => .pure true
  refine (lockShared_waits scope fuel).bind fun _ => (connectionOf_waits _).bind fun conn => ?_
  refine .ite ((rivalLocks_waits _ _).bind fun rivals => ?_) (halone _)
  refine .ite ((setLock_waits _ _).bind fun _ => halone _) ?_
  refine .bind (.ite (setLock_waits _ _) (.pure ())) fun _ => ?_
  exact .ite (.pure false) (.bind (.throw .busy) fun _ => halone _)

theorem writeDatabase_waits (c : Nat) (f : Database → Database) :
    Waits ask k fails (writeDatabase (H := H) c f) :=
  (currentDatabase_waits _).bind fun db => .unasked fun w =>
    .modifyConnection c (f := fun conn => { conn with draft := some (f db) }) (fun _ => ⟨rfl, rfl⟩) w

theorem claim_waits (access : Access) (alone : Bool) :
    WaitsForLock scope (claim scope access alone) := by
  unfold claim
  cases access with
  | none => exact .pure ()
  | read =>
    exact (lockShared_waits scope _).bind fun _ => (currentDatabase_waits _).bind fun _ => .pure ()
  | write =>
    exact (connectionOf_waits _).bind fun conn => .guard _
      ((lockReserved_waits scope alone _).bind fun _ => writeDatabase_waits _ id)

theorem catalogOf_waits : WaitsForLock scope (catalogOf scope) := by
  unfold catalogOf
  refine (connectionOf_waits _).bind fun conn => ?_
  cases conn.catalog with
  | some catalog => exact .pure catalog
  | none =>
    refine (lockShared_waits scope _).bind fun _ => ?_
    refine (attemptDatabase_waits _).bind fun result => unlock_waits _ conn.lock (.bind ?_ fun db => ?_)
    · cases result with
      | error fault => exact .throw fault
      | ok db => exact .pure db
    · cases Catalog.read db with
      | error message => exact .throw _
      | ok catalog =>
        exact .bind (.unasked fun w => .modifyConnection scope.connection
          (f := fun c => { c with catalog := some catalog }) (fun _ => ⟨rfl, rfl⟩) w)
          fun _ => .pure catalog

theorem commitDraft_waits : WaitsForLock scope (commitDraft scope) := by
  unfold commitDraft
  refine (connectionOf_waits _).bind fun conn => ?_
  cases conn.draft with
  | none => exact .pure ()
  | some _ =>
    refine (lockExclusive_waits scope _).bind fun _ => (connectionOf_waits _).bind fun conn' => ?_
    cases conn'.draft with
    | none => exact .pure ()
    | some db => exact .unasked fun w => ⟨rfl, rfl, Nat.le_refl _⟩

theorem checkInterrupt_waits : WaitsForLock scope (checkInterrupt scope) := by
  unfold checkInterrupt
  exact (connectionOf_waits _).bind fun conn => .ite (.throw _) (.pure ())

theorem enter_waits (program : Program) : WaitsForLock scope (enter scope program) := by
  unfold enter
  refine (checkInterrupt_waits scope).bind fun _ => (claim_waits scope _ _).bind fun _ => ?_
  unfold isCurrent
  split
  · exact .pure true
  · exact .pure true
  · exact (currentDatabase_waits _).bind fun db => .pure _

/-! ## Compiling -/

/-- A wait after which it goes on without one, also when the host says no. -/
theorem attempt_waiting {x : Run H α} {f : Except Fault α → Run H β} {b : β}
    (hx : WaitsForLock scope x)
    (hok : ∀ a, Waits scope.ask scope.connection (fun _ => False) (f (.ok a)))
    (herror : ∀ fault, f (.error fault) = pure b) (w : World H) : ∃ questions refused,
      Waiting scope.ask scope.connection w questions refused ((attempt x >>= f).run.run w).2 ∧
      (refused = true → ((attempt x >>= f).run.run w).1 = .ok b) := by
  obtain ⟨first, refused, hfirst, hfails⟩ := hx w
  have hattempt : (attempt x).run.run w = (.ok (x.run.run w).1, (x.run.run w).2) := rfl
  rw [run_bind_ok hattempt]
  rcases hrun : x.run.run w with ⟨fault | a, w₁⟩
  all_goals rw [hrun] at hfirst hfails
  · rw [herror]
    exact ⟨first, refused, hfirst, fun _ => rfl⟩
  · cases refused with
    | true =>
      obtain ⟨_, _, heq⟩ := hfails rfl
      exact nomatch heq
    | false =>
      obtain ⟨rest, refused, hrest, hnever⟩ := hok a w₁
      refine ⟨first ++ rest, refused, hfirst.append hrest, fun hr => ?_⟩
      obtain ⟨_, hfalse, _⟩ := hnever hr
      exact hfalse.elim

/-- A look at the catalog that is stored, against the one that was read. When the host says no to
waiting for it there is no telling, and the one that was read counts as current. -/
theorem catalogIsCurrent_waiting (w : World H) : ∃ questions refused,
    Waiting scope.ask scope.connection w questions refused
      ((catalogIsCurrent scope).run.run w).2 ∧
    (refused = true → ((catalogIsCurrent scope).run.run w).1 = .ok true) := by
  unfold catalogIsCurrent
  cases hconn : w.connections.get? scope.connection with
  | none =>
    rw [run_bind_error (connectionOf_missing hconn)]
    exact ⟨[], false, .unasked (.refl w), nofun⟩
  | some conn =>
    rw [run_bind_ok (connectionOf_run hconn)]
    cases conn.catalog with
    | none => exact ⟨[], false, .unasked (.refl w), nofun⟩
    | some catalog =>
      refine attempt_waiting scope (lockShared_waits scope _) (fun _ => ?_) (fun _ => rfl) w
      refine (attemptDatabase_waits _).bind fun result => unlock_waits _ conn.lock ?_
      cases result with
      | ok db => exact .pure _
      | error _ => exact .pure true

theorem compileWithCatalog_waits (command : Sql.Command) (left : Nat) :
    Waits scope.ask scope.connection (fun _ => True) (compileWithCatalog scope command left) := by
  induction left with
  | zero => exact .throw _
  | succ left ih =>
    unfold compileWithCatalog
    refine (connectionOf_waits _).bind fun conn => ?_
    cases compileCommand ⟨conn.functions, conn.catalog, conn.writableCatalog⟩ command with
    | ok program => exact .pure program
    | error fault =>
      refine .ite (.ite ?_ (.throw fault)) ?_
      · exact ((catalogOf_waits scope).mono fun _ _ => trivial).bind fun _ => ih
      · -- a catalog that counts as current leaves the failure as it is
        intro w
        obtain ⟨first, refused, hfirst, hcurrent⟩ := catalogIsCurrent_waiting scope w
        rcases hrun : (catalogIsCurrent scope).run.run w with ⟨fault' | isCurrent, w₁⟩
        all_goals rw [hrun] at hfirst hcurrent
        · rw [run_bind_error hrun]
          exact ⟨first, refused, hfirst, fun hr => nomatch hcurrent hr⟩
        · rw [run_bind_ok hrun]
          cases isCurrent with
          | true => exact ⟨first, refused, hfirst, fun _ => ⟨fault, trivial, rfl⟩⟩
          | false =>
            cases refused with
            | true => exact nomatch hcurrent rfl
            | false =>
              have hforget : Waits scope.ask scope.connection (fun _ => True)
                  (do
                    forgetCatalog (H := H) scope.connection
                    compileWithCatalog scope command left) :=
                .bind (.unasked fun w => .modifyConnection scope.connection
                  (f := fun c => { c with catalog := none }) (fun _ => ⟨rfl, rfl⟩) w) fun _ => ih
              obtain ⟨rest, refused, hrest, hfails⟩ := hforget w₁
              exact ⟨first ++ rest, refused, hfirst.append hrest, hfails⟩

theorem settleInterrupt_unasked (k c : Nat) (w : World H) :
    Unasked k w ((settleInterrupt c).run w).2 := by
  unfold settleInterrupt
  rw [run_bind, run_get]
  split
  · exact .modifyConnection c (f := fun conn => { conn with interrupted := false })
      (fun _ => ⟨rfl, rfl⟩) w
  · exact .refl w

theorem applySetting_unasked (k c : Nat) (command : Sql.Command) (w : World H) :
    Unasked k w ((applySetting c command).run w).2 := by
  unfold applySetting
  split
  · split
    · rename_i value _
      have hexpire : Unasked k w ((expireStatements c).run w).2 := ⟨rfl, rfl, Nat.le_refl _⟩
      exact hexpire.trans (.modifyConnection c (f := fun conn => { conn with writableCatalog := isOn value })
          (fun _ => ⟨rfl, rfl⟩) _)
    · exact .refl w
  · exact .refl w

/-- A command is compiled with its connection's questions numbered one after the other as well, and
after a no it is not compiled. -/
theorem compileText_waits (text : List Char) :
    Waits scope.ask scope.connection (fun _ => True) (compileText scope text) := by
  unfold compileText
  refine .bind (.unasked fun w => settleInterrupt_unasked _ _ w) fun _ =>
    (connectionOf_waits _).bind fun conn => ?_
  refine .guard _ ?_
  cases Sql.nextCommand text with
  | error e => exact .throw _
  | ok found =>
    dsimp only
    cases found.command? with
    | none => exact .pure _
    | some command =>
      refine (compileWithCatalog_waits scope command _).bind fun program => ?_
      exact .bind (.unasked fun w => applySetting_unasked _ _ command w) fun _ => .pure _

end Locks

/-! ## Changes that cannot be put down -/

section Refusals

variable {scope : Scope H} {w w₁ : World H}

/-- A statement that has done its work, but cannot put its changes down, fails with the lock, and
its changes are undone. -/
theorem endStatement_refused {program : Program} (before : Before) {conn : Connection}
    (haccess : program.access ≠ .none) (hconn : w.connections.get? scope.connection = some conn)
    (hauto : conn.autocommit = true)
    (hlast : ((otherUsers scope.connection scope.statement).run w).1.any
      (·.program.access = .write) = false)
    (hrefused : (commitDraft scope).run.run w = (.error .busy, w₁)) :
    (endStatement scope program before none).run w =
      ((some .busy, false), ((undoAll scope.connection scope.statement false).run w₁).2) := by
  have hfound : (World.connection? scope.connection).run w = (some conn, w) := by
    show (w.connections.get? scope.connection, w) = _
    rw [hconn]
  have hothers : (otherUsers scope.connection scope.statement).run w =
      (((otherUsers scope.connection scope.statement).run w).1, w) := rfl
  unfold endStatement
  rw [if_neg haccess, run_bind, hfound]
  simp only [Option.any_none, Bool.false_eq_true, if_false, Option.map_some, Option.getD_some, hauto]
  rw [run_bind, hothers]
  simp only [hlast, Bool.not_false, Bool.and_true, if_true, Option.all_none]
  rw [run_bind, hrefused]
  rfl

/-- A transaction that cannot put its changes down fails with the lock, and can be tried again. -/
theorem commitTransaction_refused (hlast : (othersWrite scope).run.run w = (.ok false, w))
    (hrefused : (commitDraft scope).run.run w = (.error .busy, w₁)) :
    (commitTransaction scope).run w = (block scope.statement .busy).run w₁ := by
  unfold commitTransaction
  rw [run_bind, hlast]
  dsimp only
  rw [run_bind, hrefused]

/-- A text whose compilation is refused is not compiled. -/
theorem prepare_refused {hooks : Hooks H} {k : Nat} {text : List Char} {fault : Fault}
    (hrefused : (compileText ⟨k, 0, hooks⟩ text).run.run w = (.error fault, w₁)) :
    (prepare hooks k text).run w = (.error fault, w₁.withNext k (some 0)) := by
  unfold prepare
  rw [run_bind, hrefused]
  rfl

end Refusals

end HostSql.Engine
