import HostSql.Engine.Prepare
import HostSql.Proofs.AssocLaws
import HostSql.Proofs.Engine.Evaluation

/-!
# Locks, transactions and compilation are quiet

Claiming a volume, settling a transaction and compiling a text ask the host for no function and
end no group. The only question they may put to the host, whether to wait for a lock, is none that
the ledger notes.
-/

namespace HostSql.Engine

variable {H : Type} {hooks : Hooks H} {may : Licence} {stores : Bool}

/-! ## The world -/

theorem modifyConnection_calm (c : Nat) {f : Connection → Connection}
    (hf : LeavesAsking f) (hnumbers : Connection.LeavesNumbers f) :
    Calm may (World.modifyConnection (H := H) c f)
      (World.modifyConnection (H := Ledger hooks) c f) :=
  ⟨.change (fun _ => rfl) fun _ => rfl, fun _ h => h.connection c f hf (.inr hnumbers)⟩

theorem modifyStatements_calm {f : Nat → Statement → Statement}
    (hf : may.stores = true ∨ ∀ n, Statement.LeavesNumbers (f n)) :
    Calm may
      (modify fun w : World H =>
        { w with statements := w.statements.map fun p => (p.1, f p.1 p.2) })
      (modify fun w : World (Ledger hooks) =>
        { w with statements := w.statements.map fun p => (p.1, f p.1 p.2) }) :=
  ⟨.change (fun _ => rfl) fun _ => rfl, fun _ h => h.statements f hf⟩

theorem modifyStatement_calm (s : Nat) {f : Statement → Statement}
    (hf : may.stores = true ∨ Statement.LeavesNumbers f) :
    Calm may (World.modifyStatement (H := H) s f)
      (World.modifyStatement (H := Ledger hooks) s f) := by
  refine ⟨.change (fun _ => rfl) fun _ => rfl, fun I h w hw => ?_⟩
  show I { w with statements := Assoc.update w.statements s f }
  rw [Assoc.update_eq_map]
  exact h.statements (fun n t => if n == s then f t else t)
    (hf.imp id fun hf _ => hf.ite) w hw

theorem connection?_calm (c : Nat) :
    Calm may (World.connection? (H := H) c) (World.connection? (H := Ledger hooks) c) := by
  unfold World.connection?
  exact .get_bind fun t => .pure _

theorem fresh_calm : Calm may (World.fresh (H := H)) (World.fresh (H := Ledger hooks)) :=
  ⟨fun _ => ⟨rfl, rfl⟩, fun _ h => h.fresh⟩

theorem expireStatements_calm (c : Nat) :
    Calm may (expireStatements (H := H) c) (expireStatements (H := Ledger hooks) c) :=
  modifyStatements_calm (f := fun _ s => if s.connection = c then { s with expired := true } else s)
    (.inr fun _ => .ite fun _ _ _ _ => ⟨rfl, rfl, .inl rfl⟩)

theorem forgetCatalog_calm (c : Nat) :
    Calm may (forgetCatalog (H := H) c) (forgetCatalog (H := Ledger hooks) c) :=
  modifyConnection_calm c (fun _ _ => rfl) fun _ _ _ => ⟨rfl, rfl⟩

theorem resetAsked_calm (c : Nat) :
    Calm may (resetAsked (H := H) c) (resetAsked (H := Ledger hooks) c) :=
  modifyConnection_calm c (fun _ _ => rfl) fun _ _ _ => ⟨rfl, rfl⟩

theorem closeTransaction_calm (c : Nat) :
    Calm may (closeTransaction (H := H) c) (closeTransaction (H := Ledger hooks) c) :=
  modifyConnection_calm c (fun _ _ => rfl) fun _ _ _ => ⟨rfl, rfl⟩

theorem otherUsers_calm (c s : Nat) :
    Calm may (otherUsers (H := H) c s) (otherUsers (H := Ledger hooks) c s) := by
  unfold otherUsers
  exact .get_bind fun t => .pure _

theorem endTransaction_calm (c s : Nat) :
    Calm may (endTransaction (H := H) c s) (endTransaction (H := Ledger hooks) c s) := by
  unfold endTransaction
  exact (otherUsers_calm c s).bind fun users => modifyConnection_calm c (fun _ _ => rfl) fun _ _ _ => ⟨rfl, rfl⟩

/-! ## Locks -/

theorem setLock_calm (c : Nat) (lock : Lock) :
    CalmRun may (setLock (H := H) c lock) (setLock (H := Ledger hooks) c lock) :=
  .lift (modifyConnection_calm c (fun _ _ => rfl) fun _ _ _ => ⟨rfl, rfl⟩)

theorem rivalLocks_calm (c volume : Nat) :
    CalmRun may (rivalLocks (H := H) c volume) (rivalLocks (H := Ledger hooks) c volume) := by
  unfold rivalLocks
  exact .get_bind fun t => .pure _

theorem askHost_calm (scope : Scope H) : CalmRun may (askHost scope) (askHost scope.noting) := by
  unfold askHost
  refine (connectionOf_calm scope.connection).bind fun conn => ?_
  split
  · exact (CalmRun.lift (.busy _ _)).bind fun again =>
      (CalmRun.lift (modifyConnection_calm _ (fun _ _ => rfl) fun _ _ _ => ⟨rfl, rfl⟩)).bind fun _ => .pure again
  · exact .pure false

theorem lockShared_calm (scope : Scope H) (fuel : Nat) :
    CalmRun may (lockShared scope fuel) (lockShared scope.noting fuel) := by
  induction fuel with
  | zero => exact .throw _
  | succ fuel ih =>
    unfold lockShared
    refine (connectionOf_calm scope.connection).bind fun conn => ?_
    refine .ite (.pure ()) ((rivalLocks_calm _ _).bind fun rivals => ?_)
    refine .ite (setLock_calm _ _) ((askHost_calm scope).bind fun again => ?_)
    exact .ite ih (.throw _)

theorem lockExclusive_calm (scope : Scope H) (fuel : Nat) :
    CalmRun may (lockExclusive scope fuel) (lockExclusive scope.noting fuel) := by
  induction fuel with
  | zero => exact .throw _
  | succ fuel ih =>
    unfold lockExclusive
    refine (connectionOf_calm scope.connection).bind fun conn => ?_
    refine .ite (.pure ()) ((rivalLocks_calm _ _).bind fun rivals => ?_)
    refine .ite (setLock_calm _ _) ((setLock_calm _ _).bind fun _ => ?_)
    exact (askHost_calm scope).bind fun again => .ite ih (.throw _)

/-- Taking a reserved volume alone, or giving back what has been claimed. -/
theorem takeAlone_calm (scope : Scope H) (alone : Bool) (fuel : Nat) {release : Run H Unit}
    {release' : Run (Ledger scope.hooks) Unit} (hrelease : CalmRun may release release') :
    CalmRun may
      (do
        if alone then
          match ← attempt (lockExclusive scope fuel) with
          | .ok _ => return
          | .error fault =>
            release
            throw fault)
      (do
        if alone then
          match ← attempt (lockExclusive scope.noting fuel) with
          | .ok _ => return
          | .error fault =>
            release'
            throw fault) := by
  refine .ite ((lockExclusive_calm scope fuel).attempt.bind fun result => ?_) (.pure ())
  cases result with
  | ok _ => exact .pure ()
  | error fault => exact hrelease.bind fun _ => .throw fault

theorem lockReserved_calm (scope : Scope H) (alone : Bool) (fuel : Nat) :
    CalmRun may (lockReserved scope alone fuel) (lockReserved scope.noting alone fuel) := by
  induction fuel with
  | zero => exact .throw _
  | succ fuel ih =>
    unfold lockReserved
    refine (connectionOf_calm scope.connection).bind fun before => ?_
    -- a shared lock that was taken on the way is given back
    have hrelease : CalmRun may
        (if before.lock = .none then setLock (H := H) scope.connection .none else pure ())
        (if before.lock = .none then setLock (H := Ledger scope.hooks) scope.connection .none
          else pure ()) :=
      .ite (setLock_calm _ _) (.pure ())
    refine (lockShared_calm scope fuel).bind fun _ =>
      (connectionOf_calm scope.connection).bind fun conn => ?_
    have halone := takeAlone_calm scope (alone && conn.draft.isNone) fuel hrelease
    refine .ite ((rivalLocks_calm _ _).bind fun rivals => ?_) halone
    refine .ite ((setLock_calm _ _).bind fun _ => halone) (hrelease.bind fun _ => ?_)
    refine .ite ((askHost_calm scope).bind fun again => ?_) ?_
    · exact .ite ih ((CalmRun.throw _).bind fun _ => halone)
    · exact (CalmRun.throw _).bind fun _ => halone

/-! ## The draft and the catalog -/

theorem writeDatabase_calm (c : Nat) (f : Database → Database) :
    CalmRun may (writeDatabase (H := H) c f) (writeDatabase (H := Ledger hooks) c f) := by
  unfold writeDatabase
  exact (currentDatabase_calm c).bind fun db => .lift (modifyConnection_calm c (fun _ _ => rfl) fun _ _ _ => ⟨rfl, rfl⟩)

theorem claim_calm (scope : Scope H) (access : Access) (alone : Bool) :
    CalmRun may (claim scope access alone) (claim scope.noting access alone) := by
  unfold claim
  cases access with
  | none => exact .pure ()
  | read =>
    exact (lockShared_calm scope _).bind fun _ =>
      (currentDatabase_calm scope.connection).bind fun _ => .pure _
  | write =>
    refine (connectionOf_calm scope.connection).bind fun conn => ?_
    exact .guard _ ((lockReserved_calm scope alone maxAttempts).bind fun _ => writeDatabase_calm _ _)

/-- Giving back a lock that was taken only to read the catalog. -/
theorem giveBack_calm {α : Type} (c : Nat) (lock : Lock) {x : Run H α} {y : Run (Ledger hooks) α}
    (h : CalmRun may x y) :
    CalmRun may
      (do
        if lock = .none then setLock (H := H) c .none
        x)
      (do
        if lock = .none then setLock (H := Ledger hooks) c .none
        y) :=
  .ite ((setLock_calm c _).bind fun _ => h) h

theorem returnTo_calm (c i : Nat) :
    Calm may (returnTo (H := H) c i) (returnTo (H := Ledger hooks) c i) := by
  unfold returnTo
  refine (connection?_calm c).bind fun conn? =>
    (modifyConnection_calm c (fun _ _ => rfl) fun _ _ _ => ⟨rfl, rfl⟩).bind fun _ => ?_
  exact .ite (Calm.bind (writeDatabase_calm c id) fun _ => .pure _) (.pure _)

theorem catalogOf_calm (scope : Scope H) :
    CalmRun may (catalogOf scope) (catalogOf scope.noting) := by
  unfold catalogOf
  refine (connectionOf_calm scope.connection).bind fun conn => ?_
  cases conn.catalog with
  | some catalog => exact .pure catalog
  | none =>
    refine (lockShared_calm scope _).bind fun _ =>
      (currentDatabase_calm scope.connection).attempt.bind fun result => ?_
    refine giveBack_calm scope.connection conn.lock ((CalmRun.ofExcept result).bind fun db => ?_)
    cases Catalog.read db with
    | error message => exact .throw _
    | ok catalog =>
      exact (CalmRun.lift (modifyConnection_calm _ (fun _ _ => rfl) fun _ _ _ => ⟨rfl, rfl⟩)).bind fun _ => .pure catalog

theorem catalogIsCurrent_calm (scope : Scope H) :
    CalmRun may (catalogIsCurrent scope) (catalogIsCurrent scope.noting) := by
  unfold catalogIsCurrent
  refine (connectionOf_calm scope.connection).bind fun conn => ?_
  cases conn.catalog with
  | none => exact .pure true
  | some catalog =>
    refine (lockShared_calm scope _).attempt.bind fun claimed => ?_
    cases claimed with
    | error _ => exact .pure true
    | ok _ =>
      refine (currentDatabase_calm scope.connection).attempt.bind fun result => ?_
      refine giveBack_calm scope.connection conn.lock ?_
      cases result with
      | ok db => exact .pure _
      | error _ => exact .pure true

/-! ## The end of a transaction -/

theorem tripStatements_calm (c s : Nat) (changed : Bool) :
    Calm may (tripStatements (H := H) c s changed) (tripStatements (H := Ledger hooks) c s changed) :=
  modifyStatements_calm (f := fun n t => if t.connection = c && n != s
      && (changed || t.program.access = .write) then { t with tripped := true } else t)
    (.inr fun _ => .ite fun _ _ _ _ => ⟨rfl, rfl, .inl rfl⟩)

theorem undoAll_calm (c s : Nat) (trip : Bool) :
    Calm may (undoAll (H := H) c s trip) (undoAll (H := Ledger hooks) c s trip) := by
  unfold undoAll
  refine (connection?_calm c).bind fun conn? => ?_
  have hend : Calm may
      (do
        if (conn?.map (·.catalogChanged)).getD false then
          expireStatements (H := H) c
          forgetCatalog c
        endTransaction c s)
      (do
        if (conn?.map (·.catalogChanged)).getD false then
          expireStatements (H := Ledger hooks) c
          forgetCatalog c
        endTransaction c s) :=
    .ite ((expireStatements_calm c).bind fun _ => (forgetCatalog_calm c).bind fun _ =>
      endTransaction_calm c s) (endTransaction_calm c s)
  exact .ite ((tripStatements_calm c s _).bind fun _ => hend) hend

theorem commitDraft_calm (scope : Scope H) :
    CalmRun ⟨true, stores⟩ (commitDraft scope) (commitDraft scope.noting) := by
  unfold commitDraft
  refine (connectionOf_calm scope.connection).bind fun conn => ?_
  cases conn.draft with
  | none => exact .pure ()
  | some _ =>
    refine (lockExclusive_calm scope _).bind fun _ =>
      (connectionOf_calm scope.connection).bind fun conn' => ?_
    cases conn'.draft with
    | none => exact .pure ()
    | some db =>
      exact .lift ⟨.change (fun _ => rfl) fun _ => rfl, fun _ h => h.volumes rfl
        (fun volumes => Assoc.update volumes conn.volume fun v => { v with content := .database db })
        (.inr fun _ => Assoc.keys_update _ _ _)⟩

theorem endStatement_calm (scope : Scope H) (program : Program) (before : Before)
    (failure : Option Fault) : Calm ⟨true, stores⟩ (endStatement scope program before failure)
      (endStatement scope.noting program before failure) := by
  unfold endStatement
  refine .ite (.pure _) ((connection?_calm scope.connection).bind fun conn => ?_)
  -- the work is undone, and the transaction may go on or may not
  have hundo : ∀ (trip : Bool) (x : Option Fault × Bool), Calm ⟨true, stores⟩
      (do
        undoAll (H := H) scope.connection scope.statement trip
        return x)
      (do
        undoAll (H := Ledger scope.hooks) scope.connection scope.statement trip
        return x) :=
    fun trip x => (undoAll_calm _ _ trip).bind fun _ => .pure x
  have hclose : ∀ x : Option Fault × Bool, Calm ⟨true, stores⟩
      (do
        undoAll (H := H) scope.connection scope.statement true
        closeTransaction scope.connection
        return x)
      (do
        undoAll (H := Ledger scope.hooks) scope.connection scope.statement true
        closeTransaction scope.connection
        return x) :=
    fun x => (undoAll_calm _ _ true).bind fun _ => (closeTransaction_calm _).bind fun _ => .pure x
  refine .ite (hclose _) ((otherUsers_calm _ _).bind fun others => ?_)
  refine .ite (.ite (Calm.bind (commitDraft_calm scope) fun result => ?_) (hundo false _)) ?_
  · cases result with
    | ok _ => exact (endTransaction_calm _ _).bind fun _ => .pure _
    | error fault => exact hundo false _
  · refine .ite (.pure _) (.ite (hclose _) ?_)
    exact .ite ((modifyConnection_calm _ (fun _ _ => rfl) fun _ _ _ => ⟨rfl, rfl⟩).bind fun _ => .pure _) (.pure _)

/-- A statement that has failed ends with its own failure. -/
theorem endStatement_failure (scope : Scope H) (program : Program) (before : Before)
    (fault : Fault) :
    Returns (·.1 = some fault) (endStatement scope program before (some fault)) := by
  unfold endStatement
  refine .ite (.pure rfl) (.bind fun conn => .ite ?_ (.bind fun others => .ite (.ite ?_ ?_) ?_))
  · exact .bind fun _ => .bind fun _ => .pure rfl
  · refine .bind fun result => ?_
    cases result with
    | ok _ => exact .bind fun _ => .pure rfl
    | error _ => exact .bind fun _ => .pure rfl
  · exact .bind fun _ => .pure rfl
  · refine .ite (.pure rfl) (.ite ?_ (.ite ?_ (.pure rfl)))
    · exact .bind fun _ => .bind fun _ => .pure rfl
    · exact .bind fun _ => .pure rfl

/-! ## Compilation -/

theorem settleInterrupt_calm (c : Nat) :
    Calm may (settleInterrupt (H := H) c) (settleInterrupt (H := Ledger hooks) c) := by
  unfold settleInterrupt
  refine .get_bind fun t => ?_
  exact .ite (modifyConnection_calm c (fun _ _ => rfl) fun _ _ _ => ⟨rfl, rfl⟩) (.pure ())

theorem compileWithCatalog_calm (scope : Scope H) (command : Sql.Command) (left : Nat) :
    CalmRun may (compileWithCatalog scope command left)
      (compileWithCatalog scope.noting command left) := by
  induction left with
  | zero => exact .throw _
  | succ left ih =>
    unfold compileWithCatalog
    refine (connectionOf_calm scope.connection).bind fun conn => ?_
    cases compileCommand ⟨conn.functions, conn.catalog, conn.writableCatalog⟩ command with
    | ok program => exact .pure program
    | error fault =>
      refine .ite (.ite ((catalogOf_calm scope).bind fun _ => ih) (.throw fault)) ?_
      refine (catalogIsCurrent_calm scope).bind fun isCurrent => .ite (.throw fault) ?_
      exact (CalmRun.lift (forgetCatalog_calm _)).bind fun _ => ih

theorem applySetting_calm (c : Nat) (command : Sql.Command) :
    Calm may (applySetting (H := H) c command) (applySetting (H := Ledger hooks) c command) := by
  unfold applySetting
  split
  · exact .ite ((expireStatements_calm c).bind fun _ => modifyConnection_calm c (fun _ _ => rfl) fun _ _ _ => ⟨rfl, rfl⟩) (.pure ())
  · exact .pure ()

theorem compileText_calm (scope : Scope H) (text : List Char) :
    CalmRun may (compileText scope text) (compileText scope.noting text) := by
  unfold compileText
  refine (CalmRun.lift (settleInterrupt_calm _)).bind fun _ =>
    (connectionOf_calm scope.connection).bind fun conn => ?_
  refine .guard _ ?_
  cases Sql.nextCommand text with
  | error e => exact .throw _
  | ok found =>
    dsimp only
    cases found.command? with
    | none => exact .pure _
    | some command =>
      exact (compileWithCatalog_calm scope command _).bind fun program =>
        (CalmRun.lift (applySetting_calm _ command)).bind fun _ => .pure _

theorem prepare_calm (hooks : Hooks H) (c : Nat) (text : List Char) :
    Calm .full (prepare hooks c text) (prepare hooks.noting c text) := by
  unfold prepare
  refine Calm.bind (compileText_calm ⟨c, 0, hooks⟩ text) fun result =>
    (resetAsked_calm c).bind fun _ => ?_
  cases result with
  | error fault => exact .pure _
  | ok found =>
    obtain ⟨program?, stop⟩ := found
    cases program? with
    | none => exact .pure _
    | some program =>
      refine fresh_calm.bind fun n => Calm.bind ?_ fun _ => .pure _
      exact ⟨.change (fun _ => rfl) fun _ => rfl, fun _ h => h.added rfl n _⟩

theorem prepare_quiet (hooks : Hooks H) (c : Nat) (text : List Char) :
    Quiet (prepare hooks c text) (prepare hooks.noting c text) :=
  (prepare_calm hooks c text).quiet

end HostSql.Engine
