import HostSql.Engine.Execution
import HostSql.Proofs.Engine.Changing

/-!
# Steps are faithful

A step of a statement is not changed by the ledger, and what it asks the host explains how it ends.
The statement delivers a row or ends well only if every call and every group it asked for ended
well. If a call or the end of a group fails, it is the last thing that is asked for, and the step
fails with the message of that reply.

> `step_orderly`: what a step asks the host explains how it ends.
-/

namespace HostSql.Engine

variable {H : Type} {hooks : Hooks H} {may : Licence} {commits stores : Bool}

/-- The failure of a step. -/
def Progress.fault? : Progress → Option Fault
  | row | done => none
  | failed fault => some fault

/-- The failure of a beginning. -/
def Begun.fault? : Begun → Option Fault
  | progress p => p.fault?
  | outdated => none

/-! ## Ends of statements -/

theorem halt_calm (s : Nat) (fault? : Option Fault) :
    Calm may (halt (H := H) s fault?) (halt (H := Ledger hooks) s fault?) := by
  unfold halt
  exact (modifyStatement_calm s (.inr fun _ _ _ _ => ⟨rfl, rfl, .inr rfl⟩)).bind fun _ => .pure _

theorem halt_fault (s : Nat) (fault? : Option Fault) :
    Returns (·.fault? = fault?) (halt (H := H) s fault?) := by
  unfold halt
  refine .bind fun _ => .pure ?_
  cases fault? <;> rfl

theorem block_calm (s : Nat) (fault : Fault) :
    Calm may (block (H := H) s fault) (block (H := Ledger hooks) s fault) := by
  unfold block
  exact (modifyStatement_calm s (.inr fun _ _ _ _ => ⟨rfl, rfl, .inl rfl⟩)).bind fun _ => .pure _

theorem finish_calm (scope : Scope H) (program : Program) (before : Before)
    (fault? : Option Fault) :
    Calm ⟨true, stores⟩ (finish scope program before fault?) (finish scope.noting program before fault?) := by
  unfold finish
  exact (endStatement_calm scope program before fault?).bind fun ended => halt_calm _ _

/-- The end of a statement that has failed passes the failure on. -/
theorem finish_fault (scope : Scope H) (program : Program) (before : Before) (fault : Fault) :
    Returns (·.fault? = some fault) (finish scope program before (some fault)) := by
  unfold finish
  refine (endStatement_failure scope program before fault).bind_of ?_
  rintro ⟨_, counts⟩ rfl
  exact halt_fault _ _

/-- After a failure only the end of the statement is left. -/
theorem finish_resigns (scope : Scope H) (program : Program) (before : Before) (fault : Fault) :
    Resigns ⟨true, stores⟩ fault Progress.fault? (finish scope program before (some fault))
      (finish scope.noting program before (some fault)) :=
  (finish_calm scope program before (some fault)).resigns (finish_fault scope.noting program _ fault)

/-! ## What statements do -/

theorem advance_orderly (scope : Scope H) (program : Program) (cursor : Cursor) :
    Orderly .full Progress.fault? (advance scope program cursor)
      (advance scope.noting program cursor) := by
  unfold advance
  refine Orderly.bind (Cursor.next_orderly scope fuel cursor) ?_ ?_
  · intro result h
    match result, h with
    | .ok (some found), _ =>
      exact .calm_bind (modifyStatement_calm _ (.inl rfl)) fun _ => .pure _ _
    | .ok none, _ => exact (finish_calm scope program _ none).orderly _
  · -- the cursor has failed, and the statement ends with its failure
    intro result fault h
    cases result with
    | ok found => exact nomatch h
    | error _ =>
      cases h
      exact finish_resigns scope program _ fault

theorem countChanges_calm (c : Nat) (program : Program) (count : Nat) :
    Calm may (countChanges (H := H) c program count) (countChanges (H := Ledger hooks) c program count) := by
  unfold countChanges
  cases program.action with
  | changeRows _ _ => exact modifyConnection_calm c (fun _ _ => rfl) fun _ _ _ => ⟨rfl, rfl⟩
  | _ => exact .pure ()

theorem runRowChange_orderly (scope : Scope H) (program : Program) (target : Target)
    (change : RowChange) :
    Orderly ⟨true, stores⟩ Progress.fault? (runRowChange scope program target change)
      (runRowChange scope.noting program target change) := by
  unfold runRowChange
  refine .calm_bind (connection?_calm scope.connection) fun conn? =>
    Orderly.bind (applyRowChange_orderly scope target change) ?_ ?_
  · rintro ⟨count, fault?⟩ h
    refine Calm.orderly ?_ _
    exact (endStatement_calm scope program _ fault?).bind fun ended =>
      (countChanges_calm _ program _).bind fun _ => halt_calm _ _
  · -- the changes have failed; undoing them asks for nothing and keeps the failure
    rintro ⟨count, fault?⟩ fault h
    cases h
    refine Calm.resigns ((endStatement_calm scope program _ _).bind fun ended =>
      (countChanges_calm _ program _).bind fun _ => halt_calm _ _) ?_
    refine (endStatement_failure scope.noting program _ fault).bind_of ?_
    rintro ⟨_, counts⟩ rfl
    exact .bind fun _ => halt_fault _ _

theorem runTableChange_calm (scope : Scope H) (program : Program) (change : TableChange) :
    Calm ⟨true, stores⟩ (runTableChange scope program change) (runTableChange scope.noting program change) := by
  unfold runTableChange
  refine (connection?_calm scope.connection).bind fun conn? =>
    Calm.bind (applyTableChange_calm scope change) fun result => ?_
  cases result with
  | ok _ => exact finish_calm scope program _ none
  | error fault =>
    exact (forgetCatalog_calm _).bind fun _ => finish_calm scope program _ (some fault)

theorem othersWrite_calm (scope : Scope H) :
    CalmRun may (othersWrite scope) (othersWrite scope.noting) := by
  unfold othersWrite
  exact (CalmRun.lift (otherUsers_calm _ _)).bind fun others => .pure _

theorem commitTransaction_calm (scope : Scope H) :
    Calm ⟨true, stores⟩ (commitTransaction scope) (commitTransaction scope.noting) := by
  unfold commitTransaction
  refine Calm.bind (othersWrite_calm scope) fun others => ?_
  split
  · refine Calm.bind (commitDraft_calm scope) fun result => ?_
    cases result with
    | error fault => exact block_calm _ fault
    | ok _ =>
      exact (closeTransaction_calm _).bind fun _ => (endTransaction_calm _ _).bind fun _ =>
        halt_calm _ none
  · exact halt_calm _ _

theorem beginTransaction_calm (scope : Scope H) (mode : Sql.BeginMode) :
    Calm ⟨true, stores⟩ (beginTransaction scope mode) (beginTransaction scope.noting mode) := by
  unfold beginTransaction
  refine (connection?_calm scope.connection).bind fun conn? =>
    Calm.bind (claim_calm scope _ _) fun result => ?_
  cases result with
  | error fault => exact .ite (block_calm _ fault) (halt_calm _ _)
  | ok _ =>
    exact .ite ((modifyConnection_calm _ (fun _ _ => rfl) fun _ _ _ => ⟨rfl, rfl⟩).bind fun _ => halt_calm _ _) (halt_calm _ _)

theorem runTransaction_calm (scope : Scope H) (action : Action) :
    Calm ⟨true, stores⟩ (runTransaction scope action) (runTransaction scope.noting action) := by
  unfold runTransaction
  refine (connection?_calm scope.connection).bind fun conn? => ?_
  cases conn? with
  | none => exact halt_calm _ _
  | some conn =>
    have hfail : ∀ message : String, Calm ⟨true, stores⟩
        (halt (H := H) scope.statement (some (.general message)))
        (halt (H := Ledger scope.hooks) scope.statement (some (.general message))) :=
      fun message => halt_calm _ _
    cases action with
    | begin mode => exact beginTransaction_calm scope mode
    | commit => exact .ite (hfail _) (commitTransaction_calm scope)
    | rollback =>
      refine .ite (hfail _) ((closeTransaction_calm _).bind fun _ => ?_)
      exact (undoAll_calm _ _ _).bind fun _ => halt_calm _ _
    | savepoint name =>
      refine Calm.bind (othersWrite_calm scope) fun others => ?_
      split
      · exact (modifyConnection_calm _ (fun _ _ => rfl) fun _ _ _ => ⟨rfl, rfl⟩).bind fun _ => halt_calm _ _
      · exact halt_calm _ _
    | release name =>
      dsimp only
      split
      · exact hfail _
      refine Calm.bind (othersWrite_calm scope) fun others => ?_
      split
      · exact .ite (commitTransaction_calm scope)
          ((modifyConnection_calm _ (fun _ _ => rfl) fun _ _ _ => ⟨rfl, rfl⟩).bind fun _ => halt_calm _ _)
      · exact halt_calm _ _
    | rollbackTo name =>
      dsimp only
      split
      · exact hfail _
      refine (tripStatements_calm _ _ _).bind fun _ => .ite ((expireStatements_calm _).bind fun _ =>
        (forgetCatalog_calm _).bind fun _ => ?_) ?_
      · exact (returnTo_calm _ _).bind fun _ => halt_calm _ _
      · exact (returnTo_calm _ _).bind fun _ => halt_calm _ _
    | query plan => exact halt_calm _ _
    | changeRows target change => exact halt_calm _ _
    | changeTables change => exact halt_calm _ _
    | nothing => exact halt_calm _ _

/-! ## Steps -/

theorem isCurrent_calm (scope : Scope H) (program : Program) :
    CalmRun may (isCurrent scope program) (isCurrent scope.noting program) := by
  unfold isCurrent
  split
  · exact .pure true
  · exact .pure true
  · exact (currentDatabase_calm scope.connection).bind fun db => .pure _

theorem enter_calm (scope : Scope H) (program : Program) :
    CalmRun may (enter scope program) (enter scope.noting program) := by
  unfold enter
  exact (checkInterrupt_calm scope).bind fun _ => (claim_calm scope _ _).bind fun _ =>
    isCurrent_calm scope program

theorem beginStatement_orderly (scope : Scope H) (program : Program) :
    Orderly .full Begun.fault? (beginStatement scope program)
      (beginStatement scope.noting program) := by
  unfold beginStatement
  refine .calm_bind (resetAsked_calm _) fun _ =>
    .calm_bind (modifyStatement_calm _ (.inl rfl)) fun _ =>
    .calm_bind (enter_calm scope program) fun entered => ?_
  -- only queries and changes of rows can call the host
  have hprogress : ∀ {x : StateM (World H) Progress} {y : LedgerM scope.hooks Progress},
      Orderly .full Progress.fault? x y → Orderly .full Begun.fault?
        (do
          let progress ← x
          return Begun.progress progress)
        (do
          let progress ← y
          return Begun.progress progress) :=
    fun h => h.map Begun.progress fun _ => rfl
  match entered with
  | .error fault =>
    refine Calm.orderly (.ite ?_ ?_) _
    · exact (block_calm _ fault).bind fun _ => .pure _
    · exact (countChanges_calm _ program 0).bind fun _ =>
        (finish_calm scope program _ _).bind fun _ => .pure _
  | .ok false =>
    refine Calm.orderly ?_ _
    exact (finish_calm scope program _ _).bind fun _ => (forgetCatalog_calm _).bind fun _ =>
      .pure _
  | .ok true =>
    cases program.action with
    | query plan => exact hprogress (advance_orderly scope program (.idle plan))
    | changeRows target change =>
      exact hprogress (runRowChange_orderly scope program target change)
    | changeTables change =>
      exact hprogress ((runTableChange_calm scope program change).orderly _)
    | nothing => exact hprogress ((finish_calm scope program _ none).orderly _)
    | begin mode => exact hprogress ((runTransaction_calm scope _).orderly _)
    | commit => exact hprogress ((runTransaction_calm scope _).orderly _)
    | rollback => exact hprogress ((runTransaction_calm scope _).orderly _)
    | savepoint name => exact hprogress ((runTransaction_calm scope _).orderly _)
    | release name => exact hprogress ((runTransaction_calm scope _).orderly _)
    | rollbackTo name => exact hprogress ((runTransaction_calm scope _).orderly _)

theorem recompile_calm (scope : Scope H) (text : List Char) :
    Calm ⟨commits, true⟩ (recompile scope text) (recompile scope.noting text) := by
  unfold recompile
  refine Calm.bind (compileText_calm scope text) fun result => (resetAsked_calm _).bind fun _ => ?_
  match result with
  | .ok (some program, _) => exact (modifyStatement_calm _ (.inl rfl)).bind fun _ => .pure none
  | .ok (none, _) => exact .pure none
  | .error fault => exact .pure (some fault)

theorem refresh_calm (scope : Scope H) (s : Statement) :
    Calm ⟨commits, true⟩ (refresh scope s) (refresh scope.noting s) :=
  .ite (recompile_calm scope s.text) (.pure none)

/-- A beginning, and another one if the statement has to be compiled again. -/
theorem begun_orderly (scope : Scope H) {x : StateM (World H) Begun}
    {y : LedgerM scope.hooks Begun} {again : StateM (World H) Progress}
    {again' : LedgerM scope.hooks Progress} (hx : Orderly .full Begun.fault? x y)
    (hagain : Orderly .full Progress.fault? again again') :
    Orderly .full Progress.fault?
      (do
        match ← x with
        | .progress p => return p
        | .outdated =>
          World.modifyStatement scope.statement fun s => { s with expired := true }
          again)
      (do
        match ← y with
        | .progress p => return p
        | .outdated =>
          World.modifyStatement scope.statement fun s => { s with expired := true }
          again') := by
  refine hx.bind ?_ ?_
  · intro begun h
    cases begun with
    | progress p => exact .pure _ p
    | outdated => exact .calm_bind (modifyStatement_calm _ (.inl rfl)) fun _ => hagain
  · intro begun fault h
    cases begun with
    | progress p => exact .pure h
    | outdated => exact nomatch h

theorem beginCurrent_orderly (scope : Scope H) (left : Nat) :
    Orderly .full Progress.fault? (beginCurrent scope left) (beginCurrent scope.noting left) := by
  induction left with
  | zero => exact .pure _ _
  | succ left ih =>
    unfold beginCurrent
    refine .get_bind fun t => ?_
    rw [World.plain_statements, Scope.noting_statement]
    cases t.statements.get? scope.statement with
    | none => exact .pure _ _
    | some s =>
      refine .calm_bind (refresh_calm scope s) fun failure => ?_
      cases failure with
      | some fault => exact (halt_calm _ _).orderly _
      | none =>
        refine .calm_bind (settleInterrupt_calm _) fun _ => .get_bind fun t' => ?_
        exact begun_orderly scope (beginStatement_orderly scope _) ih

theorem step_orderly (hooks : Hooks H) (statement : Nat) :
    Orderly .full Progress.fault? (step hooks statement) (step hooks.noting statement) := by
  unfold step
  refine .get_bind fun t => ?_
  rw [World.plain_statements]
  cases t.statements.get? statement with
  | none => exact .pure _ _
  | some s =>
    have hcurrent (left : Nat) := beginCurrent_orderly ⟨s.connection, statement, hooks⟩ left
    dsimp only
    cases s.phase with
    | ready => exact hcurrent _
    | halted => exact hcurrent _
    | blocked =>
      exact begun_orderly ⟨s.connection, statement, hooks⟩ (beginStatement_orderly _ s.program)
        (hcurrent _)
    | running =>
      refine .calm_bind (resetAsked_calm _) fun _ =>
        .calm_bind (checkInterrupt_calm ⟨s.connection, statement, hooks⟩) fun result => ?_
      cases result with
      | error fault =>
        exact (finish_calm ⟨s.connection, statement, hooks⟩ s.program _ _).orderly _
      | ok _ => exact advance_orderly ⟨s.connection, statement, hooks⟩ s.program s.cursor

/-- Runs a statement to its next row or its end, of which its requests are the explanation. -/
theorem step_faithful (hooks : Hooks H) (statement : Nat) :
    Faithful Progress.fault? (step hooks statement) (step hooks.noting statement) :=
  (step_orderly hooks statement).faithful

/-- Releasing a statement asks for nothing. -/
theorem finalize_quiet (hooks : Hooks H) (statement : Nat) :
    Quiet (finalize hooks statement) (finalize hooks.noting statement) := by
  unfold finalize
  refine .get_bind fun t => ?_
  rw [World.plain_statements]
  cases t.statements.get? statement with
  | none => exact .pure none
  | some s =>
    have herase : Quiet
        (do
          modify fun w : World H => { w with statements := Assoc.erase w.statements statement }
          return s.failure)
        (do
          modify fun w : World (Ledger hooks) =>
            { w with statements := Assoc.erase w.statements statement }
          return s.failure) :=
      Quiet.bind (.change (fun _ => rfl) fun _ => rfl) fun _ => .pure s.failure
    refine .ite (Quiet.bind ?_ fun _ => Quiet.bind ?_ fun _ => herase) herase
    · have hend : Calm .full _ _ :=
        endStatement_calm ⟨s.connection, statement, hooks⟩ s.program ⟨none, false⟩ s.failure
      exact hend.quiet
    · have hcount : Calm .full (countChanges (H := H) s.connection s.program 0)
          (countChanges (H := Ledger hooks) s.connection s.program 0) := countChanges_calm _ _ _
      exact hcount.quiet

/-- What a step of a statement asks of the host, the first request first. -/
def stepRequests (hooks : Hooks H) (statement : Nat) (w : World H) : List (HostNote hooks) :=
  ((step hooks.noting statement).run (w.noted [])).2.host.own

/-- What a step asks explains how it ends. -/
theorem step_explained (hooks : Hooks H) (statement : Nat) (w : World H) :
    Explains .general (stepRequests hooks statement w) ((step hooks statement).run w).1.fault? := by
  obtain ⟨hsame, new, hnew, hexplains⟩ := step_faithful hooks statement (w.noted [])
  have hplain : (w.noted ([] : List (HostNote hooks))).plain = w := rfl
  have hrequests : stepRequests hooks statement w = new := hnew
  rw [hplain] at hsame
  rw [hrequests, hsame]
  exact hexplains

end HostSql.Engine
