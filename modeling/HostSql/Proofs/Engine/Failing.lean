import HostSql.Proofs.Engine.Stepping

/-!
# What a failed step leaves behind

A statement whose step has failed is still there, and it keeps the failure, for its release to
report. No nested execution takes it away: what a host function releases, it has compiled itself.
That is all this needs to know of a host (`Present`).

> `step_leaves`: a step that fails leaves its statement with its failure.
-/

namespace HostSql.Engine

variable {H α β : Type}

/-! ## Statements that are there -/

/-- A statement is there, and its number will not be given out again. -/
def Present (k : Nat) (w : World H) : Prop :=
  k < w.nextId ∧ (w.statements.get? k).isSome = true

/-- The engine's own changes take no statement away. -/
theorem Present.engineKeeps (k : Nat) : EngineKeeps .full (Present k (H := H)) where
  connection _ _ _ _ := fun _ h => h
  statements f _ := by
    rintro w ⟨hlt, hk⟩
    refine ⟨hlt, ?_⟩
    show (Assoc.get? (w.statements.map fun p => (p.1, f p.1 p.2)) k).isSome = true
    rw [Assoc.get?_map, Option.isSome_map]
    exact hk
  added _ n s := by
    rintro w ⟨hlt, hk⟩
    refine ⟨hlt, ?_⟩
    show (Assoc.get? (Assoc.set w.statements n s) k).isSome = true
    by_cases hnk : n = k
    · rw [hnk, Assoc.get?_set_self]
      rfl
    · rw [Assoc.get?_set_ne _ hnk]
      exact hk
  fresh := fun _ h => ⟨Nat.lt_succ_of_lt h.1, h.2⟩
  volumes _ _ _ := fun _ h => h

/-! ## Leaving a failure -/

/-- The failure that a statement has been left with. -/
def World.failure? (w : World H) (k : Nat) : Option Fault := (w.statements.get? k).bind (·.failure)

/-- Leaves a statement, if it is there, with the failure with which it ends. -/
def LeavesFailure (k : Nat) (fault? : α → Option Fault) (x : StateM (World H) α) : Prop :=
  ∀ w, Present k w → ∀ fault, fault? (x.run w).1 = some fault →
    (x.run w).2.failure? k = some fault

namespace LeavesFailure

variable {k : Nat} {fault? : α → Option Fault}

theorem pure {a : α} (h : fault? a = none) :
    LeavesFailure k fault? (Pure.pure a : StateM (World H) α) := by
  intro w _ fault hfault
  rw [show fault? ((Pure.pure a : StateM (World H) α).run w).1 = none from h] at hfault
  exact nomatch hfault

theorem bind {x : StateM (World H) β} {f : β → StateM (World H) α} (hx : Keeps (Present k) x)
    (hf : ∀ b, LeavesFailure k fault? (f b)) : LeavesFailure k fault? (x >>= f) :=
  fun w hw => hf (x.run w).1 (x.run w).2 (hx w hw)

theorem ite {c : Prop} [Decidable c] {x y : StateM (World H) α} (hx : LeavesFailure k fault? x)
    (hy : LeavesFailure k fault? y) : LeavesFailure k fault? (if c then x else y) := by
  split
  · exact hx
  · exact hy

/-- What only reads off the result of a computation. -/
theorem map {fault?' : β → Option Fault} {x : StateM (World H) β} (hx : LeavesFailure k fault?' x)
    (f : β → α) (h : ∀ b, fault? (f b) = fault?' b) :
    LeavesFailure k fault? (x >>= fun b => Pure.pure (f b)) := by
  intro w hw fault hfault
  refine hx w hw fault ?_
  rw [← h]
  exact hfault

end LeavesFailure

/-- A statement that is changed has the failure that the change gives it. -/
theorem failure?_modifyStatement (w : World H) (k : Nat) (f : Statement → Statement) :
    ((World.modifyStatement k f).run w).2.failure? k =
      (w.statements.get? k).bind fun s => (f s).failure := by
  show (Assoc.get? (Assoc.update w.statements k f) k).bind (·.failure) = _
  rw [Assoc.get?_update_self]
  cases w.statements.get? k <;> rfl

/-- A statement that is there is changed. -/
theorem failure?_of_modify {w : World H} {k : Nat} (hw : Present k w) {f : Statement → Statement}
    {failure? : Option Fault} (hf : ∀ s, (f s).failure = failure?) :
    ((World.modifyStatement k f).run w).2.failure? k = failure? := by
  obtain ⟨s, hs⟩ := Option.isSome_iff_exists.mp hw.2
  rw [failure?_modifyStatement, hs]
  exact hf s

theorem halt_leaves (k : Nat) (fault? : Option Fault) :
    LeavesFailure k Progress.fault? (halt (H := H) k fault?) := by
  intro w hw fault hfault
  rw [halt_fault k fault? w] at hfault
  rw [← hfault]
  exact failure?_of_modify hw fun _ => rfl

theorem block_leaves (k : Nat) (fault : Fault) :
    LeavesFailure k Progress.fault? (block (H := H) k fault) := by
  intro w hw _ hfault
  rw [← hfault]
  exact failure?_of_modify hw fun _ => rfl

/-! ## What statements do -/

section Stepping

variable {scope : Scope H} (h : Stable .full scope.hooks (Present scope.statement))

include h

theorem finish_leaves (program : Program) (before : Before) (fault? : Option Fault) :
    LeavesFailure scope.statement Progress.fault? (finish scope program before fault?) := by
  unfold finish
  exact .bind ((endStatement_calm scope program before fault?).within _ h) fun _ => halt_leaves _ _

theorem advance_leaves (program : Program) (cursor : Cursor) :
    LeavesFailure scope.statement Progress.fault? (advance scope program cursor) := by
  unfold advance
  refine .bind ((Cursor.next_orderly scope fuel cursor).within _ h) fun result => ?_
  rcases result with fault | found?
  · exact finish_leaves h program _ _
  · cases found? with
    | none => exact finish_leaves h program _ _
    | some found => exact .bind ((modifyStatement_calm _ (.inl rfl)).within _ h) fun _ => .pure rfl

theorem runRowChange_leaves (program : Program) (target : Target) (change : RowChange) :
    LeavesFailure scope.statement Progress.fault? (runRowChange scope program target change) := by
  unfold runRowChange
  refine .bind ((connection?_calm scope.connection).within _ h) fun conn? =>
    .bind ((applyRowChange_orderly scope target change).within _ h) fun changed =>
    .bind ((endStatement_calm scope program _ _).within _ h) fun ended =>
    .bind ((countChanges_calm _ program _).within _ h) fun _ => halt_leaves _ _

theorem runTableChange_leaves (program : Program) (change : TableChange) :
    LeavesFailure scope.statement Progress.fault? (runTableChange scope program change) := by
  unfold runTableChange
  refine .bind ((connection?_calm scope.connection).within _ h) fun conn? =>
    .bind ((applyTableChange_calm scope change).within _ h) fun result => ?_
  cases result with
  | ok _ => exact finish_leaves h program _ _
  | error fault =>
    exact .bind ((forgetCatalog_calm _).within _ h) fun _ => finish_leaves h program _ _

theorem commitTransaction_leaves :
    LeavesFailure scope.statement Progress.fault? (commitTransaction scope) := by
  unfold commitTransaction
  refine .bind ((othersWrite_calm scope).within _ h) fun others => ?_
  split
  · refine .bind ((commitDraft_calm scope).within _ h) fun result => ?_
    cases result with
    | error fault => exact block_leaves _ fault
    | ok _ =>
      exact .bind ((closeTransaction_calm _).within _ h) fun _ =>
        .bind ((endTransaction_calm _ _).within _ h) fun _ => halt_leaves _ none
  · exact halt_leaves _ _

theorem beginTransaction_leaves (mode : Sql.BeginMode) :
    LeavesFailure scope.statement Progress.fault? (beginTransaction scope mode) := by
  unfold beginTransaction
  refine .bind ((connection?_calm scope.connection).within _ h) fun conn? =>
    .bind ((claim_calm scope _ _).within _ h) fun result => ?_
  cases result with
  | error fault => exact .ite (block_leaves _ fault) (halt_leaves _ _)
  | ok _ =>
    exact .ite (.bind ((modifyConnection_calm _ (fun _ _ => rfl) fun _ _ _ => ⟨rfl, rfl⟩).within _ h) fun _ => halt_leaves _ _)
      (halt_leaves _ _)

theorem runTransaction_leaves (action : Action) :
    LeavesFailure scope.statement Progress.fault? (runTransaction scope action) := by
  unfold runTransaction
  refine .bind ((connection?_calm scope.connection).within _ h) fun conn? => ?_
  have hchange : ∀ f : Connection → Connection, LeavesAsking f → Connection.LeavesNumbers f →
      Keeps (Present scope.statement) (World.modifyConnection scope.connection f) :=
    fun f hf hnumbers => (modifyConnection_calm _ hf hnumbers).within _ h
  cases conn? with
  | none => exact halt_leaves _ _
  | some conn =>
    cases action with
    | begin mode => exact beginTransaction_leaves h mode
    | commit => exact .ite (halt_leaves _ _) (commitTransaction_leaves h)
    | rollback =>
      refine .ite (halt_leaves _ _) (.bind ((closeTransaction_calm _).within _ h) fun _ => ?_)
      exact .bind ((undoAll_calm _ _ _).within _ h) fun _ => halt_leaves _ _
    | savepoint name =>
      refine .bind ((othersWrite_calm scope).within _ h) fun others => ?_
      split
      · exact .bind (hchange _ (fun _ _ => rfl) fun _ _ _ => ⟨rfl, rfl⟩) fun _ => halt_leaves _ _
      · exact halt_leaves _ _
    | release name =>
      dsimp only
      split
      · exact halt_leaves _ _
      refine .bind ((othersWrite_calm scope).within _ h) fun others => ?_
      split
      · exact .ite (commitTransaction_leaves h)
          (.bind (hchange _ (fun _ _ => rfl) fun _ _ _ => ⟨rfl, rfl⟩) fun _ => halt_leaves _ _)
      · exact halt_leaves _ _
    | rollbackTo name =>
      dsimp only
      split
      · exact halt_leaves _ _
      refine .bind ((tripStatements_calm _ _ _).within _ h) fun _ =>
        .ite (.bind ((expireStatements_calm _).within _ h) fun _ =>
          .bind ((forgetCatalog_calm _).within _ h) fun _ => ?_) ?_
      · exact .bind ((returnTo_calm _ _).within _ h) fun _ => halt_leaves _ _
      · exact .bind ((returnTo_calm _ _).within _ h) fun _ => halt_leaves _ _
    | query plan => exact halt_leaves _ _
    | changeRows target change => exact halt_leaves _ _
    | changeTables change => exact halt_leaves _ _
    | nothing => exact halt_leaves _ _

/-! ## Steps -/

/-- The failure with which a beginning leaves its statement. -/
def Begun.left? : Begun → Option Fault
  | .progress p => p.fault?
  | .outdated => some .catalogChanged

theorem beginStatement_leaves (program : Program) :
    LeavesFailure scope.statement Begun.left? (beginStatement scope program) := by
  unfold beginStatement
  refine .bind ((resetAsked_calm _).within _ h) fun _ =>
    .bind ((modifyStatement_calm _ (.inl rfl)).within _ h) fun _ =>
    .bind ((enter_calm scope program).within _ h) fun entered => ?_
  have hprogress {x : StateM (World H) Progress} (hx : LeavesFailure scope.statement Progress.fault? x) :
      LeavesFailure scope.statement Begun.left? (x >>= fun p => return Begun.progress p) :=
    hx.map Begun.progress fun _ => rfl
  rcases entered with fault | current
  · refine .ite (hprogress (block_leaves _ fault)) ?_
    exact .bind ((countChanges_calm _ program 0).within _ h) fun _ => hprogress (finish_leaves h program _ _)
  cases current with
  | false =>
    -- the catalog is forgotten after the statement has ended
    intro w hw fault hfault
    cases hfault
    exact finish_leaves h program _ _ w hw _ (finish_fault scope program _ _ w)
  | true =>
    cases program.action with
    | query plan => exact hprogress (advance_leaves h program (.idle plan))
    | changeRows target change => exact hprogress (runRowChange_leaves h program target change)
    | changeTables change => exact hprogress (runTableChange_leaves h program change)
    | nothing => exact hprogress (finish_leaves h program _ none)
    | begin mode => exact hprogress (runTransaction_leaves h _)
    | commit => exact hprogress (runTransaction_leaves h _)
    | rollback => exact hprogress (runTransaction_leaves h _)
    | savepoint name => exact hprogress (runTransaction_leaves h _)
    | release name => exact hprogress (runTransaction_leaves h _)
    | rollbackTo name => exact hprogress (runTransaction_leaves h _)

/-- A beginning, and another one if the statement has to be compiled again: that one finds the
statement with the failure that it was outdated. -/
theorem begun_leaves {x : StateM (World H) Begun} {again : StateM (World H) Progress}
    (hx : LeavesFailure scope.statement Begun.left? x) (hkeeps : Keeps (Present scope.statement) x)
    (hagain : ∀ w, Present scope.statement w → w.failure? scope.statement = some .catalogChanged →
      ∀ fault, (again.run w).1.fault? = some fault →
        (again.run w).2.failure? scope.statement = some fault) :
    LeavesFailure scope.statement Progress.fault?
      (do
        match ← x with
        | .progress p => return p
        | .outdated =>
          World.modifyStatement scope.statement fun s => { s with expired := true }
          again) := by
  intro w hw fault hfault
  have hleft := hx w hw
  have hpresent := hkeeps w hw
  rw [run_bind] at hfault ⊢
  cases hbegun : (x.run w).1 with
  | progress p =>
    rw [hbegun] at hfault hleft
    exact hleft fault hfault
  | outdated =>
    rw [hbegun] at hfault hleft
    refine hagain _ ((modifyStatement_calm _ (.inl rfl)).within _ h _ hpresent) ?_ fault hfault
    rw [failure?_modifyStatement]
    exact hleft _ rfl

/-- The last of the beginnings finds the failure that is given up with. -/
theorem beginCurrent_leaves (left : Nat) : ∀ w, Present scope.statement w →
    (left = 0 → w.failure? scope.statement = some .catalogChanged) →
    ∀ fault, ((beginCurrent scope left).run w).1.fault? = some fault →
      ((beginCurrent scope left).run w).2.failure? scope.statement = some fault := by
  induction left with
  | zero =>
    intro w _ hleft fault hfault
    rw [← hfault]
    exact hleft rfl
  | succ left ih =>
    intro w hw _
    obtain ⟨s, hs⟩ := Option.isSome_iff_exists.mp hw.2
    unfold beginCurrent
    rw [run_bind, run_get]
    simp only [hs]
    refine (LeavesFailure.bind ((refresh_calm scope s).within _ h) fun failure? => ?_ :
      LeavesFailure scope.statement Progress.fault? _) w hw
    cases failure? with
    | some fault => exact halt_leaves _ _
    | none =>
      refine .bind ((settleInterrupt_calm _).within _ h) fun _ => .bind (fun _ hw => hw) fun w' => ?_
      exact begun_leaves h (beginStatement_leaves h _) ((beginStatement_orderly scope _).within _ h)
        fun w hw hleft => ih w hw fun _ => hleft

end Stepping

/-- A step that fails leaves its statement with its failure. -/
theorem step_leaves {hooks : Hooks H} {k : Nat} (h : HostKeeps hooks (Present k)) :
    LeavesFailure k Progress.fault? (step hooks k) := by
  intro w hw
  obtain ⟨s, hs⟩ := Option.isSome_iff_exists.mp hw.2
  let scope : Scope H := ⟨s.connection, k, hooks⟩
  have hstable : Stable .full scope.hooks (Present scope.statement) := ⟨Present.engineKeeps k, h⟩
  have hcurrent (left : Nat) (hleft : left ≠ 0) : ∀ w, Present k w → ∀ fault,
      ((beginCurrent scope left).run w).1.fault? = some fault →
      ((beginCurrent scope left).run w).2.failure? k = some fault :=
    fun w hw => beginCurrent_leaves hstable left w hw fun h => absurd h hleft
  unfold step
  rw [run_bind, run_get]
  simp only [hs]
  cases s.phase with
  | ready => exact hcurrent (maxRecompilations + 1) (by decide) w hw
  | halted => exact hcurrent (maxRecompilations + 1) (by decide) w hw
  | blocked =>
    exact begun_leaves hstable (beginStatement_leaves hstable _)
      ((beginStatement_orderly scope _).within _ hstable) (fun w hw _ => hcurrent maxRecompilations (by decide) w hw) w hw
  | running =>
    refine (LeavesFailure.bind ((resetAsked_calm _).within _ hstable) fun _ =>
      .bind ((checkInterrupt_calm scope).within _ hstable) fun result => ?_ :
      LeavesFailure k Progress.fault? _) w hw
    cases result with
    | error fault => exact finish_leaves hstable s.program _ _
    | ok _ => exact advance_leaves hstable s.program s.cursor

end HostSql.Engine
