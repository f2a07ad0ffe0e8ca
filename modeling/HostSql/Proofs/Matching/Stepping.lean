import HostSql.Engine.Execution
import HostSql.Proofs.Matching.Changing

/-!
# Statements are executed alike

Steps of matched statements end in the same way, and so do whole executions: `step_linked`,
`finalize_linked`, `execute_linked`.
-/

namespace HostSql.Engine

variable {H H' : Type} {M : Matching} {G : H → H' → Prop}

/-! ## The end of a statement -/

/-- A change of a statement that leaves its connection, its program and its cursor. -/
theorem changeStatement_linked {s s' : Nat} (hs : M.Same s s') {f : Statement → Statement}
    (hf : ∀ (t : Statement) c p u, f { t with connection := c, program := p, cursor := u }
      = { f t with connection := c, program := p, cursor := u }) :
    Linked (Matched M G) Eq (World.modifyStatement s f) (World.modifyStatement s' f) := by
  refine modifyStatement_linked hs fun t t' ht => ?_
  cases ht with
  | @mk t c c' p p' u u' hc hp hu =>
    rw [hf t c p u, hf t c' p' u']
    exact .mk (f t) hc hp hu

theorem halt_linked {s s' : Nat} (hs : M.Same s s') (fault : Option Fault) :
    Linked (Matched M G) Eq (halt s fault) (halt s' fault) := by
  unfold halt
  refine (modifyStatement_linked hs fun t t' ht => ?_).bind_same fun _ => .same _
  cases ht with
  | mk t hc hp _ => exact .mk { t with phase := .halted, row := [], failure := fault } hc hp .done

theorem block_linked {s s' : Nat} (hs : M.Same s s') (fault : Fault) :
    Linked (Matched M G) Eq (block s fault) (block s' fault) :=
  (changeStatement_linked hs fun _ _ _ _ => rfl).bind_same fun _ => .same _

/-- What matched connections have written so far is the same. -/
theorem draft_same {same : Nat → Nat → Prop} {c? c?' : Option Connection}
    (hc : Option.Rel (Connection.Same same) c? c?') : c?.bind (·.draft) = c?'.bind (·.draft) := by
  cases hc with
  | none => rfl
  | some hc =>
    cases hc
    rfl

theorem returnTo_linked {k l : Nat} (h : M.Same k l) (i : Nat) :
    Linked (Matched M G) Eq (returnTo k i) (returnTo l i) := by
  unfold returnTo
  refine (connection?_linked h).bind fun c? c?' hc => ?_
  rw [draft_same hc]
  refine (changeConnection_linked h fun _ _ _ => rfl).bind_same fun _ => ?_
  exact .ite (Linked.bind (writeDatabase_linked h id) fun _ _ _ => .same ()) (.same ())

theorem countChanges_linked {k l : Nat} (h : M.Same k l) {program program' : Program}
    (hprogram : program.Same M.Same program') (count : Nat) :
    Linked (Matched M G) Eq (countChanges k program count) (countChanges l program' count) := by
  unfold countChanges
  cases hprogram with
  | mk p ha =>
    cases ha with
    | changeRows _ _ => exact changeConnection_linked h fun _ _ _ => rfl
    | _ => exact .same ()

section Ends

variable {scope : Scope H} {scope' : Scope H'} (h : scope.Linked M G scope')
  (hs : M.Same scope.statement scope'.statement)

include h hs

theorem finish_linked {program program' : Program} (hprogram : program.Same M.Same program')
    (before : Before) (fault : Option Fault) :
    Linked (Matched M G) Eq (finish scope program before fault)
      (finish scope' program' before fault) :=
  (endStatement_linked h hs hprogram before fault).bind_same fun _ => halt_linked hs _

/-- Queries deliver the same rows and end alike. -/
theorem advance_linked {program program' : Program} (hprogram : program.Same M.Same program')
    {c c' : Cursor} (hc : c.Same M.Same c') :
    Linked (Matched M G) Eq (advance scope program c) (advance scope' program' c') := by
  unfold advance
  refine Linked.bind (Cursor.next_linked h hs fuel hc) fun result result' hresult => ?_
  cases hresult with
  | error fault => exact finish_linked h hs hprogram _ _
  | ok hx =>
    cases hx with
    | none => exact finish_linked h hs hprogram _ _
    | @some p p' hrow =>
      obtain ⟨r, d⟩ := p
      obtain ⟨r', d'⟩ := p'
      obtain ⟨hr, hd⟩ := hrow
      cases hr
      refine (modifyStatement_linked hs fun t t' ht => ?_).bind_same fun _ => .same _
      cases ht with
      | mk t hc hp _ => exact .mk { t with phase := .running, row := r } hc hp hd

/-- Changes of rows end alike. -/
theorem runRowChange_linked {program program' : Program} (hprogram : program.Same M.Same program')
    {t t' : Target} (ht : t.Same M.Same t') {change change' : RowChange}
    (hchange : change.Same M.Same change') :
    Linked (Matched M G) Eq (runRowChange scope program t change)
      (runRowChange scope' program' t' change') := by
  have hmany : change.isMany = change'.isMany := by
    cases hchange with
    | insert hp _ _ => cases hp <;> rfl
    | _ => rfl
  unfold runRowChange
  refine (connection?_linked h.connection).bind fun c? c?' hc => ?_
  rw [hmany, draft_same hc]
  refine (applyRowChange_linked h hs ht hchange).bind_same fun r => ?_
  refine (endStatement_linked h hs hprogram _ r.2).bind_same fun r' => ?_
  exact (countChanges_linked h.connection hprogram _).bind_same fun _ => halt_linked hs _

theorem runTableChange_linked {program program' : Program}
    (hprogram : program.Same M.Same program') (change : TableChange) :
    Linked (Matched M G) Eq (runTableChange scope program change)
      (runTableChange scope' program' change) := by
  unfold runTableChange
  refine (connection?_linked h.connection).bind fun c? c?' hc => ?_
  rw [draft_same hc]
  refine Linked.bind (applyTableChange_linked h hs change) fun result result' hresult => ?_
  cases hresult with
  | ok _ => exact finish_linked h hs hprogram _ _
  | error fault =>
    exact (forgetCatalog_linked h.connection).bind_same fun _ => finish_linked h hs hprogram _ _

/-! ## Transactions -/

theorem othersWrite_linked :
    LinkedRun (Matched M G) Eq (othersWrite scope) (othersWrite scope') := by
  unfold othersWrite
  refine (LinkedRun.lift (otherUsers_linked h.apart h.connection hs)).bind fun others others' hothers => ?_
  refine .pure (forall₂_any hothers fun t t' ht => ?_)
  cases ht with
  | mk _ _ hp _ =>
    cases hp
    rfl

theorem commitTransaction_linked :
    Linked (Matched M G) Eq (commitTransaction scope) (commitTransaction scope') := by
  unfold commitTransaction
  refine Linked.bind (othersWrite_linked h hs) fun result result' hresult => ?_
  cases hresult.eq
  split
  · refine Linked.bind (commitDraft_linked h) fun result result' hresult => ?_
    cases hresult.eq
    split
    · exact block_linked hs _
    · exact (closeTransaction_linked h.connection).bind_same fun _ =>
        (endTransaction_linked h.apart h.connection hs).bind_same fun _ => halt_linked hs _
  · exact halt_linked hs _

theorem beginTransaction_linked (mode : Sql.BeginMode) :
    Linked (Matched M G) Eq (beginTransaction scope mode) (beginTransaction scope' mode) := by
  unfold beginTransaction
  refine (connection?_linked h.connection).bind fun c? c?' hc => ?_
  have hreadOnly : c?.map (·.readOnly) = c?'.map (·.readOnly) := map_same hc fun _ _ _ => rfl
  have hautocommit : c?.map (·.autocommit) = c?'.map (·.autocommit) := map_same hc fun _ _ _ => rfl
  dsimp only
  rw [hreadOnly, hautocommit]
  refine Linked.bind (claim_linked h _ _) fun result result' hresult => ?_
  cases hresult with
  | error fault => exact .ite (block_linked hs _) (halt_linked hs _)
  | ok _ =>
    refine .ite ?_ (halt_linked hs _)
    exact (changeConnection_linked h.connection fun _ _ _ => rfl).bind_same fun _ => halt_linked hs _

/-- Steps of explicit transactions end alike. -/
theorem runTransaction_linked {action action' : Action} (haction : action.Same M.Same action') :
    Linked (Matched M G) Eq (runTransaction scope action) (runTransaction scope' action') := by
  have hothers {A : Progress → Progress → Prop} {f : Except Fault Bool → StateM (World H) Progress}
      {g : Except Fault Bool → StateM (World H') Progress}
      (hfg : ∀ result, Linked (Matched M G) A (f result) (g result)) :
      Linked (Matched M G) A ((othersWrite scope).run >>= f) ((othersWrite scope').run >>= g) :=
    Linked.bind (othersWrite_linked h hs) fun result result' hresult => hresult.eq ▸ hfg result
  unfold runTransaction
  refine (connection?_linked h.connection).bind fun c? c?' hc => ?_
  cases hc with
  | none => exact halt_linked hs _
  | some hc =>
    cases hc with
    | mk c _ _ =>
      cases haction with
      | begin mode => exact beginTransaction_linked h hs mode
      | commit => exact .ite (halt_linked hs _) (commitTransaction_linked h hs)
      | rollback =>
        refine .ite (halt_linked hs _) ((closeTransaction_linked h.connection).bind_same fun _ => ?_)
        exact (undoAll_linked h.apart h.connection hs true).bind_same fun _ => halt_linked hs _
      | savepoint name =>
        refine hothers fun result => ?_
        split
        · exact (changeConnection_linked h.connection fun _ _ _ => rfl).bind_same fun _ =>
            halt_linked hs _
        · exact halt_linked hs _
      | release name =>
        dsimp only
        split
        · exact halt_linked hs _
        · refine hothers fun result => ?_
          split
          · refine .ite (commitTransaction_linked h hs) ?_
            exact (changeConnection_linked h.connection fun _ _ _ => rfl).bind_same fun _ =>
              halt_linked hs _
          · exact halt_linked hs _
      | rollbackTo name =>
        dsimp only
        split
        · exact halt_linked hs _
        next i _ =>
          have hback := (returnTo_linked (G := G) h.connection i).bind_same fun _ => halt_linked hs none
          exact (tripStatements_linked h.apart h.connection hs _).bind_same fun _ =>
            .ite ((expireStatements_linked h.apart h.connection).bind_same fun _ =>
              (forgetCatalog_linked h.connection).bind_same fun _ => hback) hback
      | _ => exact halt_linked hs _

/-! ## Beginning a statement -/

omit hs in
theorem isCurrent_linked {program program' : Program} (hprogram : program.Same M.Same program') :
    LinkedRun (Matched M G) Eq (isCurrent scope program) (isCurrent scope' program') := by
  unfold isCurrent
  rw [hprogram.claims]
  cases hprogram with
  | mk p _ =>
    dsimp only
    split
    · exact .same true
    · exact .same true
    · exact (currentDatabase_linked h.connection).bind_same fun db => .same _

omit hs in
theorem enter_linked {program program' : Program} (hprogram : program.Same M.Same program') :
    LinkedRun (Matched M G) Eq (enter scope program) (enter scope' program') := by
  unfold enter
  rw [hprogram.claims]
  exact (checkInterrupt_linked h).bind_same fun _ => (claim_linked h _ false).bind_same fun _ =>
    isCurrent_linked h hprogram

/-- Statements begin alike. -/
theorem beginStatement_linked {program program' : Program}
    (hprogram : program.Same M.Same program') :
    Linked (Matched M G) Eq (beginStatement scope program) (beginStatement scope' program') := by
  have hdone {x : StateM (World H) Progress} {y : StateM (World H') Progress}
      (hxy : Linked (Matched M G) Eq x y) :
      Linked (Matched M G) Eq (do return Begun.progress (← x)) (do return Begun.progress (← y)) :=
    hxy.bind_same fun p => .same _
  have hrun := fun {action action' : Action} (haction : action.Same M.Same action') =>
    hdone (runTransaction_linked (G := G) h hs haction)
  unfold beginStatement
  refine (resetAsked_linked h.connection).bind_same fun _ =>
    (changeStatement_linked hs fun _ _ _ _ => rfl).bind_same fun _ => ?_
  refine Linked.bind (enter_linked h hprogram) fun result result' hresult => ?_
  cases hresult.eq
  split
  · refine .ite (hdone (block_linked hs _)) ?_
    exact (countChanges_linked h.connection hprogram 0).bind_same fun _ =>
      hdone (finish_linked h hs hprogram _ _)
  · exact (finish_linked h hs hprogram _ _).bind_same fun _ =>
      (forgetCatalog_linked h.connection).bind_same fun _ => .same _
  · have hprogram' := hprogram
    cases hprogram with
    | mk p ha =>
      cases ha with
      | query hp => exact hdone (advance_linked h hs hprogram' (.idle hp))
      | changeRows ht hc => exact hdone (runRowChange_linked h hs hprogram' ht hc)
      | changeTables change => exact hdone (runTableChange_linked h hs hprogram' change)
      | nothing => exact hdone (finish_linked h hs hprogram' _ _)
      | begin mode => exact hrun (.begin mode)
      | commit => exact hrun .commit
      | rollback => exact hrun .rollback
      | savepoint name => exact hrun (.savepoint name)
      | release name => exact hrun (.release name)
      | rollbackTo name => exact hrun (.rollbackTo name)

theorem recompile_linked (text : List Char) :
    Linked (Matched M G) Eq (recompile scope text) (recompile scope' text) := by
  unfold recompile
  refine Linked.bind (compileText_linked h text) fun result result' hresult => ?_
  refine (resetAsked_linked h.connection).bind_same fun _ => ?_
  cases hresult with
  | error fault => exact .same _
  | @ok r r' hr =>
    obtain ⟨program?, stop⟩ := r
    obtain ⟨program?', stop'⟩ := r'
    obtain ⟨hprogram, hstop⟩ := hr
    cases hprogram with
    | none => exact .same none
    | some hp =>
      refine (modifyStatement_linked hs fun t t' ht => ?_).bind_same fun _ => .same none
      cases ht with
      | mk t hc _ hu => exact .mk { t with expired := false } hc hp hu

theorem refresh_linked {s s' : Statement} (hstatement : s.Same M.Same s') :
    Linked (Matched M G) Eq (refresh scope s) (refresh scope' s') := by
  cases hstatement with
  | mk s _ _ _ => exact .ite (recompile_linked h hs _) (.same none)

/-- Statements begin alike, however often they are compiled again. -/
theorem beginCurrent_linked (left : Nat) :
    Linked (Matched M G) Eq (beginCurrent scope left) (beginCurrent scope' left) := by
  induction left with
  | zero => exact .same _
  | succ left ih =>
    unfold beginCurrent
    refine .get_bind fun w w' hw => ?_
    have hfound := statement?_linked hs hw
    revert hfound
    generalize w.statements.get? _ = x
    generalize w'.statements.get? _ = y
    intro hfound
    cases hfound with
    | none => exact .same _
    | @some s s' hstatement =>
      refine (refresh_linked h hs hstatement).bind_same fun fault? => ?_
      cases fault? with
      | some fault => exact halt_linked hs _
      | none =>
        refine (settleInterrupt_linked h.apart h.connection).bind_same fun _ =>
          .get_bind fun w w' hw => ?_
        have hprogram (t t' : Statement) (ht : t.Same M.Same t') :
            t.program.Same M.Same t'.program := by
          cases ht with
          | mk _ _ hp _ => exact hp
        have hprogram' := rel_getD (rel_map (statement?_linked hs hw) hprogram)
          (hprogram s s' hstatement)
        refine (beginStatement_linked h hs hprogram').bind_same fun begun => ?_
        cases begun with
        | progress p => exact .same p
        | outdated => exact (changeStatement_linked hs fun _ _ _ _ => rfl).bind_same fun _ => ih

end Ends

/-! ## Steps -/

section Steps

variable {hooks : Hooks H} {hooks' : Hooks H'} (hapart : M.Apart) (hhooks : hooks.Linked M G hooks')
  {s s' : Nat} (hs : M.Same s s')

include hapart hhooks hs

/-- A step of matched statements ends in the same way. -/
theorem step_linked : Linked (Matched M G) Eq (step hooks s) (step hooks' s') := by
  unfold step
  refine .get_bind fun w w' hw => ?_
  have hfound := statement?_linked hs hw
  revert hfound
  generalize w.statements.get? s = x
  generalize w'.statements.get? s' = y
  intro hfound
  cases hfound with
  | none => exact .same _
  | some hstatement =>
    cases hstatement with
    | @mk t c c' p p' u u' hc hp hu =>
      have hscope : Scope.Linked M G ⟨c, s, hooks⟩ ⟨c', s', hooks'⟩ := ⟨hc, hhooks, hapart⟩
      dsimp only
      cases t.phase with
      | ready => exact beginCurrent_linked hscope hs _
      | halted => exact beginCurrent_linked hscope hs _
      | blocked =>
        refine (beginStatement_linked hscope hs hp).bind_same fun begun => ?_
        cases begun with
        | progress p => exact .same p
        | outdated =>
          exact (changeStatement_linked hs fun _ _ _ _ => rfl).bind_same fun _ =>
            beginCurrent_linked hscope hs _
      | running =>
        refine (resetAsked_linked hc).bind_same fun _ =>
          Linked.bind (checkInterrupt_linked hscope) fun result result' hresult => ?_
        cases hresult with
        | error fault => exact finish_linked hscope hs hp _ _
        | ok _ => exact advance_linked hscope hs hp hu

/-- Matched statements are released with the same failure. -/
theorem finalize_linked : Linked (Matched M G) Eq (finalize hooks s) (finalize hooks' s') := by
  unfold finalize
  refine .get_bind fun w w' hw => ?_
  have hfound := statement?_linked hs hw
  revert hfound
  generalize w.statements.get? s = x
  generalize w'.statements.get? s' = y
  intro hfound
  cases hfound with
  | none => exact .same _
  | some hstatement =>
    cases hstatement with
    | @mk t c c' p p' u u' hc hp hu =>
      have hscope : Scope.Linked M G ⟨c, s, hooks⟩ ⟨c', s', hooks'⟩ := ⟨hc, hhooks, hapart⟩
      have herase : Linked (Matched M G) Eq
          (modify fun w : World H => { w with statements := Assoc.erase w.statements s })
          (modify fun w : World H' => { w with statements := Assoc.erase w.statements s' }) :=
        .change fun w w' hw => { hw with statements := hw.statements.erase M.oneToOne hs }
      have hrelease := herase.bind_same fun _ => Linked.same t.failure
      exact .ite ((endStatement_linked hscope hs hp _ _).bind_same fun _ =>
        (countChanges_linked hc hp 0).bind_same fun _ => hrelease) hrelease

theorem runToEnd_linked (left : Nat) :
    Linked (Matched M G) Eq (runToEnd hooks s left) (runToEnd hooks' s' left) := by
  induction left with
  | zero => exact .same ()
  | succ left ih =>
    unfold runToEnd
    refine (step_linked hapart hhooks hs).bind_same fun p => ?_
    split
    · exact ih
    · exact .same ()

omit hs

theorem executeAll_linked {k l : Nat} (h : M.Same k l) (left : Nat) (text : List Char) :
    Linked (Matched M G) Eq (executeAll hooks k left text) (executeAll hooks' l left text) := by
  induction left generalizing text with
  | zero => exact .same none
  | succ left ih =>
    unfold executeAll
    refine .ite (.same none) ((prepare_linked hapart hhooks h text).bind fun result result' hresult => ?_)
    cases hresult with
    | error fault => exact .same _
    | @ok r r' hr =>
      obtain ⟨n?, stop⟩ := r
      obtain ⟨n?', stop'⟩ := r'
      obtain ⟨hn, hstop⟩ := hr
      cases hstop
      cases hn with
      | none => exact ih _
      | some hn =>
        refine (runToEnd_linked hapart hhooks hn _).bind_same fun _ =>
          (finalize_linked hapart hhooks hn).bind_same fun fault? => ?_
        cases fault? with
        | some fault => exact .same _
        | none => exact ih _

/-- A whole text is executed alike. -/
theorem execute_linked {k l : Nat} (h : M.Same k l) (text : List Char) :
    Linked (Matched M G) Eq (execute hooks k text) (execute hooks' l text) :=
  executeAll_linked hapart hhooks h _ _

end Steps

end HostSql.Engine
