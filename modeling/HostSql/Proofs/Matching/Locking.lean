import HostSql.Engine.Prepare
import HostSql.Proofs.Matching.Commands
import HostSql.Proofs.Matching.Evaluating

/-!
# Locks, transactions and compilation go alike

Whom a connection meets at its volume is matched with it, since the rests of the worlds use other
volumes. So claims succeed or fail alike, transactions end alike, and what is compiled is the same but
for numbers: `claim_linked`, `endStatement_linked`, `prepare_linked`.
-/

namespace HostSql.Engine

variable {H H' : Type} {M : Matching} {G : H → H' → Prop} {k l : Nat}

/-! ## Changes of the world -/

theorem expireStatements_linked (hapart : M.Apart) (h : M.Same k l) :
    Linked (Matched M G) Eq (expireStatements k) (expireStatements l) := by
  refine modifyStatements_linked
    (f := fun _ s => if s.connection = k then { s with expired := true } else s)
    (g := fun _ s => if s.connection = l then { s with expired := true } else s)
    hapart h (fun _ _ s s' _ hs => ?_) (fun _ s hne => if_neg hne) fun _ s hne => if_neg hne
  simp only [hs.connection_iff h]
  split
  · cases hs with
    | mk s hc hp hu => exact .mk { s with expired := true } hc hp hu
  · exact hs

theorem forgetCatalog_linked (h : M.Same k l) :
    Linked (Matched M G) Eq (forgetCatalog k) (forgetCatalog l) :=
  changeConnection_linked h fun _ _ _ => rfl

theorem resetAsked_linked (h : M.Same k l) :
    Linked (Matched M G) Eq (resetAsked k) (resetAsked l) :=
  changeConnection_linked h fun _ _ _ => rfl

theorem closeTransaction_linked (h : M.Same k l) :
    Linked (Matched M G) Eq (closeTransaction k) (closeTransaction l) :=
  changeConnection_linked h fun _ _ _ => rfl

theorem Program.Same.isTransaction {p p' : Program} (h : p.Same M.Same p') :
    p.action.isTransaction = p'.action.isTransaction := by
  cases h with
  | mk p ha => cases ha <;> rfl

theorem Program.Same.usesVolume {p p' : Program} (h : p.Same M.Same p') :
    p.usesVolume = p'.usesVolume := by
  have htransaction := h.isTransaction
  unfold Program.usesVolume
  rw [htransaction]
  cases h with
  | mk p _ => rfl

theorem Program.Same.claims {p p' : Program} (h : p.Same M.Same p') : p.claims = p'.claims := by
  have htransaction := h.isTransaction
  unfold Program.claims
  rw [htransaction]
  cases h with
  | mk p _ => rfl

theorem otherUsers_linked (hapart : M.Apart) (h : M.Same k l) {s s' : Nat} (hs : M.Same s s') :
    Linked (Matched M G) (List.Forall₂ (Statement.Same M.Same)) (otherUsers k s)
      (otherUsers l s') := by
  unfold otherUsers
  refine .get_bind fun w w' hw => .pure (List.rel_filterMap (fun e e' he => ?_) (active_same hapart h hw))
  obtain ⟨n, t⟩ := e
  obtain ⟨n', t'⟩ := e'
  obtain ⟨hn, ht⟩ := he
  have hne : (n != s) = (n' != s') := congrArg not (Aligned.beq_iff M.oneToOne hs hn)
  have huses : t.program.usesVolume = t'.program.usesVolume := by
    cases ht with
    | mk _ _ hp _ => exact hp.usesVolume
  dsimp only
  rw [hne, huses]
  split
  · exact .some ht
  · exact .none

theorem endTransaction_linked (hapart : M.Apart) (h : M.Same k l) {s s' : Nat} (hs : M.Same s s') :
    Linked (Matched M G) Eq (endTransaction k s) (endTransaction l s') := by
  unfold endTransaction
  refine (otherUsers_linked hapart h hs).bind fun users users' husers => ?_
  rw [forall₂_isEmpty husers]
  exact changeConnection_linked h fun _ _ _ => rfl

/-! ## Locks -/

theorem setLock_linked (h : M.Same k l) (lock : Lock) :
    LinkedRun (Matched M G) Eq (setLock k lock) (setLock l lock) :=
  .lift (changeConnection_linked h fun _ _ _ => rfl)

/-- Nobody in the rests of the worlds is met at a matched volume. -/
theorem rivalLocks_linked (hapart : M.Apart) (h : M.Same k l) {v v' : Nat} (hv : M.Same v v') :
    LinkedRun (Matched M G) Eq (rivalLocks k v) (rivalLocks l v') := by
  unfold rivalLocks
  refine .get_bind fun w w' hw => .pure (List.forall₂_eq_eq_eq ▸ hw.connections.filterMap ?_ ?_ ?_)
  · intro n n' c c' hn hc
    have hne : (n != k) = (n' != l) := congrArg not (Aligned.beq_iff M.oneToOne h hn)
    cases hc with
    | @mk c u u' _ _ hu _ =>
      have hvolume : (u = v) = (u' = v') := by
        refine propext ⟨fun heq => ?_, fun heq => ?_⟩
        · exact M.oneToOne.right (heq ▸ hu) hv
        · exact M.oneToOne.left (heq ▸ hu) hv
      simp only [hne, hvolume]
      split
      · exact .some rfl
      · exact .none
  · intro e he
    have hne : e.2.volume ≠ v := fun heq => hapart.volume e he v' (heq ▸ hv)
    simp [hne]
  · intro e he
    have hne : e.2.volume ≠ v' := fun heq => hapart.volume' e he v (heq ▸ hv)
    simp [hne]

section Claims

variable {scope : Scope H} {scope' : Scope H'} (h : scope.Linked M G scope')

include h

theorem askHost_linked : LinkedRun (Matched M G) Eq (askHost scope) (askHost scope') := by
  unfold askHost
  refine (connectionOf_linked h.connection).bind fun c c' hc => ?_
  cases hc with
  | mk c _ _ =>
    dsimp only
    split
    · exact (LinkedRun.lift (h.hooks.busy h.connection _)).bind_same fun again =>
        (LinkedRun.lift (changeConnection_linked h.connection fun _ _ _ => rfl)).bind_same
          fun _ => .same again
    · exact .same false

theorem lockShared_linked (fuel : Nat) :
    LinkedRun (Matched M G) Eq (lockShared scope fuel) (lockShared scope' fuel) := by
  induction fuel with
  | zero => exact .throw _
  | succ fuel ih =>
    unfold lockShared
    refine (connectionOf_linked h.connection).bind fun c c' hc => ?_
    cases hc with
    | mk c hv _ =>
      refine .ite (.same ()) ((rivalLocks_linked h.apart h.connection hv).bind_same fun rivals => ?_)
      refine .ite (setLock_linked h.connection _) ((askHost_linked h).bind_same fun again => ?_)
      exact .ite ih (.throw _)

theorem lockExclusive_linked (fuel : Nat) :
    LinkedRun (Matched M G) Eq (lockExclusive scope fuel) (lockExclusive scope' fuel) := by
  induction fuel with
  | zero => exact .throw _
  | succ fuel ih =>
    unfold lockExclusive
    refine (connectionOf_linked h.connection).bind fun c c' hc => ?_
    cases hc with
    | mk c hv _ =>
      refine .ite (.same ()) ((rivalLocks_linked h.apart h.connection hv).bind_same fun rivals => ?_)
      refine .ite (setLock_linked h.connection _)
        ((setLock_linked h.connection _).bind_same fun _ => ?_)
      exact (askHost_linked h).bind_same fun again => .ite ih (.throw _)

omit h in
/-- Taking a reserved volume alone, or giving back what has been claimed. -/
theorem takeAlone_linked (alone : Bool) {x : Run H Unit} {x' : Run H' Unit}
    (hx : LinkedRun (Matched M G) Eq x x') {release : Run H Unit} {release' : Run H' Unit}
    (hrelease : LinkedRun (Matched M G) Eq release release') :
    LinkedRun (Matched M G) Eq
      (do
        if alone then
          match ← attempt x with
          | .ok _ => return
          | .error fault =>
            release
            throw fault)
      (do
        if alone then
          match ← attempt x' with
          | .ok _ => return
          | .error fault =>
            release'
            throw fault) := by
  refine .ite (hx.attempt.bind fun result result' hresult => ?_) (.same ())
  cases hresult with
  | ok _ => exact .same ()
  | error fault => exact hrelease.bind_same fun _ => .throw fault

theorem lockReserved_linked (alone : Bool) (fuel : Nat) :
    LinkedRun (Matched M G) Eq (lockReserved scope alone fuel) (lockReserved scope' alone fuel) := by
  induction fuel with
  | zero => exact .throw _
  | succ fuel ih =>
    unfold lockReserved
    refine (connectionOf_linked h.connection).bind fun before before' hbefore => ?_
    cases hbefore with
    | mk before _ _ =>
      -- a shared lock that was taken on the way is given back
      have hrelease : LinkedRun (Matched M G) Eq
          (if before.lock = .none then setLock (H := H) scope.connection .none else pure ())
          (if before.lock = .none then setLock (H := H') scope'.connection .none else pure ()) :=
        .ite (setLock_linked h.connection _) (.same ())
      have halone (alone : Bool) := takeAlone_linked alone (lockExclusive_linked h fuel) hrelease
      have hgiveUp (alone : Bool) := (LinkedRun.throw (R := Matched M G) (A := @Eq PUnit) Fault.busy).bind_same
        fun _ => halone alone
      refine (lockShared_linked h fuel).bind_same fun _ =>
        (connectionOf_linked h.connection).bind fun c c' hc => ?_
      cases hc with
      | mk c hv _ =>
        refine .ite ((rivalLocks_linked h.apart h.connection hv).bind_same fun rivals => ?_) (halone _)
        refine .ite ((setLock_linked h.connection _).bind_same fun _ => halone _)
          (hrelease.bind_same fun _ => ?_)
        refine .ite ((askHost_linked h).bind_same fun again => ?_) (hgiveUp _)
        exact .ite ih (hgiveUp _)

end Claims

/-! ## The draft and the catalog -/

theorem writeDatabase_linked (h : M.Same k l) (f : Database → Database) :
    LinkedRun (Matched M G) Eq (writeDatabase k f) (writeDatabase l f) := by
  unfold writeDatabase
  exact (currentDatabase_linked h).bind_same fun db =>
    .lift (changeConnection_linked h fun _ _ _ => rfl)

/-- Giving back a lock that was taken only to read the catalog. -/
theorem giveBack_linked {α α' : Type} {A : α → α' → Prop} (h : M.Same k l) (lock : Lock)
    {x : Run H α} {x' : Run H' α'} (hx : LinkedRun (Matched M G) A x x') :
    LinkedRun (Matched M G) A
      (do
        if lock = .none then setLock (H := H) k .none
        x)
      (do
        if lock = .none then setLock (H := H') l .none
        x') :=
  .ite ((setLock_linked h _).bind_same fun _ => hx) hx

section Catalogs

variable {scope : Scope H} {scope' : Scope H'} (h : scope.Linked M G scope')

include h

theorem claim_linked (access : Access) (alone : Bool) :
    LinkedRun (Matched M G) Eq (claim scope access alone) (claim scope' access alone) := by
  unfold claim
  cases access with
  | none => exact .same ()
  | read =>
    exact (lockShared_linked h _).bind_same fun _ =>
      (currentDatabase_linked h.connection).bind_same fun _ => .same _
  | write =>
    refine (connectionOf_linked h.connection).bind fun c c' hc => ?_
    cases hc with
    | mk c _ _ =>
      exact .guard _ ((lockReserved_linked h alone maxAttempts).bind_same fun _ =>
        writeDatabase_linked h.connection id)

theorem catalogOf_linked : LinkedRun (Matched M G) Eq (catalogOf scope) (catalogOf scope') := by
  unfold catalogOf
  refine (connectionOf_linked h.connection).bind fun c c' hc => ?_
  cases hc with
  | mk c _ _ =>
    dsimp only
    cases c.catalog with
    | some catalog => exact .same catalog
    | none =>
      refine (lockShared_linked h _).bind_same fun _ => ?_
      refine (currentDatabase_linked h.connection).attempt.bind fun result result' hresult => ?_
      refine giveBack_linked h.connection c.lock ((LinkedRun.ofExcept hresult).bind_same fun db => ?_)
      cases Catalog.read db with
      | error message => exact .throw _
      | ok catalog =>
        exact (LinkedRun.lift (changeConnection_linked h.connection fun _ _ _ => rfl)).bind_same
          fun _ => .same catalog

theorem catalogIsCurrent_linked :
    LinkedRun (Matched M G) Eq (catalogIsCurrent scope) (catalogIsCurrent scope') := by
  unfold catalogIsCurrent
  refine (connectionOf_linked h.connection).bind fun c c' hc => ?_
  cases hc with
  | mk c _ _ =>
    dsimp only
    cases c.catalog with
    | none => exact .same true
    | some catalog =>
      refine (lockShared_linked h _).attempt.bind fun claimed claimed' hclaimed => ?_
      cases hclaimed with
      | error _ => exact .same true
      | ok _ =>
        refine (currentDatabase_linked h.connection).attempt.bind fun result result' hresult => ?_
        refine giveBack_linked h.connection c.lock ?_
        cases hresult with
        | ok heq =>
          subst heq
          exact .same _
        | error _ => exact .same true

end Catalogs

/-! ## The end of a transaction -/

theorem tripStatements_linked (hapart : M.Apart) (h : M.Same k l) {s s' : Nat} (hs : M.Same s s')
    (changed : Bool) :
    Linked (Matched M G) Eq (tripStatements k s changed) (tripStatements l s' changed) := by
  refine modifyStatements_linked
    (f := fun n t => if t.connection = k && n != s && (changed || t.program.access = .write)
      then { t with tripped := true } else t)
    (g := fun n t => if t.connection = l && n != s' && (changed || t.program.access = .write)
      then { t with tripped := true } else t)
    hapart h (fun n n' t t' hn ht => ?_) (fun _ t hne => ?_) fun _ t hne => ?_
  · have hne : (n != s) = (n' != s') := congrArg not (Aligned.beq_iff M.oneToOne hs hn)
    have hconnection := ht.connection_iff h
    cases ht with
    | mk t hc hp hu =>
      cases hp with
      | mk p ha =>
        simp only [hne, hconnection]
        split
        · exact .mk { t with tripped := true } hc (.mk p ha) hu
        · exact .mk t hc (.mk p ha) hu
  · simp [hne]
  · simp [hne]

theorem undoAll_linked (hapart : M.Apart) (h : M.Same k l) {s s' : Nat} (hs : M.Same s s')
    (trip : Bool) :
    Linked (Matched M G) Eq (undoAll k s trip) (undoAll l s' trip) := by
  unfold undoAll
  refine (connection?_linked h).bind fun c? c?' hc => ?_
  have hchanged : c?.map (·.catalogChanged) = c?'.map (·.catalogChanged) :=
    map_same hc fun _ _ _ => rfl
  dsimp only
  rw [hchanged]
  have hend : Linked (Matched M G) Eq
      (do
        if (c?'.map (·.catalogChanged)).getD false then
          expireStatements (H := H) k
          forgetCatalog k
        endTransaction k s)
      (do
        if (c?'.map (·.catalogChanged)).getD false then
          expireStatements (H := H') l
          forgetCatalog l
        endTransaction l s') :=
    .ite ((expireStatements_linked hapart h).bind_same fun _ => (forgetCatalog_linked h).bind_same fun _ =>
      endTransaction_linked hapart h hs) (endTransaction_linked hapart h hs)
  exact .ite ((tripStatements_linked hapart h hs _).bind_same fun _ => hend) hend

theorem commitDraft_linked {scope : Scope H} {scope' : Scope H'} (h : scope.Linked M G scope') :
    LinkedRun (Matched M G) Eq (commitDraft scope) (commitDraft scope') := by
  unfold commitDraft
  refine (connectionOf_linked h.connection).bind fun c c' hc => ?_
  cases hc with
  | mk c hv _ =>
    dsimp only
    cases c.draft with
    | none => exact .same ()
    | some _ =>
      refine (lockExclusive_linked h _).bind_same fun _ =>
        (connectionOf_linked h.connection).bind fun d d' hd => ?_
      cases hd with
      | mk d _ _ =>
        dsimp only
        cases d.draft with
        | none => exact .same ()
        | some db =>
          refine .lift (.change fun w w' hw => { hw with volumes := ?_ })
          refine Aligned.update (f := fun v => { v with content := .database db })
            (g := fun v => { v with content := .database db }) hw.volumes M.oneToOne hv ?_
          rintro v _ ⟨rfl, hpath⟩
          exact ⟨rfl, hpath⟩

/-- A statement ends alike. -/
theorem endStatement_linked {scope : Scope H} {scope' : Scope H'} (h : scope.Linked M G scope')
    (hs : M.Same scope.statement scope'.statement) {program program' : Program}
    (hprogram : program.Same M.Same program') (before : Before) (failure : Option Fault) :
    Linked (Matched M G) Eq (endStatement scope program before failure)
      (endStatement scope' program' before failure) := by
  cases hprogram with
  | mk program _ =>
    unfold endStatement
    refine .ite (.same _) ((connection?_linked h.connection).bind fun c? c?' hc => ?_)
    have hautocommit : c?.map (·.autocommit) = c?'.map (·.autocommit) :=
      map_same hc fun _ _ _ => rfl
    -- the work is undone, and the transaction may go on or may not
    have hundo (trip : Bool) (x : Option Fault × Bool) : Linked (Matched M G) Eq
        (do
          undoAll (H := H) scope.connection scope.statement trip
          return x)
        (do
          undoAll (H := H') scope'.connection scope'.statement trip
          return x) :=
      (undoAll_linked h.apart h.connection hs trip).bind_same fun _ => .same x
    have hclose (x : Option Fault × Bool) : Linked (Matched M G) Eq
        (do
          undoAll (H := H) scope.connection scope.statement true
          closeTransaction scope.connection
          return x)
        (do
          undoAll (H := H') scope'.connection scope'.statement true
          closeTransaction scope'.connection
          return x) :=
      (undoAll_linked h.apart h.connection hs true).bind_same fun _ =>
        (closeTransaction_linked h.connection).bind_same fun _ => .same x
    refine .ite (hclose _) ((otherUsers_linked h.apart h.connection hs).bind
      fun others others' hothers => ?_)
    have hwriters : (others.any fun t => decide (t.program.access = .write))
        = others'.any fun t => decide (t.program.access = .write) := by
      refine forall₂_any hothers fun t t' ht => ?_
      cases ht with
      | mk _ _ hp _ =>
        cases hp
        rfl
    dsimp only
    rw [hautocommit, hwriters]
    refine .ite (.ite (Linked.bind (commitDraft_linked h) fun result result' hresult => ?_) (hundo false _)) ?_
    · cases hresult with
      | ok _ => exact (endTransaction_linked h.apart h.connection hs).bind_same fun _ => .same _
      | error fault => exact hundo false _
    · refine .ite (.same _) (.ite (hclose _) ?_)
      exact .ite ((changeConnection_linked h.connection fun _ _ _ => rfl).bind_same fun _ => .same _)
        (.same _)

/-! ## Compilation -/

theorem settleInterrupt_linked (hapart : M.Apart) (h : M.Same k l) :
    Linked (Matched M G) Eq (settleInterrupt k) (settleInterrupt l) := by
  unfold settleInterrupt
  refine .get_bind fun w w' hw => ?_
  rw [isActive_same hapart h hw]
  exact .ite (changeConnection_linked h fun _ _ _ => rfl) (.same ())

theorem applySetting_linked (hapart : M.Apart) (h : M.Same k l) (command : Sql.Command) :
    Linked (Matched M G) Eq (applySetting k command) (applySetting l command) := by
  unfold applySetting
  split
  · exact .ite ((expireStatements_linked hapart h).bind_same fun _ =>
      changeConnection_linked h fun _ _ _ => rfl) (.same ())
  · exact .same ()

section Compiling

variable {scope : Scope H} {scope' : Scope H'} (h : scope.Linked M G scope')

include h

theorem compileWithCatalog_linked (command : Sql.Command) (left : Nat) :
    LinkedRun (Matched M G) (Program.Same M.Same) (compileWithCatalog scope command left)
      (compileWithCatalog scope' command left) := by
  induction left with
  | zero => exact .throw _
  | succ left ih =>
    unfold compileWithCatalog
    refine (connectionOf_linked h.connection).bind fun c c' hc => ?_
    cases hc with
    | @mk c _ _ fs fs' _ hfs =>
      have hcompiled := compileCommand_same M.oneToOne
        (.mk ⟨[], c.catalog, c.writableCatalog⟩ hfs) command
      dsimp only at hcompiled ⊢
      revert hcompiled
      generalize compileCommand ⟨fs, _, _⟩ command = x
      generalize compileCommand ⟨fs', _, _⟩ command = y
      intro hcompiled
      cases hcompiled with
      | ok hp => exact .pure hp
      | error fault =>
        refine .ite (.ite ((catalogOf_linked h).bind_same fun _ => ih) (.throw fault)) ?_
        refine (catalogIsCurrent_linked h).bind_same fun isCurrent => .ite (.throw fault) ?_
        exact (LinkedRun.lift (forgetCatalog_linked h.connection)).bind_same fun _ => ih

/-- A text is compiled to the same program but for numbers, of the same length. -/
theorem compileText_linked (text : List Char) :
    LinkedRun (Matched M G) (fun r r' => Option.Rel (Program.Same M.Same) r.1 r'.1 ∧ r.2 = r'.2)
      (compileText scope text) (compileText scope' text) := by
  unfold compileText
  refine (LinkedRun.lift (settleInterrupt_linked h.apart h.connection)).bind_same fun _ =>
    (connectionOf_linked h.connection).bind fun c c' hc => ?_
  cases hc with
  | mk c _ _ =>
    refine .guard _ ?_
    cases Sql.nextCommand text with
    | error e => exact .throw _
    | ok found =>
      dsimp only
      cases found.command? with
      | none => exact .pure ⟨.none, rfl⟩
      | some command =>
        exact (compileWithCatalog_linked h command _).bind fun p p' hp =>
          (LinkedRun.lift (applySetting_linked h.apart h.connection command)).bind_same
            fun _ => .pure ⟨.some hp, rfl⟩

end Compiling

/-- A statement gets numbers that stand for each other. -/
theorem prepare_linked (hapart : M.Apart) {hooks : Hooks H} {hooks' : Hooks H'}
    (hhooks : hooks.Linked M G hooks') (h : M.Same k l) (text : List Char) :
    Linked (Matched M G) (EndAlike fun r r' => Option.Rel M.Same r.1 r'.1 ∧ r.2 = r'.2)
      (prepare hooks k text) (prepare hooks' l text) := by
  have hscope : Scope.Linked M G ⟨k, 0, hooks⟩ ⟨l, 0, hooks'⟩ := ⟨h, hhooks, hapart⟩
  unfold prepare
  refine Linked.bind (compileText_linked hscope text) fun result result' hresult =>
    (resetAsked_linked h).bind_same fun _ => ?_
  cases hresult with
  | error fault => exact .pure (.error fault)
  | @ok r r' hr =>
    obtain ⟨program?, stop⟩ := r
    obtain ⟨program?', stop'⟩ := r'
    obtain ⟨hprogram, hstop⟩ := hr
    cases hstop
    cases hprogram with
    | none => exact .pure (.ok ⟨.none, rfl⟩)
    | @some p p' hp =>
      refine fresh_linked.bind fun n n' hn => Linked.bind_same ?_ fun _ => .pure (.ok ⟨.some hn, rfl⟩)
      refine .change fun w w' hw => { hw with statements := hw.statements.set M.oneToOne hn ?_ }
      exact .mk
        { connection := k, program := p, text := text.take stop, expired := false, phase := .ready,
          cursor := .done, row := [], failure := none, tripped := false } h hp .done

end HostSql.Engine
