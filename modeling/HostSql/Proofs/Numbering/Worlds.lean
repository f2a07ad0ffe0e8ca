import HostSql.Engine.Connect
import HostSql.Proofs.Matching.Commands
import HostSql.Proofs.Numbering.Values
import HostSql.Proofs.Session.Lasting

/-!
# The numbers in a world

Every number that a world holds has been given out: it is below the next one, in whatever table or
value it stands. The engine keeps worlds so (`Numbered`). Its usual changes hold no new numbers, so
what matters are the places where it stores some: where a cursor is put down, where a text is compiled,
and where connections are opened and functions registered.

> `step_numbered`, `prepare_numbered`, `connect_numbered`: the engine holds only numbers that have been
> given out.
-/

namespace HostSql.Engine

variable {H α β : Type}

/-- All numbers in a world have been given out, and so have those below `n`. -/
structure Numbered (G : Nat → H → Prop) (n : Nat) (w : World H) : Prop where
  given : n ≤ w.nextId
  volumes : ∀ e ∈ w.volumes, e.1 < w.nextId
  connections : ∀ e ∈ w.connections, e.1 < w.nextId ∧ e.2.Same (Below w.nextId) e.2
  statements : ∀ e ∈ w.statements, e.1 < w.nextId ∧ e.2.Same (Below w.nextId) e.2
  host : G w.nextId w.host

/-- A computation that keeps worlds numbered and gives an answer of which something is known that
depends on the numbers given out by then. -/
def Gives (G : Nat → H → Prop) (n : Nat) (P : Nat → α → Prop) (x : StateM (World H) α) : Prop :=
  ∀ w, Numbered G n w → Numbered G n (x.run w).2 ∧ P (x.run w).2.nextId (x.run w).1

section Numbers

variable {m n : Nat}

theorem Connection.below_mono {c : Connection} (hmn : m ≤ n) (h : c.Same (Below m) c) :
    c.Same (Below n) c := h.confine (fun _ _ hk _ => hk.mono hmn) h

theorem Statement.below_mono {s : Statement} (hmn : m ≤ n) (h : s.Same (Below m) s) :
    s.Same (Below n) s := h.confine (fun _ _ hk _ => hk.mono hmn) h

theorem Program.below_mono {p : Program} (hmn : m ≤ n) (h : p.Same (Below m) p) :
    p.Same (Below n) p := h.confine (fun _ _ hk _ => hk.mono hmn) h

theorem Cursor.below_mono {c : Cursor} (hmn : m ≤ n) (h : c.Same (Below m) c) :
    c.Same (Below n) c := h.confine (fun _ _ hk _ => hk.mono hmn) h

theorem below_oneToOne : OneToOne (Below n) where
  right h h' := h.1.symm.trans h'.1
  left h h' := h.1.trans h'.1.symm

theorem HostFunction.below_self {f : HostFunction} (h : f.record < n) : f.Same (Below n) f :=
  .mk f (.self h)

/-- A change that leaves the numbers of a connection. -/
theorem Connection.LeavesNumbers.below {f : Connection → Connection}
    (hf : LeavesNumbers f) {c : Connection} (h : c.Same (Below n) c) : (f c).Same (Below n) (f c) := by
  obtain ⟨hvolume, hfunctions⟩ := hf c c.volume c.functions
  refine same_self ?_ ?_
  · rw [hvolume]
    exact h.parts.1
  · rw [hfunctions]
    exact h.parts.2

/-- A change that leaves the numbers of a statement. -/
theorem Statement.LeavesNumbers.below {f : Statement → Statement}
    (hf : LeavesNumbers f) {s : Statement} (h : s.Same (Below n) s) : (f s).Same (Below n) (f s) := by
  obtain ⟨hconnection, hprogram, hcursor⟩ := hf s s.connection s.program s.cursor
  refine same_self ?_ ?_ ?_
  · rw [hconnection]
    exact h.parts.1
  · rw [hprogram]
    exact h.parts.2.1
  · rcases hcursor with heq | heq
    · rw [heq]
      exact h.parts.2.2
    · rw [heq]
      exact .done

end Numbers

section Keeping

variable {G : Nat → H → Prop} {m n : Nat} {w : World H}

theorem Numbered.mono (h : Numbered G n w) (hmn : m ≤ n) : Numbered G m w :=
  { h with given := Nat.le_trans hmn h.given }

theorem Numbered.top (h : Numbered G n w) : Numbered G w.nextId w := { h with given := Nat.le_refl _ }

theorem Numbered.connection (h : Numbered G n w) {c : Nat} {conn : Connection}
    (hconn : w.connections.get? c = some conn) : c < w.nextId ∧ conn.Same (Below w.nextId) conn :=
  h.connections _ (Assoc.mem_of_get? hconn)

theorem Numbered.statement (h : Numbered G n w) {k : Nat} {s : Statement}
    (hs : w.statements.get? k = some s) : k < w.nextId ∧ s.Same (Below w.nextId) s :=
  h.statements _ (Assoc.mem_of_get? hs)

namespace Gives

variable {P : Nat → α → Prop} {Q : Nat → β → Prop}

theorem keeps {x : StateM (World H) α} (h : Gives G n P x) : Keeps (Numbered G n) x :=
  fun w hw => (h w hw).1

theorem of_keeps {x : StateM (World H) α} (h : Keeps (Numbered G n) x) (hP : Returns (∀ n, P n ·) x) :
    Gives G n P x := fun w hw => ⟨h w hw, hP w _⟩

theorem pure {a : α} (h : ∀ m, n ≤ m → P m a) :
    Gives G n P (Pure.pure a : StateM (World H) α) := fun w hw => ⟨hw, h w.nextId hw.given⟩

/-- What follows goes on from the numbers given out by then. -/
theorem bind {x : StateM (World H) α} {f : α → StateM (World H) β} (hx : Gives G n P x)
    (hf : ∀ m, n ≤ m → ∀ a, P m a → Gives G m Q (f a)) : Gives G n Q (x >>= f) := by
  intro w hw
  obtain ⟨hnext, hanswer⟩ := hx w hw
  obtain ⟨hend, hresult⟩ := hf _ hnext.given _ hanswer _ hnext.top
  exact ⟨hend.mono hnext.given, hresult⟩

/-- After a computation of which nothing more is known. -/
theorem keeps_bind {x : StateM (World H) α} {f : α → StateM (World H) β}
    (hx : Keeps (Numbered G n) x) (hf : ∀ a, Gives G n Q (f a)) : Gives G n Q (x >>= f) :=
  fun w hw => hf _ _ (hx w hw)

theorem get_bind {f : World H → StateM (World H) β}
    (h : ∀ w, Numbered G n w → Numbered G n ((f w).run w).2 ∧
      Q ((f w).run w).2.nextId ((f w).run w).1) : Gives G n Q (get >>= f) :=
  fun w hw => h w hw

theorem ite {c : Prop} [Decidable c] {x y : StateM (World H) α} (hx : Gives G n P x)
    (hy : Gives G n P y) : Gives G n P (if c then x else y) := by
  split
  · exact hx
  · exact hy

theorem imp {P' : Nat → α → Prop} {x : StateM (World H) α} (h : Gives G n P x)
    (hP : ∀ m a, P m a → P' m a) : Gives G n P' x :=
  fun w hw => ⟨(h w hw).1, hP _ _ (h w hw).2⟩

end Gives

/-- A computation that may fail, and gives something unless it does. -/
def GivesRun (G : Nat → H → Prop) (n : Nat) (P : Nat → α → Prop) (x : Run H α) : Prop :=
  Gives G n (fun m result => ∀ a, result = .ok a → P m a) x.run

namespace GivesRun

variable {P : Nat → α → Prop} {Q : Nat → β → Prop}

theorem pure {a : α} (h : ∀ m, n ≤ m → P m a) : GivesRun G n P (Pure.pure a : Run H α) := by
  refine fun w hw => ⟨hw, ?_⟩
  rintro _ ⟨⟩
  exact h w.nextId hw.given

theorem throw (fault : Fault) : GivesRun G n P (throw fault : Run H α) :=
  fun _ hw => ⟨hw, fun _ h => nomatch h⟩

theorem bind {x : Run H α} {f : α → Run H β} (hx : GivesRun G n P x)
    (hf : ∀ m, n ≤ m → ∀ a, P m a → GivesRun G m Q (f a)) : GivesRun G n Q (x >>= f) := by
  show Gives G n _ (x.run >>= ExceptT.bindCont f)
  refine Gives.bind hx fun m hm result hresult => ?_
  cases result with
  | ok a => exact hf m hm a (hresult a rfl)
  | error fault => exact fun _ hw => ⟨hw, fun _ h => nomatch h⟩

/-- After a computation of which nothing more is known. -/
theorem keeps_bind {x : Run H α} {f : α → Run H β} (hx : Keeps (Numbered G n) x.run)
    (hf : ∀ a, GivesRun G n Q (f a)) : GivesRun G n Q (x >>= f) := by
  show Gives G n _ (x.run >>= ExceptT.bindCont f)
  refine Gives.keeps_bind hx fun result => ?_
  cases result with
  | ok a => exact hf a
  | error fault => exact fun _ hw => ⟨hw, fun _ h => nomatch h⟩

theorem get_bind {f : World H → Run H β}
    (h : ∀ w, Numbered G n w → Numbered G n ((f w).run.run w).2 ∧
      ∀ b, ((f w).run.run w).1 = .ok b → Q ((f w).run.run w).2.nextId b) :
    GivesRun G n Q (get >>= f) := fun w hw => h w hw

theorem ite {c : Prop} [Decidable c] {x y : Run H α} (hx : GivesRun G n P x)
    (hy : GivesRun G n P y) : GivesRun G n P (if c then x else y) := by
  split
  · exact hx
  · exact hy

/-- A check before a computation. -/
theorem guard {c : Prop} [Decidable c] (fault : Fault) {x : Run H α} (h : GivesRun G n P x) :
    GivesRun G n P (do
      if c then MonadExcept.throw fault
      x) :=
  .ite (fun _ hw => ⟨hw, fun _ h => nomatch h⟩) h

theorem lift {x : StateM (World H) α} (h : Gives G n P x) : GivesRun G n P (liftM x : Run H α) := by
  intro w hw
  refine ⟨(h w hw).1, ?_⟩
  rintro _ ⟨⟩
  exact (h w hw).2

end GivesRun

/-- What follows a computation that gives something. -/
theorem Keeps.bind_gives {P : Nat → α → Prop} {x : StateM (World H) α} {f : α → StateM (World H) β}
    (hx : Gives G n P x) (hf : ∀ m, n ≤ m → ∀ a, P m a → Keeps (Numbered G m) (f a)) :
    Keeps (Numbered G n) (x >>= f) := by
  intro w hw
  obtain ⟨hnext, hanswer⟩ := hx w hw
  exact (hf _ hnext.given _ hanswer _ hnext.top).mono hnext.given

/-- What follows a computation of whose result something is known unless it fails. -/
theorem Keeps.bind_produces {I : World H → Prop} {P : α → Prop} {x : Run H α}
    {f : Except Fault α → StateM (World H) β} (hx : Keeps I x.run) (hproduces : Produces P x)
    (hok : ∀ a, P a → Keeps I (f (.ok a))) (herror : ∀ fault, Keeps I (f (.error fault))) :
    Keeps I (x.run >>= f) := by
  refine Keeps.bind_of (P := fun result => ∀ a, result = .ok a → P a)
    (fun w hw => ⟨hproduces w, hx w hw⟩) fun result hresult => ?_
  cases result with
  | ok a => exact hok a (hresult a rfl)
  | error fault => exact herror fault

end Keeping

/-! ## The engine's usual changes -/

section Engine

variable {G : Nat → H → Prop} (hG : ∀ n h, G n h → G (n + 1) h) {n : Nat}

include hG

theorem Numbered.fresh : Gives G n (fun m k => k < m) World.fresh := by
  intro w hw
  have hle := Nat.le_succ w.nextId
  refine ⟨⟨Nat.le_trans hw.given hle, ?_, ?_, ?_, hG _ _ hw.host⟩, Nat.lt_succ_self _⟩
  · exact fun e he => Nat.lt_succ_of_lt (hw.volumes e he)
  · exact fun e he =>
      ⟨Nat.lt_succ_of_lt (hw.connections e he).1, Connection.below_mono hle (hw.connections e he).2⟩
  · exact fun e he =>
      ⟨Nat.lt_succ_of_lt (hw.statements e he).1, Statement.below_mono hle (hw.statements e he).2⟩

omit hG in
theorem Numbered.modifyConnection (c : Nat) {f : Connection → Connection}
    (hf : ∀ m conn, n ≤ m → Connection.Same (Below m) conn conn → (f conn).Same (Below m) (f conn)) :
    Keeps (Numbered G n) (World.modifyConnection c f) :=
  fun _ hw => { hw with
    connections := Assoc.forall_update hw.connections c fun _ _ h => ⟨h.1, hf _ _ hw.given h.2⟩ }

omit hG in
theorem Numbered.modifyStatement (k : Nat) {f : Statement → Statement}
    (hf : ∀ m s, n ≤ m → Statement.Same (Below m) s s → (f s).Same (Below m) (f s)) :
    Keeps (Numbered G n) (World.modifyStatement k f) :=
  fun _ hw => { hw with
    statements := Assoc.forall_update hw.statements k fun _ _ h => ⟨h.1, hf _ _ hw.given h.2⟩ }

/-- Unless it stores numbers, the engine keeps worlds numbered whatever it does. -/
theorem Numbered.engineKeeps : EngineKeeps ⟨true, false⟩ (Numbered G n) where
  connection c f _ hf := Numbered.modifyConnection c fun _ _ _ h =>
    (hf.resolve_left Bool.false_ne_true).below h
  statements f hf := fun _ hw => { hw with
    statements := Assoc.forall_map (f := f) hw.statements fun k _ h =>
      ⟨h.1, (hf.resolve_left Bool.false_ne_true k).below h.2⟩ }
  added h := nomatch h
  fresh := (Numbered.fresh hG).keeps
  volumes _ f hf := fun w hw => { hw with
    volumes := by
      have hkeys := hf.resolve_left Bool.false_ne_true w.volumes
      have hall : ∀ k ∈ w.volumes.map (·.1), k < w.nextId := List.forall_mem_map.mpr hw.volumes
      exact List.forall_mem_map.mp (hkeys ▸ hall) }

end Engine

/-! ## Statements -/

section Statements

variable {G : Nat → H → Prop} (hG : ∀ n h, G n h → G (n + 1) h) {n : Nat} {hooks : Hooks H}
  (hhost : ∀ n, HostKeeps hooks (Numbered G n))

include hG hhost

theorem Within.numbered {x : StateM (World H) α} (h : Within ⟨true, false⟩ hooks x) :
    Keeps (Numbered G n) x := h.keeps ⟨Numbered.engineKeeps hG, hhost n⟩

/-- A cursor that is put down holds only numbers of the one that was taken up. -/
theorem advance_numbered (c k : Nat) (program : Program) {cursor : Cursor}
    (hcursor : cursor.Same (Below n) cursor) :
    Keeps (Numbered G n) (advance ⟨c, k, hooks⟩ program cursor) := by
  have hfinish (fault? : Option Fault) :
      Keeps (Numbered G n) (finish ⟨c, k, hooks⟩ program ⟨none, false⟩ fault?) :=
    (finish_calm ⟨c, k, hooks⟩ program _ fault?).within.numbered hG hhost
  unfold advance
  refine Keeps.bind_produces
    ((Cursor.next_orderly ⟨c, k, hooks⟩ fuel cursor).within.numbered hG hhost)
    (Cursor.next_numbers ⟨c, k, hooks⟩ fuel hcursor) (fun found hfound => ?_) fun fault => hfinish _
  match found, hfound with
  | none, _ => exact hfinish _
  | some (row, next), hfound =>
    refine (Numbered.modifyStatement k fun m s hm hs => ?_).bind fun _ => .pure _
    exact Statement.same_self hs.parts.1 hs.parts.2.1 (Cursor.below_mono hm (hfound row next rfl))

theorem beginStatement_numbered (c k : Nat) {program : Program}
    (hprogram : program.Same (Below n) program) :
    Keeps (Numbered G n) (beginStatement ⟨c, k, hooks⟩ program) := by
  have hwithin {γ : Type} {x : StateM (World H) γ} (h : Within ⟨true, false⟩ hooks x) :
      Keeps (Numbered G n) x := h.numbered hG hhost
  have hprogress {x : StateM (World H) Progress} (hx : Keeps (Numbered G n) x) :
      Keeps (Numbered G n) (x >>= fun p => return Begun.progress p) := hx.bind fun _ => .pure _
  unfold beginStatement
  refine (hwithin (resetAsked_calm c).within).bind fun _ => Keeps.bind ?_ fun _ =>
    (hwithin (enter_calm ⟨c, k, hooks⟩ program).within).bind fun entered => ?_
  · exact Numbered.modifyStatement k fun m s _ hs =>
      Statement.same_self hs.parts.1 hs.parts.2.1 hs.parts.2.2
  rcases entered with fault | current
  · refine .ite (hprogress (hwithin (block_calm k fault).within)) ?_
    exact (hwithin (countChanges_calm c program 0).within).bind fun _ =>
      hprogress (hwithin (finish_calm ⟨c, k, hooks⟩ program _ _).within)
  cases current with
  | false =>
    exact (hwithin (finish_calm ⟨c, k, hooks⟩ program _ _).within).bind fun _ =>
      (hwithin (forgetCatalog_calm c).within).bind fun _ => .pure _
  | true =>
    have htransaction (action : Action) :
        Keeps (Numbered G n) (runTransaction ⟨c, k, hooks⟩ action) :=
      hwithin (runTransaction_calm ⟨c, k, hooks⟩ action).within
    have haction := hprogram.action
    cases hdoes : program.action with
    | query plan =>
      rw [hdoes] at haction
      cases haction with
      | query hplan => exact hprogress (advance_numbered hG hhost c k program (.idle hplan))
    | changeRows target change =>
      exact hprogress (hwithin (runRowChange_orderly ⟨c, k, hooks⟩ program target change).within)
    | changeTables change =>
      exact hprogress (hwithin (runTableChange_calm ⟨c, k, hooks⟩ program change).within)
    | nothing => exact hprogress (hwithin (finish_calm ⟨c, k, hooks⟩ program _ none).within)
    | begin mode => exact hprogress (htransaction _)
    | commit => exact hprogress (htransaction _)
    | rollback => exact hprogress (htransaction _)
    | savepoint name => exact hprogress (htransaction _)
    | release name => exact hprogress (htransaction _)
    | rollbackTo name => exact hprogress (htransaction _)

/-! ## Compilation -/

omit hG hhost in
/-- A connection that is there has a number that has been given out, and holds such numbers. -/
theorem connectionOf_gives (c : Nat) :
    GivesRun G n (fun m conn => c < m ∧ conn.Same (Below m) conn) (connectionOf (H := H) c) := by
  unfold connectionOf
  refine .get_bind fun w hw => ?_
  cases hconn : w.connections.get? c with
  | none => exact ⟨hw, fun _ h => nomatch h⟩
  | some conn =>
    refine ⟨hw, ?_⟩
    rintro _ ⟨⟩
    exact hw.connection hconn

/-- A compiled program calls functions of its connection. -/
theorem compileWithCatalog_gives (c k : Nat) (command : Sql.Command) (left : Nat) :
    GivesRun G n (fun m program => program.Same (Below m) program)
      (compileWithCatalog ⟨c, k, hooks⟩ command left) := by
  induction left generalizing n with
  | zero => exact .throw _
  | succ left ih =>
    unfold compileWithCatalog
    refine (connectionOf_gives c).bind fun m _ conn hconn => ?_
    have hcompiled := compileCommand_same below_oneToOne
      (.mk ⟨conn.functions, conn.catalog, conn.writableCatalog⟩ hconn.2.parts.2) command
    revert hcompiled
    generalize compileCommand _ command = compiled
    intro hcompiled
    cases hcompiled with
    | ok hprogram => exact .pure fun m' hm' => Program.below_mono hm' hprogram
    | error fault =>
      refine .ite (.ite (.keeps_bind ((catalogOf_calm ⟨c, k, hooks⟩).within.numbered hG hhost)
        fun _ => ih) (.throw fault)) ?_
      refine .keeps_bind ((catalogIsCurrent_calm ⟨c, k, hooks⟩).within.numbered hG hhost)
        fun isCurrent => .ite (.throw fault) ?_
      exact .keeps_bind ((CalmRun.lift (forgetCatalog_calm c)).within.numbered hG hhost) fun _ => ih

/-- A text is compiled on a connection that is there. -/
theorem compileText_gives (c k : Nat) (text : List Char) :
    GivesRun G n (fun m compiled => ∀ program, compiled.1 = some program →
      c < m ∧ program.Same (Below m) program) (compileText ⟨c, k, hooks⟩ text) := by
  unfold compileText
  refine .keeps_bind ((CalmRun.lift (settleInterrupt_calm c)).within.numbered hG hhost) fun _ =>
    (connectionOf_gives c).bind fun m _ conn hconn => ?_
  refine .guard _ ?_
  cases Sql.nextCommand text with
  | error e => exact .throw _
  | ok found =>
    dsimp only
    cases found.command? with
    | none => exact .pure fun _ _ _ h => nomatch h
    | some command =>
      refine (compileWithCatalog_gives hG hhost c k command _).bind fun m' hm' program hprogram => ?_
      refine .keeps_bind ((CalmRun.lift (applySetting_calm c command)).within.numbered hG hhost)
        fun _ => .pure fun m'' hm'' => ?_
      rintro _ ⟨⟩
      exact ⟨by omega, Program.below_mono hm'' hprogram⟩

theorem recompile_numbered (c k : Nat) (text : List Char) :
    Keeps (Numbered G n) (recompile ⟨c, k, hooks⟩ text) := by
  unfold recompile
  refine Keeps.bind_gives (compileText_gives hG hhost c k text) fun m _ result hresult => ?_
  refine .bind ((resetAsked_calm c).within.numbered hG hhost) fun _ => ?_
  match result, hresult with
  | .ok (some program, stop), hresult =>
    refine (Numbered.modifyStatement k fun m' s hm hs => ?_).bind fun _ => .pure none
    exact Statement.same_self hs.parts.1
      (Program.below_mono hm (hresult _ rfl program rfl).2) hs.parts.2.2
  | .ok (none, stop), _ => exact .pure none
  | .error fault, _ => exact .pure _

/-! ## Steps -/

/-- A beginning, and another one if the statement has to be compiled again. -/
theorem begun_numbered (c k : Nat) {program : Program} (hprogram : program.Same (Below n) program)
    {again : StateM (World H) Progress} (hagain : Keeps (Numbered G n) again) :
    Keeps (Numbered G n) (do
      match ← beginStatement ⟨c, k, hooks⟩ program with
      | .progress p => return p
      | .outdated =>
        World.modifyStatement k fun s => { s with expired := true }
        again) := by
  refine (beginStatement_numbered hG hhost c k hprogram).bind fun begun => ?_
  cases begun with
  | progress p => exact .pure p
  | outdated =>
    exact Keeps.bind (Numbered.modifyStatement k fun _ s _ hs =>
      Statement.same_self hs.parts.1 hs.parts.2.1 hs.parts.2.2) fun _ => hagain

theorem beginCurrent_numbered (c k left : Nat) :
    Keeps (Numbered G n) (beginCurrent ⟨c, k, hooks⟩ left) := by
  induction left generalizing n with
  | zero => exact .pure _
  | succ left ih =>
    unfold beginCurrent
    refine .get_bind fun w hw => ?_
    cases hs : w.statements.get? k with
    | none => exact hw
    | some s =>
      have hrefresh : Keeps (Numbered G w.nextId) (refresh ⟨c, k, hooks⟩ s) :=
        .ite (recompile_numbered hG hhost c k s.text) (.pure none)
      refine Numbered.mono (Keeps.bind hrefresh (fun failure => ?_) w hw.top) hw.given
      cases failure with
      | some fault => exact (halt_calm k _).within.numbered hG hhost
      | none =>
        refine Keeps.bind ((settleInterrupt_calm c).within.numbered hG hhost) fun _ =>
          .get_bind fun w' hw' => ?_
        have hprogram : Program.Same (Below w'.nextId)
            (((w'.statements.get? k).map (·.program)).getD s.program)
            (((w'.statements.get? k).map (·.program)).getD s.program) := by
          cases hs' : w'.statements.get? k with
          | none => exact Program.below_mono hw'.given (hw.statement hs).2.parts.2.1
          | some s' => exact (hw'.statement hs').2.parts.2.1
        exact (begun_numbered hG hhost c k hprogram ih w' hw'.top).mono hw'.given

theorem step_numbered (k : Nat) : Keeps (Numbered G n) (step hooks k) := by
  unfold step
  refine .get_bind fun w hw => ?_
  cases hs : w.statements.get? k with
  | none => exact hw
  | some s =>
    obtain ⟨-, hprogram, hcursor⟩ := (hw.statement hs).2.parts
    have hcurrent (left : Nat) : Keeps (Numbered G n) (beginCurrent ⟨s.connection, k, hooks⟩ left) :=
      beginCurrent_numbered hG hhost s.connection k left
    dsimp only
    cases s.phase with
    | ready => exact hcurrent _ w hw
    | halted => exact hcurrent _ w hw
    | blocked =>
      exact (begun_numbered hG hhost s.connection k hprogram
        (beginCurrent_numbered hG hhost s.connection k maxRecompilations) w hw.top).mono hw.given
    | running =>
      refine (Keeps.bind ((resetAsked_calm s.connection).within.numbered hG hhost) (fun _ =>
        Keeps.bind ((checkInterrupt_calm ⟨s.connection, k, hooks⟩).within.numbered hG hhost)
          fun result => ?_) w hw.top).mono hw.given
      cases result with
      | error fault =>
        exact (finish_calm ⟨s.connection, k, hooks⟩ s.program _ _).within.numbered hG hhost
      | ok _ => exact advance_numbered hG hhost s.connection k s.program hcursor

/-- A statement is stored under a number that has been given out, with such numbers. -/
theorem prepare_gives (c : Nat) (text : List Char) :
    Gives G n (fun m result => ∀ k stop, result = .ok (some k, stop) → k < m)
      (prepare hooks c text) := by
  unfold prepare
  refine Gives.bind (compileText_gives hG hhost c 0 text) fun m _ result hresult =>
    .keeps_bind ((resetAsked_calm c).within.numbered hG hhost) fun _ => ?_
  match result, hresult with
  | .error fault, _ => exact .pure fun _ _ _ _ h => nomatch h
  | .ok (none, stop), _ => exact .pure fun _ _ _ _ h => nomatch h
  | .ok (some program, stop), hresult =>
    obtain ⟨hc, hprogram⟩ := hresult _ rfl program rfl
    refine (Numbered.fresh hG).bind fun m' hm' k hk => .keeps_bind (fun w hw => ?_) fun _ =>
      .pure fun m'' hm'' => ?_
    · refine { hw with statements := Assoc.forall_set hw.statements ⟨Nat.lt_of_lt_of_le hk hw.given, ?_⟩ }
      exact Statement.same_self (.self (Nat.lt_of_lt_of_le hc (Nat.le_trans hm' hw.given)))
        (Program.below_mono (Nat.le_trans hm' hw.given) hprogram) .done
    · rintro _ _ ⟨⟩
      exact Nat.lt_of_lt_of_le hk hm''

theorem finalize_numbered (k : Nat) : Keeps (Numbered G n) (finalize hooks k) := by
  unfold finalize
  refine .get_bind fun w hw => ?_
  cases w.statements.get? k with
  | none => exact hw
  | some s =>
    have herase : Keeps (Numbered G n) (do
        modify fun w : World H => { w with statements := Assoc.erase w.statements k }
        return s.failure) :=
      Keeps.bind (fun _ hw => { hw with statements := Assoc.forall_erase hw.statements k })
        fun _ => .pure s.failure
    have hend := (endStatement_calm ⟨s.connection, k, hooks⟩ s.program ⟨none, false⟩
      s.failure).within.numbered (n := n) hG hhost
    have hcount : Calm ⟨true, false⟩ (countChanges (H := H) s.connection s.program 0)
        (countChanges (H := Ledger hooks) s.connection s.program 0) := countChanges_calm _ _ _
    exact Keeps.ite (Keeps.bind hend fun _ => (hcount.within.numbered hG hhost).bind fun _ => herase)
      herase w hw

end Statements

/-! ## Connections -/

section Connections

variable {G : Nat → H → Prop} {n : Nat}

/-- A new volume under a number that has been given out. -/
theorem addVolume_numbered {k : Nat} (hk : k < n) (v : Volume) :
    Keeps (Numbered G n)
      (modify fun w : World H => { w with volumes := Assoc.set w.volumes k v }) :=
  fun _ hw => { hw with volumes := Assoc.forall_set hw.volumes (Nat.lt_of_lt_of_le hk hw.given) }

theorem opened_below {v : Nat} (hv : v < n) (readOnly : Bool) :
    (Connection.opened v readOnly).Same (Below n) (Connection.opened v readOnly) :=
  Connection.same_self (.self hv) .nil

/-- A new connection under a number that has been given out, to a volume with such a number. -/
theorem addConnection_numbered {k v : Nat} (hk : k < n) (hv : v < n) (readOnly : Bool) :
    Keeps (Numbered G n) (modify fun w : World H =>
      { w with connections := Assoc.set w.connections k (.opened v readOnly) }) :=
  fun _ hw => { hw with
    connections := Assoc.forall_set hw.connections ⟨Nat.lt_of_lt_of_le hk hw.given,
      Connection.below_mono hw.given (opened_below hv readOnly)⟩ }

theorem setAsksHost_numbered (c : Nat) (asks : Bool) :
    Keeps (Numbered G n) (setAsksHost (H := H) c asks) :=
  Numbered.modifyConnection c fun _ _ _ h => Connection.same_self h.parts.1 h.parts.2

theorem interrupt_numbered (c : Nat) : Keeps (Numbered G n) (interrupt (H := H) c) :=
  Numbered.modifyConnection c fun _ _ _ h => Connection.same_self h.parts.1 h.parts.2

theorem disconnect_numbered (c : Nat) : Keeps (Numbered G n) (disconnect (H := H) c) := by
  refine .modify fun w hw => ?_
  cases w.connections.get? c with
  | none => exact hw
  | some conn =>
    refine { hw with
      connections := Assoc.forall_erase hw.connections c
      statements := fun e he => hw.statements e (List.mem_filter.mp he).1
      volumes := ?_ }
    dsimp only
    split
    · exact Assoc.forall_erase hw.volumes conn.volume
    · exact hw.volumes

/-- A function is registered with a record whose number has been given out. -/
theorem register_numbered (c : Nat) {f : HostFunction} (hf : f.record < n) :
    Keeps (Numbered G n) (register (H := H) c f) := by
  have hinstall : Keeps (Numbered G n) (do
      World.modifyConnection (H := H) c fun conn =>
        { conn with functions := conn.functions.filter (fun g => !f.replaces g) ++ [f] }
      return ResultCode.ok) := by
    refine Keeps.bind (Numbered.modifyConnection c fun m conn hm hconn => ?_) fun _ => .pure _
    refine Connection.same_self hconn.parts.1 (List.rel_append ?_ ?_)
    · refine forall₂_filter hconn.parts.2 fun g g' hg => ?_
      cases hg
      rfl
    · exact .cons (HostFunction.below_self (Nat.lt_of_lt_of_le hf hm)) .nil
  have hleaves : Statement.LeavesNumbers fun s =>
      if s.connection = c then { s with expired := true } else s :=
    .ite fun _ _ _ _ => ⟨rfl, rfl, .inl rfl⟩
  have hexpire : Keeps (Numbered G n) (expireStatements (H := H) c) := fun w hw => { hw with
    statements := Assoc.forall_map hw.statements
      (f := fun _ s => if s.connection = c then { s with expired := true } else s)
      fun _ _ hs => ⟨hs.1, hleaves.below hs.2⟩ }
  unfold register
  refine .ite (.pure _) (Keeps.bind (fun _ hw => hw) fun conn? => ?_)
  cases conn? with
  | none => exact .pure _
  | some conn =>
    refine .ite (.get_bind fun w hw => ?_) hinstall
    exact Keeps.ite (.pure _) (hexpire.bind fun _ => hinstall) w hw

variable (hG : ∀ n h, G n h → G (n + 1) h)

include hG

theorem fileVolume_gives (file : String) (flags : OpenFlags) :
    GivesRun G n (fun m v => v < m) (fileVolume (H := H) file flags) := by
  unfold fileVolume
  refine .get_bind fun w hw => ?_
  cases hfound : w.volumes.find? fun v => v.2.path == some file with
  | some e =>
    refine ⟨hw, ?_⟩
    rintro _ ⟨⟩
    exact hw.volumes e (List.mem_of_find?_eq_some hfound)
  | none =>
    have hnew : GivesRun G n (fun m v => v < m) (do
        let k ← World.fresh (H := H)
        modify fun w => { w with volumes := Assoc.set w.volumes k ⟨some file, .bytes []⟩ }
        return k) :=
      (GivesRun.lift (Numbered.fresh hG)).bind fun m _ k hk =>
        .keeps_bind ((addVolume_numbered hk _).bind fun _ => .pure _) fun _ =>
          .pure fun m' hm' => Nat.lt_of_lt_of_le hk hm'
    exact GivesRun.ite hnew (.throw _) w hw

theorem connect_gives (path : String) (flags : OpenFlags) :
    GivesRun G n (fun m k => k < m) (connect (H := H) path flags) := by
  have hadd {m v : Nat} (hv : v < m) (readOnly : Bool) : GivesRun G m (fun m k => k < m) (do
      let k ← World.fresh (H := H)
      modify fun w => { w with connections := Assoc.set w.connections k (.opened v readOnly) }
      return k) :=
    (GivesRun.lift (Numbered.fresh hG)).bind fun m' hm' k hk =>
      .keeps_bind ((addConnection_numbered hk (Nat.lt_of_lt_of_le hv hm') readOnly).bind
        fun _ => .pure _) fun _ => .pure fun m'' hm'' => Nat.lt_of_lt_of_le hk hm''
  have hprivate : GivesRun G n (fun m v => v < m) (do
      let k ← World.fresh (H := H)
      modify fun w => { w with volumes := Assoc.set w.volumes k ⟨none, .bytes []⟩ }
      pure k) :=
    (GivesRun.lift (Numbered.fresh hG)).bind fun m _ k hk =>
      .keeps_bind ((addVolume_numbered hk _).bind fun _ => .pure _) fun _ =>
        .pure fun m' hm' => Nat.lt_of_lt_of_le hk hm'
  unfold connect
  refine .keeps_bind (fun _ hw => ?_) fun place => ?_
  · cases Location.ofPath path flags <;> exact hw
  · cases place.file with
    | some file =>
      exact (fileVolume_gives hG file place.flags).bind fun _ _ _ hv => hadd hv _
    | none => exact hprivate.bind fun _ _ _ hv => hadd hv _

theorem connectNowhere_gives :
    Gives G n (fun m k => k < m) (connectNowhere (H := H)) := by
  unfold connectNowhere
  exact (Numbered.fresh hG).bind fun m _ k hk => .keeps_bind (addConnection_numbered hk hk false)
    fun _ => .pure fun m' hm' => Nat.lt_of_lt_of_le hk hm'

theorem writeFile_numbered (path : String) (bytes : List UInt8) :
    Keeps (Numbered G n) (writeFile (H := H) path bytes) := by
  unfold writeFile
  cases Location.entryAt path with
  | directory => exact .pure ()
  | nothing => exact .pure ()
  | file file =>
    refine .get_bind fun w hw => ?_
    cases w.volumes.find? fun v => v.2.path == some file with
    | some e =>
      exact { hw with
        volumes := Assoc.forall_update (f := fun v => { v with content := .bytes bytes })
          hw.volumes e.1 fun _ _ h => h }
    | none =>
      exact (Keeps.bind_gives (Numbered.fresh hG) fun m _ k hk => addVolume_numbered hk _) w hw

end Connections

end HostSql.Engine
