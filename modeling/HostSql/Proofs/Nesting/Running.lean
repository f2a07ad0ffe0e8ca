import HostSql.Engine.Execution
import HostSql.Proofs.Grouping.Query
import HostSql.Proofs.Invariance
import HostSql.Proofs.Nesting.Evaluation

/-!
# Nested statements in alike worlds

A query of a nest is compiled, stepped to its end and released in two worlds that the nest cannot
tell apart. To compile a query without tables the engine may have to look whether the catalog is
still current, which can make it wait for a lock in one world and not in the other; but nothing that
the nest sees depends on it (`compileText_tableless`). The statement gets a number of its own in
each world and is tied until it is released.

> `prepare_alike`, `step_parallel`, `finalize_alike`: a query of the nest is compiled alike in both
> worlds, its steps end alike, and so does its release; the worlds stay alike.
-/

namespace HostSql

open Engine

/-! ## What a nest does not see -/

/-- The nest can still run, and sees the same as in the world before. -/
def Nest.Same (n : Nest) (w w' : SessionWorld) : Prop := n.Ready w' ∧ n.Unseen w w'

section Same

variable {n : Nest} {w : SessionWorld}

theorem modifyConnection_same {f : Engine.Connection → Engine.Connection}
    (hf : ∀ conn, conn.interrupted = false → (f conn).seen = conn.seen) :
    Keeps (n.Same w) (World.modifyConnection n.connection f) := by
  rintro w' ⟨hready, hunseen⟩
  have hstep : n.Unseen w' ((World.modifyConnection n.connection f).run w').2 := by
    refine ⟨rfl, rfl, rfl, rfl, ?_, fun h => h⟩
    obtain ⟨conn, hconn, _, hcalm⟩ := hready.undisturbed
    refine (congrArg (Option.map Engine.Connection.seen) (Assoc.get?_update_self _ _ _)).trans ?_
    rw [hconn]
    exact congrArg some (hf conn hcalm)
  exact ⟨hready.unseen hstep, hunseen.trans hstep⟩

theorem modifyConnection_get {k : Nat} {conn : Engine.Connection}
    (hconn : w.connections.get? k = some conn) (f : Engine.Connection → Engine.Connection) :
    ((World.modifyConnection k f).run w).2.connections.get? k = some (f conn) :=
  (Assoc.get?_update_self _ _ _).trans (congrArg (Option.map f) hconn)

/-- What may fail is followed by what comes after. -/
theorem Keeps.bind_run {α β : Type} {I : SessionWorld → Prop} {x : Run Host α} {f : α → Run Host β}
    (hx : Keeps I x.run) (hf : ∀ a, Keeps I (f a).run) : Keeps I (x >>= f).run := by
  refine Keeps.bind (f := ExceptT.bindCont f) hx fun r => ?_
  cases r with
  | error fault => exact .pure _
  | ok a => exact hf a

theorem Keeps.lift_run {α : Type} {I : SessionWorld → Prop} {x : StateM SessionWorld α}
    (hx : Keeps I x) : Keeps I (liftM x : Run Host α).run := hx

theorem Keeps.attempt {α : Type} {I : SessionWorld → Prop} {x : Run Host α} (hx : Keeps I x.run) :
    Keeps I (attempt x).run := hx

theorem connectionOf_same (k : Nat) : Keeps (n.Same w) (connectionOf (H := Host) k).run := by
  intro w' hw'
  unfold connectionOf
  rw [run_get_bind]
  cases w'.connections.get? k <;> exact hw'

theorem currentDatabase_same (k : Nat) :
    Keeps (n.Same w) (currentDatabase (H := Host) k).run := by
  unfold currentDatabase
  refine (connectionOf_same k).bind_run fun conn => ?_
  cases conn.draft with
  | some db => exact .pure _
  | none =>
    intro w' hw'
    dsimp only
    rw [run_get_bind]
    cases w'.volumes.get? conn.volume with
    | none => exact hw'
    | some v => cases v.content.database? <;> exact hw'

theorem settleInterrupt_same : Keeps (n.Same w) (settleInterrupt n.connection) := by
  unfold settleInterrupt
  refine Keeps.get_bind fun w' hw' => ?_
  split
  · refine modifyConnection_same (fun conn hcalm => ?_) w' hw'
    unfold Engine.Connection.seen
    rw [hcalm]
  · exact hw'

variable {start : SessionWorld} {hooks : Hooks Host} (h : HooksAlike n start hooks) {j : Nat}

include h

theorem busy_same (attempt : Nat) : Keeps (n.Same w) (hooks.busy n.connection attempt) := by
  rintro w' ⟨hready, hunseen⟩
  have hstep := h.busy w' hready attempt
  exact ⟨hready.unseen hstep, hunseen.trans hstep⟩

theorem askHost_same : Keeps (n.Same w) (askHost ⟨n.connection, j, hooks⟩).run := by
  unfold askHost
  refine (connectionOf_same _).bind_run fun conn => ?_
  split
  · exact (busy_same h _).lift_run.bind_run fun again =>
      (modifyConnection_same fun _ _ => by rfl).lift_run.bind_run fun _ => .pure _
  · exact .pure _

theorem lockShared_same (fuel : Nat) :
    Keeps (n.Same w) (lockShared ⟨n.connection, j, hooks⟩ fuel).run := by
  induction fuel with
  | zero => exact .pure _
  | succ fuel ih =>
    unfold lockShared
    refine (connectionOf_same _).bind_run fun conn => ?_
    split
    · exact .pure _
    · refine Keeps.bind_run (fun _ hw => hw) fun rivals => ?_
      split
      · exact (modifyConnection_same fun _ _ => by rfl).lift_run
      · refine (askHost_same h).bind_run fun again => ?_
        split
        · exact ih
        · exact .pure _

end Same

/-- Looking whether the catalog is current gives an answer. -/
theorem catalogIsCurrent_same {n : Nest} {start : SessionWorld} {hooks : Hooks Host}
    (h : HooksAlike n start hooks) {j : Nat} {w : SessionWorld} (hw : n.Ready w) :
    ∃ answer w', n.Same w w' ∧
      (catalogIsCurrent ⟨n.connection, j, hooks⟩).run.run w = (.ok answer, w') := by
  obtain ⟨conn, hconn, _⟩ := hw.undisturbed
  have hstart : n.Same w w := ⟨hw, .refl n w⟩
  unfold catalogIsCurrent
  rw [run_bind_ok (connectionOf_run hconn)]
  cases conn.catalog with
  | none => exact ⟨true, w, hstart, rfl⟩
  | some catalog =>
    have hlock := lockShared_same h (j := j) maxAttempts w hstart
    dsimp only
    rw [run_bind_ok (attempt_run _ w)]
    generalize (lockShared ⟨n.connection, j, hooks⟩ maxAttempts).run.run w = locked at hlock ⊢
    obtain ⟨answer, w₁⟩ := locked
    cases answer with
    | error fault => exact ⟨true, w₁, hlock, rfl⟩
    | ok _ =>
      have hread := currentDatabase_same (n := n) n.connection w₁ hlock
      dsimp only
      rw [run_bind_ok (attempt_run _ w₁)]
      generalize (currentDatabase n.connection).run.run w₁ = database at hread ⊢
      obtain ⟨answer, w₂⟩ := database
      -- the lock is given back if it was taken for this
      split
      · have hsame := (modifyConnection_same (n := n) (w := w)
          (f := fun c : Engine.Connection => { c with lock := .none }) fun _ _ => by rfl) w₂ hread
        cases answer with
        | error fault => exact ⟨true, _, hsame, rfl⟩
        | ok db => exact ⟨_, _, hsame, rfl⟩
      · cases answer with
        | error fault => exact ⟨true, w₂, hread, rfl⟩
        | ok db => exact ⟨_, w₂, hread, rfl⟩

/-! ## Compiling -/

section Compiling

variable {n : Nest} {start : SessionWorld} {hooks : Hooks Host} (h : HooksAlike n start hooks)

include h

/-- A command that is compiled alike under every catalog is compiled so, whichever catalog has been
read and whether or not it is current. -/
theorem compileWithCatalog_tableless {command : Sql.Command} {result : Except Fault Engine.Program}
    (hresult : ∀ catalog writable,
      compileCommand ⟨n.functions, catalog, writable⟩ command = result)
    (hne : result ≠ .error .catalogChanged) (left j : Nat) {w : SessionWorld} (hw : n.Ready w) :
    ∃ w', n.Same w w' ∧
      (compileWithCatalog ⟨n.connection, j, hooks⟩ command (left + 2)).run.run w = (result, w') := by
  obtain ⟨conn, hconn, hfunctions, _⟩ := hw.undisturbed
  have hstart : n.Same w w := ⟨hw, .refl n w⟩
  unfold compileWithCatalog
  rw [run_bind_ok (connectionOf_run hconn), hfunctions, hresult]
  cases result with
  | ok program => exact ⟨w, hstart, rfl⟩
  | error fault =>
    have hfault : fault ≠ .catalogChanged := fun heq => hne (congrArg _ heq)
    dsimp only
    cases hcatalog : conn.catalog with
    | none =>
      rw [if_pos Option.isNone_none, if_neg hfault]
      exact ⟨w, hstart, rfl⟩
    | some catalog =>
      obtain ⟨current, w₁, hsame, hrun⟩ := catalogIsCurrent_same h (j := j) hw
      rw [if_neg (by simp), run_bind_ok hrun]
      cases current with
      | true => exact ⟨w₁, hsame, rfl⟩
      | false =>
        -- without a catalog the command is compiled as before
        have hforgot := (modifyConnection_same (n := n) (w := w)
          (f := fun c : Engine.Connection => { c with catalog := none }) fun _ _ => by rfl) w₁ hsame
        obtain ⟨conn₁, hconn₁, hfunctions₁, _⟩ := hsame.1.undisturbed
        have hconn₂ := modifyConnection_get hconn₁
          fun c : Engine.Connection => { c with catalog := none }
        rw [if_neg (by simp)]
        refine ⟨_, hforgot, ?_⟩
        show (compileWithCatalog ⟨n.connection, j, hooks⟩ command (left + 1)).run.run
          ((World.modifyConnection n.connection fun c => { c with catalog := none }).run w₁).2 = _
        unfold compileWithCatalog
        rw [run_bind_ok (connectionOf_run hconn₂)]
        dsimp only
        rw [hfunctions₁, hresult]
        simp only [Option.isNone_none, if_true, if_neg hfault]
        rfl

/-- A text of a nest is compiled alike in all worlds in which the nest can run. -/
theorem compileText_tableless {text : List Char}
    (htext : isTableless n.functions n.records text = true) :
    ∃ answer : Except Fault (Option Engine.Program × Nat),
      (∀ program stop, answer = .ok (some program, stop) → program.StaysIn n.records) ∧
      ∀ j w, n.Ready w → ∃ w', n.Same w w' ∧
        (compileText ⟨n.connection, j, hooks⟩ text).run.run w = (answer, w') := by
  -- before the text is read an interruption is settled, and there is none
  have hsettled {w : SessionWorld} (hw : n.Ready w) : ∃ conn,
      n.Same w ((settleInterrupt n.connection).run w).2 ∧ conn.interrupted = false ∧
        ((settleInterrupt n.connection).run w).2.connections.get? n.connection = some conn := by
    have hsame := settleInterrupt_same w ⟨hw, .refl n w⟩
    obtain ⟨conn, hconn, _, hcalm⟩ := hsame.1.undisturbed
    exact ⟨conn, hsame, hcalm, hconn⟩
  unfold isTableless at htext
  cases hfound : Sql.nextCommand text with
  | error e =>
    refine ⟨.error (.general e.message), (fun _ _ heq => by cases heq), fun j w hw => ?_⟩
    obtain ⟨conn, hsame, hcalm, hconn⟩ := hsettled hw
    refine ⟨_, hsame, ?_⟩
    unfold compileText
    rw [run_bind_ok (lift_run (settleInterrupt n.connection) w), run_bind_ok (connectionOf_run hconn)]
    simp only [hcalm, Bool.false_and, Bool.false_eq_true, if_false, hfound]
    rfl
  | ok found =>
    rw [hfound] at htext
    cases hcommand : found.command? with
    | none =>
      refine ⟨.ok (none, found.stop), (fun _ _ heq => by cases heq), fun j w hw => ?_⟩
      obtain ⟨conn, hsame, hcalm, hconn⟩ := hsettled hw
      refine ⟨_, hsame, ?_⟩
      unfold compileText
      rw [run_bind_ok (lift_run (settleInterrupt n.connection) w), run_bind_ok (connectionOf_run hconn)]
      simp only [hcalm, Bool.false_and, Bool.false_eq_true, if_false, hfound, hcommand]
      rfl
    | some command =>
      simp only [hcommand] at htext
      cases command with
      | query q =>
        obtain ⟨result, hresult, hne, hstays⟩ := compileCommand_tableless htext
        refine ⟨result.map fun program => (some program, found.stop), ?_, fun j w hw => ?_⟩
        · intro program stop heq
          cases result with
          | error fault => cases heq
          | ok program' =>
            cases heq
            exact hstays _ rfl
        obtain ⟨conn, hsame, hcalm, hconn⟩ := hsettled hw
        obtain ⟨w', hsame', hcompiled⟩ := compileWithCatalog_tableless h hresult hne 2 j hsame.1
        refine ⟨w', ⟨hsame'.1, hsame.2.trans hsame'.2⟩, ?_⟩
        unfold compileText
        rw [run_bind_ok (lift_run (settleInterrupt n.connection) w), run_bind_ok (connectionOf_run hconn)]
        simp only [hcalm, Bool.false_and, Bool.false_eq_true, if_false, hfound, hcommand]
        cases result with
        | error fault => exact run_bind_error hcompiled
        | ok program => exact run_bind_ok hcompiled
      | _ => cases htext

/-- The number of a new statement is tied to nothing yet. -/
structure Ties.Fresh (ties : Ties) (start : SessionWorld) (a b : Nat) : Prop where
  start : start.nextId ≤ a
  free : ∀ c d, ties.statements c d → c ≠ a ∧ d ≠ b

/-- How compiling a text of a nest ends in two worlds: with the same failure, with no statement, or
with a statement under a number of its own in each world. -/
inductive PreparedAlike (n : Nest) (start : SessionWorld) (ties : Ties) (w v : SessionWorld) :
    Except Fault (Option Nat × Nat) → Except Fault (Option Nat × Nat) → Prop where
  | failed (fault : Fault) (h : Alike n start ties w v) : PreparedAlike n start ties w v (.error fault)
    (.error fault)
  | empty (stop : Nat) (h : Alike n start ties w v) : PreparedAlike n start ties w v (.ok (none, stop))
    (.ok (none, stop))
  | statement (a b stop : Nat) (hfresh : ties.Fresh start a b)
    (h : Alike n start (ties.withStatement a b) w v) :
    PreparedAlike n start ties w v (.ok (some a, stop)) (.ok (some b, stop))

theorem prepare_alike {text : List Char} (htext : isTableless n.functions n.records text = true)
    {ties : Ties} {w v : SessionWorld} (halike : Alike n start ties w v) :
    PreparedAlike n start ties ((prepare hooks n.connection text).run w).2
      ((prepare hooks n.connection text).run v).2 ((prepare hooks n.connection text).run w).1
      ((prepare hooks n.connection text).run v).1 := by
  obtain ⟨answer, hstays, hcompile⟩ := compileText_tableless h htext
  obtain ⟨w₁, hsame, hrun⟩ := hcompile 0 w halike.agree.left
  obtain ⟨v₁, hsame', hrun'⟩ := hcompile 0 v halike.agree.right
  have hreset := modifyConnection_same (n := n) (w := w)
    (f := fun c : Engine.Connection => { c with asked := some 0 }) (fun _ _ => by rfl) w₁ hsame
  have hreset' := modifyConnection_same (n := n) (w := v)
    (f := fun c : Engine.Connection => { c with asked := some 0 }) (fun _ _ => by rfl) v₁ hsame'
  have hready := halike.unseen hreset.2 hreset'.2
  unfold prepare
  simp only [run_bind]
  rw [hrun, hrun']
  rcases answer with fault | ⟨_ | program, stop⟩
  · exact .failed fault hready
  · exact .empty stop hready
  · obtain ⟨haccess, plan, haction, hplan⟩ := hstays program stop rfl
    refine .statement _ _ stop ⟨hready.statements.still.1, fun c d htie => ?_⟩
      (hready.addStatement ⟨rfl, haccess, rfl, ⟨plan, haction, hplan⟩, rfl⟩)
    obtain ⟨_, hc, hd, _⟩ := hready.statements.counterpart c d htie
    exact ⟨Nat.ne_of_lt hc, Nat.ne_of_lt hd⟩

end Compiling

/-! ## Stepping -/

section Stepping

variable {n : Nest} {start : SessionWorld} {hooks : Hooks Host} {ties : Ties} {a b : Nat}

/-- What a nest does not see may happen on both sides. -/
theorem Parallel.unseen {α β : Type} {x : StateM SessionWorld α} {y : StateM SessionWorld β}
    (hx : ∀ w, Keeps (n.Same w) x) (hy : ∀ w, Keeps (n.Same w) y) :
    Parallel n start ties (fun _ _ _ => True) x y := fun w v halike =>
  ⟨ties, .refl ties, trivial, halike.unseen (hx w w ⟨halike.agree.left, .refl n w⟩).2
    (hy v v ⟨halike.agree.right, .refl n v⟩).2⟩

theorem modifyStatement_parallel (htie : ties.statements a b)
    {f : Engine.Statement → Engine.Statement} (hf : ∀ s, n.Runs s → n.Runs (f s)) :
    Parallel n start ties (fun _ _ _ => True) (World.modifyStatement a f)
      (World.modifyStatement b f) := fun _ _ halike =>
  ⟨ties, .refl ties, trivial, halike.modifyStatement htie hf⟩

theorem resetAsked_parallel :
    Parallel n start ties (fun _ _ _ => True) (resetAsked (H := Host) n.connection)
      (resetAsked n.connection) :=
  .unseen (fun _ => modifyConnection_same fun _ _ => by rfl)
    fun _ => modifyConnection_same fun _ _ => by rfl

theorem halt_parallel (htie : ties.statements a b) (fault? : Option Fault) :
    Parallel n start ties (fun _ p p' => p = p') (halt (H := Host) a fault?) (halt b fault?) := by
  unfold halt
  refine (modifyStatement_parallel htie fun s hs => ?_).bind fun _ _ _ _ _ => .pure rfl
  exact ⟨hs.connection, hs.access, hs.current, hs.query, rfl⟩

/-- A query that needs no volume settles nothing at its end. -/
theorem endStatement_tableless {program : Engine.Program} (haccess : program.access = .none)
    (scope : Scope Host) (before : Before) (fault? : Option Fault) :
    endStatement scope program before fault? = pure (fault?, fault?.isNone) := by
  unfold endStatement
  rw [if_pos haccess]

/-- A query changes no rows. -/
theorem countChanges_query {program : Engine.Program} {plan : Engine.Plan}
    (haction : program.action = .query plan) (c count : Nat) :
    countChanges (H := Host) c program count = pure () := by
  unfold countChanges
  rw [haction]

theorem finish_parallel (htie : ties.statements a b) {program : Engine.Program}
    (haccess : program.access = .none) (before : Before) (fault? : Option Fault) :
    Parallel n start ties (fun _ p p' => p = p')
      (finish ⟨n.connection, a, hooks⟩ program before fault?)
      (finish ⟨n.connection, b, hooks⟩ program before fault?) := by
  unfold finish
  rw [endStatement_tableless haccess, endStatement_tableless haccess]
  exact halt_parallel htie fault?

/-- Both statements that correspond are there, and they are the same. -/
theorem statement_parallel {α β : Type} {R : Ties → α → β → Prop} (htie : ties.statements a b)
    {f : SessionWorld → StateM SessionWorld α} {g : SessionWorld → StateM SessionWorld β}
    (hfg : ∀ w v s, w.statements.get? a = some s → v.statements.get? b = some s → n.Runs s →
      Parallel n start ties R (f w) (g v)) : Parallel n start ties R (get >>= f) (get >>= g) := by
  intro w v halike
  obtain ⟨_, _, _, s, hs, hs', hruns⟩ := halike.statements.counterpart a b htie
  exact hfg w v s hs hs' hruns w v halike

variable (h : HooksAlike n start hooks)

include h

theorem advance_parallel (htie : ties.statements a b) {program : Engine.Program}
    (hprogram : program.StaysIn n.records) {c : Cursor} (hc : c.staysIn n.records = true) :
    Parallel n start ties (fun _ p p' => p = p') (advance ⟨n.connection, a, hooks⟩ program c)
      (advance ⟨n.connection, b, hooks⟩ program c) := by
  unfold advance
  refine Parallel.bind (Alongside.parallel (Engine.Cursor.next_alongside h fuel c hc)) ?_
  rintro ties' hgrow found _ ⟨rfl, hfound⟩
  have htie' := hgrow.statements a b htie
  rcases found with fault | _ | ⟨row, c'⟩
  · exact finish_parallel htie' hprogram.1 _ _
  · exact finish_parallel htie' hprogram.1 _ _
  · refine (modifyStatement_parallel htie' fun s hs => ?_).bind fun _ _ _ _ _ => .pure rfl
    exact ⟨hs.connection, hs.access, hs.current, hs.query, hfound _ rfl _ _ rfl⟩

/-- A query that needs no volume begins at once. -/
theorem beginStatement_parallel (htie : ties.statements a b) {program : Engine.Program}
    (hprogram : program.StaysIn n.records) :
    Parallel n start ties (fun _ p p' => ∃ q, p = .progress q ∧ p' = .progress q)
      (beginStatement ⟨n.connection, a, hooks⟩ program)
      (beginStatement ⟨n.connection, b, hooks⟩ program) := by
  obtain ⟨haccess, plan, haction, hplan⟩ := hprogram
  have henter (ties : Ties) : Parallel n start ties (fun _ r r' => r = .ok true ∧ r' = .ok true)
      (enter ⟨n.connection, a, hooks⟩ program).run (enter ⟨n.connection, b, hooks⟩ program).run := by
    intro w v halike
    obtain ⟨conn, hconn, _, hcalm⟩ := halike.agree.left.undisturbed
    obtain ⟨conn', hconn', _, hcalm'⟩ := halike.agree.right.undisturbed
    rw [enter_tableless ⟨conn, hconn, hcalm⟩ haccess, enter_tableless ⟨conn', hconn', hcalm'⟩ haccess]
    exact ⟨ties, .refl ties, ⟨rfl, rfl⟩, halike⟩
  unfold beginStatement
  refine resetAsked_parallel.bind fun ties₁ hgrow₁ _ _ _ => ?_
  have htie₁ := hgrow₁.statements a b htie
  refine (modifyStatement_parallel htie₁ fun s hs => ?_).bind fun ties₂ hgrow₂ _ _ _ => ?_
  · exact ⟨hs.connection, hs.access, hs.current, hs.query, hs.cursor⟩
  refine (henter ties₂).bind ?_
  rintro ties₃ hgrow₃ _ _ ⟨rfl, rfl⟩
  have htie₃ := hgrow₃.statements a b (hgrow₂.statements a b htie₁)
  dsimp only
  rw [haction]
  refine (advance_parallel h htie₃ ⟨haccess, plan, haction, hplan⟩ (c := .idle plan) hplan).bind ?_
  rintro ties₄ _ q _ rfl
  exact .pure ⟨q, rfl, rfl⟩

theorem beginCurrent_parallel (htie : ties.statements a b) (left : Nat) :
    Parallel n start ties (fun _ p p' => p = p')
      (beginCurrent ⟨n.connection, a, hooks⟩ (left + 1))
      (beginCurrent ⟨n.connection, b, hooks⟩ (left + 1)) := by
  unfold beginCurrent
  refine statement_parallel htie fun w v s hs hs' hruns => ?_
  have hrefresh (scope : Scope Host) : refresh scope s = pure none := by
    unfold refresh
    rw [if_neg (Bool.eq_false_iff.mp hruns.current)]
  rw [hs, hs']
  dsimp only
  rw [hrefresh, hrefresh, pure_bind, pure_bind]
  refine (Parallel.unseen (fun _ => settleInterrupt_same) fun _ => settleInterrupt_same).bind
    fun ties' hgrow _ _ _ => ?_
  have htie' := hgrow.statements a b htie
  refine statement_parallel htie' fun w v s' hs hs' hruns' => ?_
  rw [hs, hs']
  refine (beginStatement_parallel h htie' ⟨hruns'.access, hruns'.query⟩).bind ?_
  rintro ties'' _ _ _ ⟨q, rfl, rfl⟩
  exact .pure rfl

/-- A step of a query of the nest ends in the same way in both worlds. -/
theorem step_parallel (htie : ties.statements a b) :
    Parallel n start ties (fun _ p p' => p = p') (Engine.step hooks a) (Engine.step hooks b) := by
  unfold Engine.step
  refine statement_parallel htie fun w v s hs hs' hruns => ?_
  rw [hs, hs']
  dsimp only
  rw [hruns.connection]
  have hprogram : s.program.StaysIn n.records := ⟨hruns.access, hruns.query⟩
  cases s.phase with
  | ready => exact beginCurrent_parallel h htie _
  | halted => exact beginCurrent_parallel h htie _
  | blocked =>
    refine (beginStatement_parallel h htie hprogram).bind ?_
    rintro ties' _ _ _ ⟨q, rfl, rfl⟩
    exact .pure rfl
  | running =>
    refine resetAsked_parallel.bind fun ties' hgrow _ _ _ => ?_
    refine Parallel.bind (Alongside.parallel checkInterrupt_alongside) ?_
    rintro ties'' hgrow' r _ ⟨rfl, _⟩
    have htie'' := hgrow'.statements a b (hgrow.statements a b htie)
    cases r with
    | error fault => exact finish_parallel htie'' hruns.access _ _
    | ok _ => exact advance_parallel h htie'' hprogram hruns.cursor

omit h in
/-- A statement of the nest is released in both worlds, and nothing corresponds to it any more. -/
theorem finalize_alike (hooks : Hooks Host) (hfresh : ties.Fresh start a b) {w v : SessionWorld}
    (halike : Alike n start (ties.withStatement a b) w v) :
    ((Engine.finalize hooks a).run w).1 = ((Engine.finalize hooks b).run v).1 ∧
      Alike n start ties ((Engine.finalize hooks a).run w).2 ((Engine.finalize hooks b).run v).2 := by
  obtain ⟨_, _, _, s, hs, hs', hruns⟩ := halike.statements.counterpart a b (.inr ⟨rfl, rfl⟩)
  obtain ⟨plan, haction, -⟩ := hruns.query
  have hrun {w : SessionWorld} {a : Nat} (hs : w.statements.get? a = some s) :
      (Engine.finalize hooks a).run w =
        (s.failure, { w with statements := Assoc.erase w.statements a }) := by
    unfold Engine.finalize
    rw [run_bind, run_get]
    dsimp only
    rw [hs]
    dsimp only
    rw [endStatement_tableless hruns.access, countChanges_query haction]
    split <;> rfl
  rw [hrun hs, hrun hs']
  exact ⟨rfl, (halike.weaken (ties.grow_withStatement a b)).eraseStatement hfresh.start hfresh.free⟩

end Stepping

end HostSql
