import HostSql.Connection
import HostSql.Proofs.Invariance
import HostSql.Proofs.Statement.Release

/-!
# What connections and statements keep

Connections and statements work on any engine, so what its calls keep, they keep as well. A call that
releases a statement may need that nothing else depends on it: `Native.Keeps` says which statements are
spare, and that those which the engine has just compiled are. A command or a query releases only what
it has compiled itself.

> `Connection.query_keeps`, `Connection.execute_keeps`: queries and commands keep what the engine keeps.
-/

namespace HostSql

variable {σ : Type}

/-- Reading the columns of a statement keeps an invariant. -/
structure Native.Reads (n : Native σ) (I : σ → Prop) : Prop where
  columnCount : ∀ k, HostSql.Keeps I (n.columnCount k)
  columnName : ∀ k i, HostSql.Keeps I (n.columnName k i)
  columnType : ∀ k i, HostSql.Keeps I (n.columnType k i)
  columnText : ∀ k i, HostSql.Keeps I (n.columnText k i)

/-- What the engine has compiled, if it has compiled something, is spare. -/
def Prepared {ε ι : Type} (spare : Nat → Prop) (result : Except ε (Option Nat × ι)) : Prop :=
  ∀ statement used, result = .ok (some statement, used) → spare statement

/-- The calls of an engine keep an invariant; only spare statements are released. -/
structure Native.Keeps (n : Native σ) (I : σ → Prop) (spare : Nat → Prop) : Prop extends
    Native.Reads n I where
  isOpen : ∀ k, HostSql.Keeps I (n.isOpen k)
  prepare : ∀ k sql, KeepsGiving I (Prepared spare) (n.prepare k sql)
  execute : ∀ k sql, HostSql.Keeps I (n.execute k sql)
  interrupt : ∀ k, HostSql.Keeps I (n.interrupt k)
  declareType : ∀ record type, HostSql.Keeps I (n.declareType record type)
  step : ∀ k, HostSql.Keeps I (n.step k)
  finalize : ∀ k, spare k → HostSql.Keeps I (n.finalize k)
  log : ∀ r, HostSql.Keeps I (n.log r)

/-- A statement that can be released. -/
def Statement.Releasable (spare : Nat → Prop) (s : Statement) : Prop :=
  ∀ k, s.vm = .live k → spare k

/-- An answer whose statement, if there is one, can be released. -/
def AnswersReleasable (spare : Nat → Prop) (answer : Except Error (Statement × String)) : Prop :=
  ∀ s remainder, answer = .ok (s, remainder) → s.Releasable spare

/-! ## Statements -/

section Reading

variable {n : Native σ} {I : σ → Prop} (h : n.Reads I)

include h

theorem Statement.withColumns_keeps (k : Nat) (s : Statement) : Keeps I (s.withColumns n k) := by
  have hnames (indices : List Nat) : Keeps I (indices.mapM (n.columnName k)) :=
    .mapM (h.columnName k) indices
  have htypes (indices : List Nat) : Keeps I (indices.mapM (n.columnType k)) :=
    .mapM (h.columnType k) indices
  unfold withColumns
  refine (h.columnCount k).bind fun count => ?_
  cases s.columns with
  | none =>
    refine (hnames _).bind fun columns => ?_
    cases s.types with
    | none => exact Keeps.bind (htypes _) fun types => .pure _
    | some types => exact .pure _
  | some columns =>
    refine (Keeps.pure columns).bind fun columns => ?_
    cases s.types with
    | none => exact Keeps.bind (htypes _) fun types => .pure _
    | some types => exact .pure _

theorem Statement.succeed_keeps (k : Nat) (hasRow : Bool) (s : Statement) :
    Keeps I (s.succeed n k hasRow) := by
  unfold succeed
  refine (s.withColumns_keeps h k).bind fun read => ?_
  cases hasRow with
  | false => exact .pure _
  | true =>
    refine Keeps.bind (.map some (Keeps.mapM (fun i => h.columnText k i) _)) fun row => ?_
    exact .pure _

end Reading

section Calls

variable {n : Native σ} {I : σ → Prop} {spare : Nat → Prop} (h : n.Keeps I spare)

include h

theorem Statement.drop_keeps {s : Statement} (hs : s.Releasable spare) : Keeps I (s.drop n) := by
  unfold drop
  cases hvm : s.vm with
  | live k => exact (h.finalize k (hs k hvm)).bind fun _ => .pure ()
  | empty => exact .pure ()
  | finalized => exact .pure ()

/-- A step releases its statement or leaves it as it was. -/
theorem Statement.step_keeps {s : Statement} (hs : s.Releasable spare) :
    KeepsGiving I (fun answer => answer.2.Releasable spare) (s.step n) := by
  unfold Statement.step
  cases hvm : s.vm with
  | finalized => exact .pure hs
  | empty =>
    refine .pure fun k hlive => ?_
    exact hs k hlive
  | live k =>
    refine .bind (h.step k).giving fun status _ => ?_
    dsimp only
    split
    · refine .bind (P := fun answer => answer.2.vm = s.vm)
        (fun w hw => ⟨(s.succeed_answer _ k _ w).2, s.succeed_keeps h.toReads k _ w hw⟩)
        fun answer hanswer => ?_
      refine .pure fun j hlive => hs j ?_
      rw [← hanswer]
      exact hlive
    · refine .bind (P := fun answer => answer.2.Releasable spare) ?_ fun answer hanswer => .pure hanswer
      unfold Statement.fail
      dsimp only
      split
      · exact .pure hs
      split
      · refine .bind (h.finalize k (hs k hvm)).giving fun _ _ => ?_
        exact .bind (h.log _).giving fun _ _ => .pure nofun
      · exact .bind (h.log _).giving fun _ _ => .pure hs

/-- Releasing a statement on demand. -/
theorem Statement.finalize_keeps {s : Statement} (hs : s.Releasable spare) :
    Keeps I (s.finalize n) := by
  unfold Statement.finalize
  dsimp only
  cases hvm : s.vm with
  | finalized => exact .pure _
  | empty => exact .pure _
  | live k =>
    refine (h.finalize k (hs k hvm)).bind fun failure? => ?_
    cases failure? with
    | none => exact .pure _
    | some failure => exact .pure _

theorem Statement.collect_keeps (left : Nat) : ∀ {s : Statement} (rows : List (List (Option String))),
    s.Releasable spare →
      KeepsGiving I (fun answer => answer.2.2.Releasable spare) (s.collect n rows left) := by
  induction left with
  | zero => exact fun rows hs => .pure hs
  | succ left ih =>
    intro s rows hs
    unfold collect
    refine .bind (Statement.step_keeps h hs) fun stepped hstepped => ?_
    obtain ⟨result, s'⟩ := stepped
    cases result with
    | error e => exact .pure hstepped
    | ok r =>
      dsimp only
      cases r.row with
      | none => exact .pure hstepped
      | some row => exact ih _ hstepped

/-! ## Connections -/

theorem Connection.execute_keeps (c : Connection) (sql : String) : Keeps I (c.execute n sql) := by
  unfold Connection.execute Connection.withNative
  cases c.native? with
  | none => exact .pure _
  | some k =>
    dsimp only
    cases nulError? sql with
    | some reason => exact .pure _
    | none =>
      refine (h.execute k sql).bind fun failure? => ?_
      cases failure? with
      | none => exact .pure _
      | some failure => exact .pure _

theorem Connection.compile_keeps (c : Connection) (sql : String) :
    KeepsGiving I (AnswersReleasable spare) (c.compile n sql) := by
  have hrefused (e : Error) : KeepsGiving I (AnswersReleasable spare) (do
      n.log (.of .debug "compile failed" [("error", e.display)])
      return .error e) := .bind (h.log _).giving fun _ _ => .pure nofun
  unfold Connection.compile Connection.withNative
  cases c.native? with
  | none => exact .pure nofun
  | some k =>
    have hprepare : KeepsGiving I (Prepared spare) (Connection.prepare n k sql) := by
      unfold Connection.prepare
      cases nulError? sql with
      | some reason => exact .pure nofun
      | none =>
        refine .bind (h.prepare k sql) fun result hresult => ?_
        cases result with
        | error failure => exact .pure nofun
        | ok found => exact .pure fun statement used heq => hresult statement used (by cases heq; rfl)
    refine .bind hprepare fun result hresult => ?_
    rcases result with e | ⟨statement?, used⟩
    · exact hrefused e
    · refine .pure ?_
      rintro s remainder heq k hvm
      cases heq
      cases statement? with
      | none => exact nomatch hvm
      | some statement =>
        cases hvm
        exact hresult _ used rfl

theorem Connection.query_keeps (c : Connection) (sql : String) : Keeps I (c.query n sql) := by
  unfold query
  refine .bind_of (Connection.compile_keeps h c sql) fun answer hanswer => ?_
  rcases answer with e | ⟨s, remainder⟩
  · exact .pure _
  · refine .bind_of (Statement.collect_keeps h _ [] (hanswer s remainder rfl)) fun ended hended => ?_
    obtain ⟨last, rows, s'⟩ := ended
    refine (Statement.drop_keeps h hended).bind fun _ => ?_
    cases last with
    | error e => exact .pure _
    | ok r => exact .pure _

theorem Connection.declare_keeps (c : Connection) (name : String) (type : ResultType) :
    Keeps I (c.declare n name type) := by
  unfold Connection.declare Connection.withNative
  cases c.native? with
  | none => exact .pure _
  | some k =>
    refine .ite (.pure _) (Keeps.bind ?_ fun _ => .pure _)
    exact .forM (fun record => h.declareType record type) _

theorem InterruptHandle.interrupt_keeps (i : InterruptHandle) : Keeps I (i.interrupt n) :=
  (h.isOpen i.connection).bind fun _ => .ite (h.interrupt i.connection) (.pure ())

end Calls

end HostSql
