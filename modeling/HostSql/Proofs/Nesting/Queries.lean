import HostSql.Proofs.Nesting.Running

/-!
# Answers to nested queries

A closure sees a query as its connection answers it: the text is compiled, the statement is stepped
for its rows and their columns, and dropped. The same query of a nest is followed here in two worlds
that the nest cannot tell apart. As long as it is stepped a statement is held in each world, under a
number of its own (`Held`); what it tells of itself is the same in both.

> `query_coupled`: a query of the nest has the same answer in both worlds, and they stay alike.
-/

namespace HostSql

open Engine

variable {n : Nest} {start w v : SessionWorld} {hooks : Hooks Host} {ties : Ties} {a b : Nat}

/-! ## Columns and rows -/

/-- The columns that a statement tells of: those it knows already, or else those of the engine's
statement. -/
def Statement.namesOf (e : Engine.Statement) (s : Statement) : List String :=
  s.columns.getD ((List.range e.program.columns.length).map fun i =>
    ((e.program.columns[i]?).map (·.1)).getD "")

/-- The types that a statement tells of. -/
def Statement.typesOf (e : Engine.Statement) (s : Statement) : List (Option String) :=
  s.types.getD ((List.range e.program.columns.length).map fun i =>
    (e.program.columns[i]?).bind (·.2))

/-- A statement that knows the columns that it tells of. -/
def Statement.informed (e : Engine.Statement) (s : Statement) : Statement :=
  { s with columns := some (s.namesOf e), types := some (s.typesOf e) }

/-- What a statement tells at a success. -/
def Statement.told (e : Engine.Statement) (hasRow : Bool) (s : Statement) : StepResult :=
  ⟨if hasRow then some ((List.range (s.namesOf e).length).map fun i =>
    (e.row[i]?).bind (·.readText?)) else none, s.namesOf e, s.typesOf e⟩

section Telling

variable {e : Engine.Statement} (he : w.statements.get? a = some e) (s : Statement)

include he

theorem withColumns_run :
    (s.withColumns (native hooks) a).run w = ((s.namesOf e, s.typesOf e, s.informed e), w) := by
  have hcount : ((native hooks).columnCount a).run w = (e.program.columns.length, w) :=
    ofStatement_run he _ _
  have hnames := mapM_reads (fun i => show ((native hooks).columnName a i).run w = _ from
    ofStatement_run he _ _) (List.range e.program.columns.length)
  have htypes := mapM_reads (fun i => show ((native hooks).columnType a i).run w = _ from
    ofStatement_run he _ _) (List.range e.program.columns.length)
  unfold Statement.withColumns Statement.informed Statement.namesOf Statement.typesOf
  rw [run_bind, hcount]
  cases s.columns with
  | some columns =>
    cases s.types with
    | some types => rfl
    | none =>
      dsimp only
      rw [pure_bind, run_bind, htypes]
      rfl
  | none =>
    dsimp only
    rw [run_bind, hnames]
    cases s.types with
    | some types => rfl
    | none =>
      dsimp only
      rw [run_bind, htypes]
      rfl

theorem succeed_run (hasRow : Bool) :
    (s.succeed (native hooks) a hasRow).run w = ((s.told e hasRow, s.informed e), w) := by
  unfold Statement.succeed Statement.told
  rw [run_bind, withColumns_run he]
  cases hasRow with
  | false => rfl
  | true =>
    have hrow := mapM_reads (fun i => show ((native hooks).columnText a i).run w = _ from
      ofStatement_run he _ _) (List.range (s.namesOf e).length)
    have hrow' : (some <$> (List.range (s.namesOf e).length).mapM ((native hooks).columnText a)).run w =
        (some _, w) := congrArg (Prod.map some id) hrow
    dsimp only
    rw [if_pos rfl, run_bind, hrow']
    rfl

end Telling

/-! ## Statements that are held -/

/-- A reader's statements in two worlds: they stand for statements of the engine that correspond, or
there is nothing left to be released. -/
inductive Held (n : Nest) (start : SessionWorld) (ties : Ties) (w v : SessionWorld) :
    Statement → Statement → Prop where
  | live {a b : Nat} (columns? : Option (List String)) (types? : Option (List (Option String)))
    (hfresh : ties.Fresh start a b) (h : Alike n start (ties.withStatement a b) w v) :
    Held n start ties w v ⟨.live a, columns?, types?⟩ ⟨.live b, columns?, types?⟩
  | spent (s : Statement) (hs : ∀ k, s.vm ≠ .live k) (h : Alike n start ties w v) :
    Held n start ties w v s s

/-- The host takes log records, which closures do not see. -/
theorem log_same (hooks : Hooks Host) (r : LogRecord) : Keeps (n.Same w) ((native hooks).log r) := by
  rintro w' ⟨hready, hunseen⟩
  have hstep : n.Unseen w' (((native hooks).log r).run w').2 := ⟨rfl, rfl, rfl, rfl, rfl, fun h => h⟩
  exact ⟨hready.unseen hstep, hunseen.trans hstep⟩

theorem log_coupled (hooks : Hooks Host) (r : LogRecord) :
    Coupled (Alike n start ties) ((native hooks).log r) ((native hooks).log r) := fun w v halike =>
  ⟨rfl, halike.unseen (log_same hooks r w ⟨halike.agree.left, .refl n w⟩).2
    (log_same hooks r v ⟨halike.agree.right, .refl n v⟩).2⟩

/-- A failure is reported alike; unless it leaves the statement usable, it is released. -/
theorem fail_held (hooks : Hooks Host) (hfresh : ties.Fresh start a b) (halike : Alike n start (ties.withStatement a b) w v)
    (status : NativeStatus) (columns? : Option (List String)) (types? : Option (List (Option String))) :
    let x := (Statement.fail (native hooks) a status ⟨.live a, columns?, types?⟩).run w
    let y := (Statement.fail (native hooks) b status ⟨.live b, columns?, types?⟩).run v
    x.1.1 = y.1.1 ∧ Held n start ties x.2 y.2 x.1.2 y.1.2 := by
  obtain ⟨_, hreleased⟩ := finalize_alike hooks hfresh halike
  unfold Statement.fail
  dsimp only
  split
  · exact ⟨rfl, .live _ _ hfresh halike⟩
  split
  · refine ⟨rfl, .spent _ nofun ?_⟩
    exact (log_coupled hooks _ _ _ hreleased).2
  · exact ⟨rfl, .live _ _ hfresh (log_coupled hooks _ _ _ halike).2⟩

section Collecting

variable (h : HooksAlike n start hooks) {s s' : Statement}

include h

/-- A step of statements that are held tells the same, and they are still held. -/
theorem step_held (hheld : Held n start ties w v s s') :
    let x := (s.step (native hooks)).run w
    let y := (s'.step (native hooks)).run v
    x.1.1 = y.1.1 ∧ Held n start ties x.2 y.2 x.1.2 y.1.2 := by
  cases hheld with
  | spent s hs halike =>
    unfold Statement.step
    cases hvm : s.vm with
    | live k => exact absurd hvm (hs k)
    | empty =>
      refine ⟨rfl, .spent _ ?_ halike⟩
      intro k hk
      exact hs k hk
    | finalized => exact ⟨rfl, .spent _ hs halike⟩
  | @live a b columns? types? hfresh halike =>
    have htie : (ties.withStatement a b).statements a b := .inr ⟨rfl, rfl⟩
    obtain ⟨ties', hgrow, hprogress, hnext⟩ := step_parallel h htie w v halike
    have hnative (a : Nat) (w : SessionWorld) : ((native hooks).step a).run w =
        (((Engine.step hooks a).run w).1.toNative, ((Engine.step hooks a).run w).2) := rfl
    have hnative' := hnative b v
    rw [← hprogress] at hnative'
    by_cases hcode : ((Engine.step hooks a).run w).1.toNative.succeeded = true
    · obtain ⟨_, _, _, e, he, he', _⟩ :=
        hnext.statements.counterpart a b (hgrow.statements a b htie)
      rw [step_of_succeeded _ rfl (hnative a w) hcode, step_of_succeeded _ rfl hnative' hcode]
      dsimp only
      rw [succeed_run he, succeed_run he']
      exact ⟨rfl, .live _ _ hfresh (hnext.weaken hgrow)⟩
    · rw [step_of_failed _ rfl (hnative a w) (Bool.eq_false_iff.mpr hcode),
        step_of_failed _ rfl hnative' (Bool.eq_false_iff.mpr hcode)]
      have hfailed := fail_held hooks hfresh (hnext.weaken hgrow)
        ((Engine.step hooks a).run w).1.toNative columns? types?
      exact ⟨congrArg Except.error hfailed.1, hfailed.2⟩

/-- The rows that are collected are the same. -/
theorem collect_held (left : Nat) : ∀ {w v : SessionWorld} {s s' : Statement}
    (rows : List (List (Option String))), Held n start ties w v s s' →
    let x := (s.collect (native hooks) rows left).run w
    let y := (s'.collect (native hooks) rows left).run v
    x.1.1 = y.1.1 ∧ x.1.2.1 = y.1.2.1 ∧ Held n start ties x.2 y.2 x.1.2.2 y.1.2.2 := by
  induction left with
  | zero =>
    intro w v s s' rows hheld
    refine ⟨?_, rfl, hheld⟩
    cases hheld <;> rfl
  | succ left ih =>
    intro w v s s' rows hheld
    obtain ⟨hanswer, hheld'⟩ := step_held h hheld
    unfold Statement.collect
    simp only [run_bind]
    generalize (s.step (native hooks)).run w = x at hanswer hheld' ⊢
    generalize (s'.step (native hooks)).run v = y at hanswer hheld' ⊢
    obtain ⟨⟨result, t⟩, w'⟩ := x
    obtain ⟨⟨result', t'⟩, v'⟩ := y
    obtain rfl : result = result' := hanswer
    cases result with
    | error e => exact ⟨rfl, rfl, hheld'⟩
    | ok r =>
      dsimp only
      cases r.row with
      | none => exact ⟨rfl, rfl, hheld'⟩
      | some row => exact ih (rows ++ [row]) hheld'

omit h in
/-- Statements that are held are dropped. -/
theorem drop_held (hooks : Hooks Host) (hheld : Held n start ties w v s s') :
    Alike n start ties ((s.drop (native hooks)).run w).2 ((s'.drop (native hooks)).run v).2 := by
  cases hheld with
  | spent s hs halike =>
    unfold Statement.drop
    cases hvm : s.vm with
    | live k => exact absurd hvm (hs k)
    | empty => exact halike
    | finalized => exact halike
  | live columns? types? hfresh halike => exact (finalize_alike hooks hfresh halike).2

end Collecting

/-! ## Queries -/

section Querying

variable (h : HooksAlike n start hooks)

include h

/-- How compiling a query of the nest ends in two worlds: it is rejected in the same way, or a
statement is held in each. -/
inductive CompiledAlike (n : Nest) (start : SessionWorld) (ties : Ties) (w v : SessionWorld) :
    Except Error (Statement × String) → Except Error (Statement × String) → Prop where
  | rejected (e : Error) (h : Alike n start ties w v) :
    CompiledAlike n start ties w v (.error e) (.error e)
  | held (s s' : Statement) (remainder : String) (h : Held n start ties w v s s') :
    CompiledAlike n start ties w v (.ok (s, remainder)) (.ok (s', remainder))

theorem compile_alike {c : Connection} (hc : c.native? = some n.connection) {sql : String}
    (hsql : isTableless n.functions n.records sql.toList = true) (halike : Alike n start ties w v) :
    CompiledAlike n start ties ((c.compile (native hooks) sql).run w).2
      ((c.compile (native hooks) sql).run v).2 ((c.compile (native hooks) sql).run w).1
      ((c.compile (native hooks) sql).run v).1 := by
  have hprepared := prepare_alike h hsql halike
  unfold Connection.compile Connection.withNative
  rw [hc]
  unfold Connection.prepare
  dsimp only
  cases nulError? sql with
  | some reason => exact .rejected _ (log_coupled hooks _ _ _ halike).2
  | none =>
    show CompiledAlike n start ties _ _ _ _
    dsimp only [native, nativeOn]
    simp only [run_bind]
    generalize (Engine.prepare hooks n.connection sql.toList).run w = x at hprepared ⊢
    generalize (Engine.prepare hooks n.connection sql.toList).run v = y at hprepared ⊢
    obtain ⟨answer, w'⟩ := x
    obtain ⟨answer', v'⟩ := y
    cases hprepared with
    | failed fault halike => exact .rejected _ (log_coupled hooks _ _ _ halike).2
    | empty stop halike => exact .held _ _ _ (.spent _ nofun halike)
    | statement a b stop hfresh halike => exact .held _ _ _ (.live _ _ hfresh halike)

/-- A query of the nest has the same answer in both worlds. -/
theorem query_coupled {sql : String} (hsql : isTableless n.functions n.records sql.toList = true) :
    Coupled (Alike n start ties) ((ambient (native hooks)).query n.name sql)
      ((ambient (native hooks)).query n.name sql) := by
  intro w v halike
  obtain ⟨c, hc, hnative⟩ := halike.agree.left.opened
  have hc' : v.host.connections.get? n.name = some c := halike.agree.connection.symm.trans hc
  have hcompiled := compile_alike h hnative hsql halike
  simp only [ambient, withConnection, run_bind, run_get]
  rw [hc, hc']
  dsimp only
  unfold Connection.query
  simp only [run_bind]
  generalize (c.compile (native hooks) sql).run w = x at hcompiled ⊢
  generalize (c.compile (native hooks) sql).run v = y at hcompiled ⊢
  obtain ⟨answer, w'⟩ := x
  obtain ⟨answer', v'⟩ := y
  cases hcompiled with
  | rejected e halike => exact ⟨rfl, halike⟩
  | held s s' remainder hheld =>
    have hcollected := collect_held h Statement.maxRows [] hheld
    dsimp only at hcollected ⊢
    simp only [run_bind]
    generalize (s.collect (native hooks) [] Statement.maxRows).run w' = x at hcollected ⊢
    generalize (s'.collect (native hooks) [] Statement.maxRows).run v' = y at hcollected ⊢
    obtain ⟨⟨last, rows, t⟩, w''⟩ := x
    obtain ⟨⟨last', rows', t'⟩, v''⟩ := y
    obtain ⟨rfl, rfl, hheld'⟩ := hcollected
    have hdropped := drop_held hooks hheld'
    cases last <;> exact ⟨rfl, hdropped⟩

end Querying

end HostSql
