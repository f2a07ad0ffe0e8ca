import HostSql.Proofs.Callback.Results
import HostSql.Proofs.Decoding
import HostSql.Proofs.Grouping.Query

/-!
# Queries of fixed values

Terms with fixed values have them in every row and every world (`Fixed`). A query of such terms has one
row, and a query that calls a function of the host on them asks the host for just that call first.

> `query_fixed`: the row of a query of fixed terms is the texts of their values.
> `query_asks`: the first thing that a query of a call asks the host for is the call, with those values.

What comes first is read off the ledger of requests: what a query does later only adds to it (`Adds`), so
only the way to the first request has to be followed (`AsksFirst`). For aggregates that is the first
row of the group.
-/

namespace HostSql

open Engine

namespace Engine

variable {H α β : Type} {hooks : Hooks H}

/-! ## First requests -/

/-- A computation that only adds to the ledger. -/
def Adds (y : LedgerM hooks α) : Prop := ∀ t, ∃ new, (y.run t).2.host.own = t.host.own ++ new

/-- What a computation asks for first, before the host has changed. -/
def AsksFirst (request : HostRequest) (y : LedgerM hooks α) (t : World (Ledger hooks)) : Prop :=
  ∃ before more, (y.run t).2.host.own = t.host.own ++ ⟨request, before⟩ :: more ∧
    before.host = t.host.env

theorem Orderly.adds {may : Licence} {fault? : α → Option Fault} {x : StateM (World H) α}
    {y : LedgerM hooks α} (h : Orderly may fault? x y) : Adds y := by
  intro t
  obtain ⟨-, new, hnew, -⟩ := h.faithful t
  exact ⟨new, hnew⟩

theorem Calm.adds {may : Licence} {x : StateM (World H) α} {y : LedgerM hooks α}
    (h : Calm may x y) : Adds y := by
  intro t
  exact ⟨[], (h.quiet t).2.trans (List.append_nil _).symm⟩

theorem Adds.pure (a : α) : @Adds H α hooks (Pure.pure a) := fun _ =>
  ⟨[], (List.append_nil _).symm⟩

theorem Adds.bind {y : LedgerM hooks α} {g : α → LedgerM hooks β} (hy : Adds y)
    (hg : ∀ a, Adds (g a)) : Adds (y >>= g) := by
  intro t
  obtain ⟨new, hnew⟩ := hy t
  obtain ⟨new', hnew'⟩ := hg (y.run t).1 (y.run t).2
  rw [run_bind]
  exact ⟨new ++ new', by rw [hnew', hnew, List.append_assoc]⟩

namespace AsksFirst

variable {request : HostRequest} {t : World (Ledger hooks)}

theorem bind {y : LedgerM hooks α} {g : α → LedgerM hooks β} (hy : AsksFirst request y t)
    (hg : ∀ a, Adds (g a)) : AsksFirst request (y >>= g) t := by
  obtain ⟨before, more, hown, hhost⟩ := hy
  obtain ⟨new, hnew⟩ := hg (y.run t).1 (y.run t).2
  refine ⟨before, more ++ new, ?_, hhost⟩
  rw [run_bind, hnew, hown, List.append_assoc, List.cons_append]

theorem run_bind' {y : Run (Ledger hooks) α} {g : α → Run (Ledger hooks) β}
    (hy : AsksFirst request y.run t) (hg : ∀ a, Adds (g a).run) : AsksFirst request (y >>= g).run t := by
  show AsksFirst request (y.run >>= ExceptT.bindCont g) t
  refine hy.bind fun result => ?_
  cases result with
  | ok a => exact hg a
  | error fault => exact fun t => ⟨[], (List.append_nil _).symm⟩

theorem lift {y : LedgerM hooks α} (hy : AsksFirst request y t) :
    AsksFirst request (liftM y : Run (Ledger hooks) α).run t := hy

/-- What comes first and does not touch the host may be left out. -/
theorem congr {y : LedgerM hooks α} {z : LedgerM hooks β} {t' : World (Ledger hooks)}
    (hz : AsksFirst request z t') (hhost : t'.host = t.host)
    (h : (y.run t).2.host.own = (z.run t').2.host.own) : AsksFirst request y t := by
  obtain ⟨before, more, hown, hbefore⟩ := hz
  exact ⟨before, more, by rw [h, hown, hhost], by rw [hbefore, hhost]⟩

end AsksFirst

/-! ## Queries of fixed terms -/

/-- Terms with fixed values. -/
def Fixed (ts : List Term) (ds : List Datum) : Prop :=
  ∀ (H : Type) (scope : Scope H) (row : Row) (w : World H), Unaided (Term.evalAll scope row ts) w ds

/-- A query whose row has fixed values. -/
def fixedQuery (ts : List Term) : Plan := .project ts (.rows [[]])

/-- A query that calls a function of the host once, on fixed values. -/
def callQuery (aggregate : Bool) (record : Nat) (ts : List Term) : Plan :=
  if aggregate then .project [.column 0] (.total [⟨.host record, ts, false⟩] 0 (.rows [[]]))
  else .project [.host record ts] (.rows [[]])

section Cursors

variable {scope : Scope H} {ts : List Term} {ds : List Datum} {n : Nat}

theorem next_single (w : World H) :
    Unaided (Cursor.next scope (n + 3) (.idle (.rows [[]]))) w (some ([], .rows [])) := by
  simp only [Cursor.next, Cursor.start]
  exact .return_run

/-- The row of a query of fixed terms. -/
theorem next_fixed (h : Fixed ts ds) (w : World H) :
    Unaided (Cursor.next scope (n + 6) (.idle (fixedQuery ts))) w
      (some (ds, .project ts (.rows []))) := by
  unfold fixedQuery
  simp only [Cursor.next, Cursor.start]
  exact Unaided.return_run.bind ((h H scope [] w).bind .return_run)

theorem next_after (w : World H) :
    Unaided (Cursor.next scope (n + 2) (.project ts (.rows []))) w none := by
  simp only [Cursor.next]
  exact Unaided.return_run.bind .return_run

/-- What comes first without the host may be left out. -/
theorem AsksFirst.unaided {request : HostRequest} {y : Run (Ledger hooks) α}
    {g : α → Run (Ledger hooks) β} {a : α} {t : World (Ledger hooks)} (hy : Unaided y t a)
    (hg : AsksFirst request (g a).run t) : AsksFirst request (y >>= g).run t :=
  hg.congr rfl (by rw [run_bind_ok hy.run])

theorem note_asks (request : HostRequest) (t : World (Ledger hooks)) :
    AsksFirst request (hooks.note request) t :=
  ⟨t.plain, [], rfl, rfl⟩

theorem callHost_asks (record : Nat) (t : World (Ledger scope.hooks)) :
    AsksFirst (.call record none ds) (callHost scope.noting record ds).run t := by
  unfold callHost
  refine AsksFirst.run_bind' (@note_asks H scope.hooks _ t).lift fun reply t => ?_
  cases reply.result <;> exact ⟨[], (List.append_nil _).symm⟩

theorem feed_asks (h : Fixed ts ds) (record : Nat) (row : Row) (t : World (Ledger scope.hooks)) :
    AsksFirst (.call record none ds)
      (Feeding.feed scope.noting row (Feeding.begin ⟨.host record, ts, false⟩)) t := by
  have htake : AsksFirst (.call record none ds)
      (Feeding.take scope.noting (Feeding.begin ⟨.host record, ts, false⟩) ds) t := by
    refine (@note_asks H scope.hooks _ t).bind fun reply => ?_
    cases reply.result <;> exact .pure _
  refine htake.congr rfl ?_
  unfold Feeding.feed
  rw [run_bind, show (Term.evalAll scope.noting row (Feeding.begin ⟨.host record, ts, false⟩).call.args).run.run t = _ from
    (h _ _ _ t).run]
  rfl

theorem feedTotal_asks (h : Fixed ts ds) (record : Nat) (t : World (Ledger scope.hooks)) :
    AsksFirst (.call record none ds) (Cursor.feedTotal scope.noting (n + 4)
      [Feeding.begin ⟨.host record, ts, false⟩] none (.idle (.rows [[]]))).run t := by
  rw [Cursor.feedTotal]
  refine AsksFirst.unaided (next_single t).attempt ?_
  have hfed : AsksFirst (.call record none ds) (Feeding.feedAll scope.noting []
      [Feeding.begin ⟨.host record, ts, false⟩]) t := by
    unfold Feeding.feedAll
    refine (feed_asks h record [] t).bind ?_
    rintro ⟨f, fault?⟩
    cases fault? with
    | some fault => exact .pure _
    | none => exact .pure _
  refine hfed.lift.run_bind' ?_
  rintro ⟨fs, fault?⟩
  cases fault? with
  | some fault => exact (@Feeding.abandon_resigns H .full _ scope fs fault).orderly.adds
  | none => exact (@Cursor.feedTotal_orderly H .full scope (n + 3) fs _ _).adds

/-- A call in a query of its own asks for just that first. -/
theorem next_asks (h : Fixed ts ds) (aggregate : Bool) (record : Nat)
    (t : World (Ledger scope.hooks)) :
    AsksFirst (.call record none ds)
      (Cursor.next scope.noting (n + 9) (.idle (callQuery aggregate record ts))).run t := by
  cases aggregate with
  | false =>
    simp only [callQuery, Bool.false_eq_true, if_false, Cursor.next, Cursor.start]
    refine AsksFirst.unaided .return_run ?_
    simp only [Term.evalAll, Term.eval]
    have hcall : AsksFirst (.call record none ds)
        (Term.evalAll scope.noting [] ts >>= callHost scope.noting record).run t :=
      .unaided (h _ _ _ t) (callHost_asks record t)
    exact (hcall.run_bind' fun d => .pure _).run_bind' fun row => .pure _
  | true =>
    simp only [callQuery, if_true, Cursor.next, Cursor.start]
    have htotal := (feedTotal_asks (n := n) h record t).run_bind' (g := fun x => pure
      (some (x.1.getD (List.replicate 0 Datum.null) ++ x.2, Cursor.done))) fun _ => .pure _
    refine htotal.run_bind' fun found => ?_
    cases found with
    | none => exact .pure _
    | some found => exact .pure _

end Cursors

/-! ## Steps -/

variable {k j : Nat} {columns : List (String × Option String)} {e : Statement} {w : World H}
  {ts : List Term} {ds : List Datum}

/-- A statement that calls a function asks for just that first. -/
theorem step_asks (hooks : Hooks H) (he : Tableless k j columns e w) {aggregate : Bool} {record : Nat}
    (hgoes : e.GoesOn (.idle (callQuery aggregate record ts))) (h : Fixed ts ds) :
    ∃ before more, stepRequests hooks j w = ⟨.call record none ds, before⟩ :: more ∧
      before.host = w.host := by
  have hnoted : Tableless k j columns e (w.noted ([] : List (HostNote hooks))) :=
    ⟨he.undisturbed, he.found, he.connection, he.access, he.columns⟩
  obtain ⟨e', t, -, hhost, hstep⟩ := @Tableless.step _ hooks.noting _ _ _ _ _ _ hnoted hgoes
  have hasks : AsksFirst (.call record none ds)
      (advance ⟨k, j, hooks.noting⟩ e'.program (.idle (callQuery aggregate record ts))) t := by
    unfold advance
    refine (@next_asks H ⟨k, j, hooks⟩ ts ds 999999991 h aggregate record t).bind ?_
    intro result
    match result with
    | .ok (some (row, c)) =>
      exact ((@modifyStatement_calm H hooks .full j _ (.inl rfl)).bind fun _ => Calm.pure _).adds
    | .ok none => exact (@finish_calm H true ⟨k, j, hooks⟩ e'.program _ none).adds
    | .error fault => exact (@finish_calm H true ⟨k, j, hooks⟩ e'.program _ (some fault)).adds
  obtain ⟨before, more, hown, hbefore⟩ := hasks
  refine ⟨before, more, ?_, by rw [hbefore, hhost]; rfl⟩
  unfold stepRequests
  rw [hstep, hown, hhost]
  rfl

/-! ## Compiling a query -/

/-- The first command of a text is a query of a certain plan, where certain functions are known. -/
structure Plans (functions : List HostFunction) (text : List Char) (plan : Plan)
    (columns : List (String × Option String)) : Prop where
  compiles : ∃ q stop atEnd, Sql.nextCommand text = .ok ⟨some (.query q), stop, atEnd⟩ ∧
    ∀ catalog writable, compileCommand ⟨functions, catalog, writable⟩ (.query q) =
      .ok ⟨.query plan, columns, .none, none⟩

/-- A query that needs no tables is ready once it is compiled. -/
theorem prepare_planned (hooks : Hooks H) {conn : Connection} (hconn : w.connections.get? k = some conn)
    (hcalm : conn.interrupted = false) {text : List Char} {plan : Plan}
    (h : Plans conn.functions text plan columns) :
    ∃ n stop e' w', (prepare hooks k text).run w = (.ok (some n, stop), w') ∧
      Tableless k n columns e' w' ∧ e'.GoesOn (.idle plan) ∧ w'.host = w.host := by
  obtain ⟨q, stop, atEnd, hcommand, hcompile⟩ := h
  have hsettled : ((settleInterrupt k).run w).2.connections.get? k = some conn := by
    unfold settleInterrupt
    rw [run_bind, run_get]
    split
    · show Assoc.get? (Assoc.update w.connections k fun c => { c with interrupted := false }) k = _
      rw [Assoc.get?_update_self, hconn]
      obtain ⟨⟩ := conn
      cases hcalm
      rfl
    · exact hconn
  have htext : (compileText ⟨k, 0, hooks⟩ text).run.run w =
      (.ok (some ⟨.query plan, columns, .none, none⟩, stop), w.settled k) := by
    unfold compileText
    rw [run_bind_ok (lift_run (settleInterrupt k) w), run_bind_ok (connectionOf_run hsettled)]
    simp only [hcalm, Bool.false_and, Bool.false_eq_true, if_false, hcommand]
    have hprogram : (compileWithCatalog ⟨k, 0, hooks⟩ (.query q) maxCatalogReads).run.run
        ((settleInterrupt k).run w).2 = (.ok ⟨.query plan, columns, .none, none⟩, w.settled k) := by
      unfold maxCatalogReads compileWithCatalog
      rw [run_bind_ok (connectionOf_run hsettled), hcompile]
      rfl
    rw [run_bind_ok hprogram]
    rfl
  have hstart : Undisturbed k (w.settled k) := ⟨conn, hsettled, hcalm⟩
  have hreset : Undisturbed k ((resetAsked k).run (w.settled k)).2 :=
    World.modifyConnection_undisturbed hstart fun _ h => h
  let w₁ := ((resetAsked k).run (w.settled k)).2
  let e : Statement :=
    { connection := k, program := ⟨.query plan, columns, .none, none⟩, text := text.take stop,
      expired := false, phase := .ready, cursor := .done, row := [], failure := none,
      tripped := false }
  refine ⟨w₁.nextId, stop, e,
    { w₁ with nextId := w₁.nextId + 1, statements := Assoc.set w₁.statements w₁.nextId e }, ?_,
    ⟨hreset, Assoc.get?_set_self _ _ _, rfl, rfl, rfl⟩, .inr ⟨.inl rfl, rfl, plan, rfl, rfl⟩,
    settled_host w⟩
  unfold prepare
  rw [run_bind, htext]
  rfl

end Engine

/-! ## Queries on a connection -/

section Queries

variable {hooks : Hooks Host} {k : Nat} {c : Connection} {conn : Engine.Connection} {w : SessionWorld}
  {sql : String} {plan : Plan} {columns : List (String × Option String)} {ts : List Term}
  {ds : List Datum}

/-- A connection of an engine on which nothing is to be interrupted. -/
structure Uninterrupted (c : Connection) (conn : Engine.Connection) (w : SessionWorld) : Prop where
  found : ∃ k, c.native? = some k ∧ w.connections.get? k = some conn
  calm : conn.interrupted = false

theorem compile_planned (hooks : Hooks Host) (h : Uninterrupted c conn w) (hsql : nulError? sql = none)
    (hplans : Plans conn.functions sql.toList plan columns) :
    ∃ k j e remainder w', (c.compile (native hooks) sql).run w = (.ok (.new (some j), remainder), w') ∧
      Tableless k j columns e w' ∧ e.GoesOn (.idle plan) ∧ w'.host = w.host := by
  obtain ⟨⟨k, hk, hconn⟩, hcalm⟩ := h
  obtain ⟨j, stop, e, w', hrun, he, hgoes, hhost⟩ :=
    prepare_planned hooks hconn hcalm hplans
  have hnative : ((native hooks).prepare k sql).run w =
      (.ok (some j, Utf8.size (sql.toList.take stop)), w') := by
    show StateT.run (_ >>= _) w = _
    rw [run_bind, hrun]
    rfl
  refine ⟨k, j, e, Connection.textAfter sql (Utf8.size (sql.toList.take stop)), w', ?_, he, hgoes,
    hhost⟩
  unfold Connection.compile Connection.withNative
  rw [hk]
  simp only [run_bind]
  unfold Connection.prepare
  rw [hsql]
  simp only [run_bind]
  rw [hnative]
  rfl

/-- A query of a call asks the host for just that first. -/
theorem query_asks (hooks : Hooks Host) (h : Uninterrupted c conn w) (hsql : nulError? sql = none) {aggregate : Bool} {record : Nat}
    (hplans : Plans conn.functions sql.toList (callQuery aggregate record ts) columns)
    (hts : Fixed ts ds) :
    ∃ before more, c.queryRequests hooks sql w = ⟨.call record none ds, before⟩ :: more ∧
      before.host = w.host := by
  obtain ⟨k, j, e, remainder, w', hrun, he, hgoes, hhost⟩ :=
    compile_planned hooks h hsql hplans
  obtain ⟨before, more, hasks, hbefore⟩ := step_asks hooks he hgoes hts
  have hfirst : ∃ later, c.queryRequests hooks sql w = stepRequests hooks j w' ++ later := by
    unfold Connection.queryRequests
    rw [hrun]
    dsimp only
    unfold Statement.maxRows
    rw [Statement.collectRequests]
    exact ⟨_, rfl⟩
  obtain ⟨later, hfirst⟩ := hfirst
  exact ⟨before, more ++ later, by rw [hfirst, hasks, List.cons_append], hbefore.trans hhost⟩

/-- A query of fixed terms has one row, with the texts of their values. -/
theorem query_fixed (hooks : Hooks Host) (h : Uninterrupted c conn w) (hsql : nulError? sql = none)
    (hplans : Plans conn.functions sql.toList (fixedQuery ts) columns) (hts : Fixed ts ds)
    (hwidth : columns.length = ds.length) :
    ∃ remainder, ((c.query (native hooks) sql).run w).1 =
      .finished ⟨[ds.map Datum.readText?], columns.map (·.1), columns.map (·.2), remainder⟩ := by
  obtain ⟨k, j, e, remainder, w', hrun, he, hgoes, hhost⟩ :=
    compile_planned hooks h hsql hplans
  have hfirst (w'' : SessionWorld) (hw : Undisturbed k w'') (hh : w''.host = w'.host) :
      Hosted (Cursor.next ⟨k, j, hooks⟩ fuel (.idle (fixedQuery ts))).run w''
        (.ok (some (ds, .project ts (.rows [])))) fun _ => True :=
    (next_fixed (n := 999999994) hts w'').hosted trivial
  obtain ⟨e₁, w₁, he₁, hgoes₁, -, hstep₁⟩ :=
    step_delivers Host.services (.inl rfl) he hgoes hfirst
  have hsecond (w'' : SessionWorld) (hw : Undisturbed k w'') (hh : w''.host = w₁.host) :
      Hosted (Cursor.next ⟨k, j, hooks⟩ fuel (.project ts (.rows []))).run w'' (.ok none)
        fun _ => True :=
    (next_after (n := 999999998) w'').hosted trivial
  obtain ⟨w₂, -, hstep₂⟩ := step_finishes Host.services (.inr rfl) he₁ hgoes₁ hsecond
  have hrow : shownRow columns.length ds = ds.map Datum.readText? := by
    unfold shownRow
    rw [hwidth]
    refine List.ext_getElem (by simp) fun i hi hi' => ?_
    have hi : i < ds.length := by simpa using hi'
    simp [List.getD_eq_getElem?_getD, List.getElem?_eq_getElem hi]
  have hcollect : ((Statement.new (some j)).collect (native hooks) [] Statement.maxRows).run w' =
      ((.ok ⟨none, columns.map (·.1), columns.map (·.2)⟩, [ds.map Datum.readText?],
        .knowing j columns), w₂) := by
    unfold Statement.maxRows
    rw [Statement.collect, run_bind]
    unfold native
    rw [hstep₁, hrow]
    dsimp only
    rw [Statement.collect, run_bind, hstep₂]
    rfl
  refine ⟨remainder, ?_⟩
  unfold Connection.query
  rw [run_bind, hrun]
  simp only [run_bind]
  rw [hcollect]
  rfl

end Queries

end HostSql
