import HostSql.Proofs.Grouping.Feeding

/-!
# Plans that call a served aggregate

A grouping first reads all rows of its source, sorts them by key, and then serves one group whenever
a row is asked for. Without a grouping all rows of the source make up one group, which is there even
if there are none.

> `Cursor.next_groups`, `Cursor.start_group`: the next group of a grouping.
> `Cursor.start_total`: the one group without a grouping.
-/

namespace HostSql.Engine

variable {H : Type} {record : Nat} {a : Aggregation} {At : Standing → H → Prop} {scope : Scope H}

/-! ## Sources -/

/-- A cursor delivers the rows that are listed, without asking the host for anything. The number is
the fuel for the first of them. -/
inductive Yields (scope : Scope H) (w : World H) : Nat → Cursor → List Row → Prop where
  | none {n : Nat} {c : Cursor} (h : Unaided (c.next scope n) w none) : Yields scope w n c []
  | some {n : Nat} {c c' : Cursor} {r : Row} {rows : List Row}
    (h : Unaided (c.next scope (n + 1)) w (some (r, c'))) (hrest : Yields scope w n c' rows) :
    Yields scope w (n + 1) c (r :: rows)

theorem Yields.withHost {w : World H} {n : Nat} {c : Cursor} {rows : List Row}
    (h : Yields scope w n c rows) (host : H) : Yields scope { w with host := host } n c rows := by
  induction h with
  | none h => exact .none fun host' => h host'
  | some h _ ih => exact .some (fun host' => h host') ih

/-- The rows of a source with their keys. -/
def keyed (keys : KeyColumns) (row : Row) : Row × Row := (keys.keyOf row, row)

/-- The terms that read a key. -/
def KeyColumns.terms (keys : KeyColumns) : List (Term × Collation) :=
  keys.map fun k => (.column k.1, k.2)

theorem argsOf_keys (keys : KeyColumns) (row : Row) : argsOf (keys.map (·.1)) row = keys.keyOf row := by
  unfold argsOf KeyColumns.keyOf
  rw [List.map_map]
  rfl

/-- Draining a source gives its rows with their keys. -/
theorem drainKeyed_yields (keys : KeyColumns) {w : World H} {n : Nat} {c : Cursor} {rows : List Row}
    (h : Yields scope w n c rows) :
    Unaided (Cursor.drainKeyed scope (n + 1) (keys.terms.map (·.1)) c) w (rows.map (keyed keys)) := by
  have hterms : keys.terms.map (·.1) = (keys.map (·.1)).map .column := by
    unfold KeyColumns.terms
    rw [List.map_map, List.map_map]
    rfl
  induction h with
  | none hend =>
    simp only [Cursor.drainKeyed]
    exact hend.bind .return_run
  | @some n c c' row rows hnext hrest ih =>
    have hkey : Unaided (Term.evalAll scope row (keys.terms.map (·.1))) w (keys.keyOf row) := by
      rw [hterms, ← argsOf_keys]
      exact evalAll_columns scope row (keys.map (·.1)) w
    rw [Cursor.drainKeyed]
    exact hnext.bind (hkey.bind (ih.bind .return_run))

/-! ## Rows that are listed in a query -/

/-- Terms that are known. -/
theorem evalAll_values (scope : Scope H) (row ds : Row) (w : World H) :
    Unaided (Term.evalAll scope row (ds.map .value)) w ds := by
  induction ds with
  | nil =>
    simp only [List.map_nil, Term.evalAll]
    exact .return_run
  | cons d ds ih =>
    simp only [List.map_cons, Term.evalAll, Term.eval]
    exact Unaided.return_run.bind (ih.bind .return_run)

theorem next_values (scope : Scope H) (w : World H) (n : Nat) (row : Row) (rest : List (List Term)) :
    Unaided (Cursor.next scope (n + 1) (.values (row.map .value :: rest))) w
      (some (row, .values rest)) := by
  simp only [Cursor.next]
  exact (evalAll_values scope [] row w).bind .return_run

/-- The rows that are left of a list that is read in a loop. -/
theorem loop_rest_yields {w : World H} (hw : Undisturbed scope.connection w) (n : Nat)
    (rows : List Row) :
    Yields scope w (n + rows.length + 3) (.loop (.values (rows.map (·.map .value)))) rows := by
  have hlook {rows : List (List Term)} {n : Nat} {answer : Option (Row × Cursor)}
      (hsource : Unaided (Cursor.nextOfLoop scope n (.values rows)) w answer) :
      Unaided (Cursor.next scope (n + 1) (.loop (.values rows))) w answer := by
    simp only [Cursor.next]
    exact (checkInterrupt_undisturbed hw).bind hsource
  induction rows generalizing n with
  | nil =>
    refine .none (hlook ?_)
    simp only [List.map_nil, Cursor.nextOfLoop, Cursor.next]
    exact Unaided.return_run.bind .return_run
  | cons row rows ih =>
    refine .some ?_ (ih n)
    refine hlook ?_
    simp only [List.map_cons, Cursor.nextOfLoop]
    exact (next_values scope w _ row _).bind .return_run

/-- A list of rows that is read in a loop delivers them. -/
theorem loop_values_yields {w : World H} (hw : Undisturbed scope.connection w) (n : Nat)
    (rows : List Row) :
    Yields scope w (n + rows.length + 6) (.idle (.loop (.values (rows.map (·.map .value))))) rows := by
  cases rows with
  | nil =>
    refine .none ?_
    simp only [List.map_nil, Cursor.next, Cursor.start, Cursor.nextOfLoop]
    exact Unaided.return_run.bind .return_run
  | cons row rows =>
    have hrest := loop_rest_yields hw (n + 3) rows
    rw [show n + 3 + rows.length + 3 = n + rows.length + 6 by omega] at hrest
    refine .some ?_ hrest
    have hsource : Unaided (Cursor.next scope (n + (rows.length + 1) + 3)
        (.idle (.values ((row :: rows).map (·.map .value))))) w
        (some (row, .values (rows.map (·.map .value)))) := by
      simp only [Cursor.next, Cursor.start]
      exact next_values scope w _ row _
    have hloop : Unaided (Cursor.next scope (n + (rows.length + 1) + 6)
        (.idle (.loop (.values ((row :: rows).map (·.map .value)))))) w
        (some (row, .loop (.values (rows.map (·.map .value))))) := by
      simp only [Cursor.next, Cursor.start, Cursor.nextOfLoop]
      exact hsource.bind .return_run
    exact hloop

/-! ## Groups -/

section Serving

variable (h : Serves scope.hooks record a At) (columns : List Nat)

/-- What a plan delivers for a group: the row, and the cursor for what is left. -/
def deliveryOf (rest : Cursor) (row : Datum → Row) (answer : Except String Datum) :
    Except Fault (Option (Row × Cursor)) :=
  (answer.mapError .general).map fun d => some (row d, rest)

section Grouping

variable (keys : KeyColumns) {w : World H} {s : Standing}

/-- A grouping half way through, with the sorted rows that are left. -/
def groupsCursor (record : Nat) (columns : List Nat) (keys : KeyColumns) (rows : List Row) : Cursor :=
  .groups (keys.map (·.2)) [callOf record columns] (rows.map (keyed keys))

include h

/-- The next group is the first class of the rows that are left. -/
theorem next_groups {row : Row} {members : List Row} {rest : List (List Row)}
    (hclasses : Ascending keys.order ((row :: members) :: rest)) (hs : At s w.host)
    (hstart : s.count = 0 ∧ s.state = []) (hw : Undisturbed scope.connection w) (n : Nat) :
    let args := (row :: members).map (argsOf columns)
    Hosted (Cursor.next scope (n + 1)
        (groupsCursor record columns keys (row :: members ++ rest.flatten))).run w
      (deliveryOf (groupsCursor record columns keys rest.flatten) (row ++ [·]) (a.value args))
      (At (s.served a record args)) := by
  intro args
  have hmembers : (keyed keys row :: (members ++ rest.flatten).map (keyed keys)).takeWhile
      (fun p => rowOrder (keys.map (·.2)) (keyed keys row).1 p.1 == .eq) =
        (row :: members).map (keyed keys) := by
    rw [← List.map_cons, List.takeWhile_map]
    exact congrArg _ (hclasses.takeWhile_cons (a := row) List.mem_cons_self)
  have hleft : (keyed keys row :: (members ++ rest.flatten).map (keyed keys)).dropWhile
      (fun p => rowOrder (keys.map (·.2)) (keyed keys row).1 p.1 == .eq) =
        rest.flatten.map (keyed keys) := by
    rw [← List.map_cons, List.dropWhile_map]
    exact congrArg _ (hclasses.dropWhile_cons (a := row) List.mem_cons_self)
  have hrows : ((row :: members).map (keyed keys)).map (·.2) = row :: members := by
    rw [List.map_map]
    exact List.map_id _
  have hrun := runGroup_served h columns (row :: members) hs hw
  rw [hstart.1, hstart.2, ← begin_eq columns hstart.1] at hrun
  unfold groupsCursor
  rw [List.cons_append, List.map_cons]
  simp only [Cursor.next]
  rw [hmembers, hleft, hrows]
  unfold Aggregation.value
  cases hvalue : a.valueFrom 0 [] ((row :: members).map (argsOf columns)) with
  | ok d =>
    rw [hvalue] at hrun
    exact hrun.bind_ok fun _ hserved => .return_run hserved
  | error message =>
    rw [hvalue] at hrun
    exact hrun.bind_error

omit h in
/-- Sorted by key, rows are in the order of their keys. -/
theorem sort_keyed (rows : List Row) :
    ((rows.map (keyed keys)).mergeSort fun x y => rowOrder (keys.map (·.2)) x.1 y.1 != .gt) =
      (ascending keys.order rows).map (keyed keys) := by
  unfold ascending
  refine (List.map_mergeSort ?_).symm
  exact fun _ _ _ _ => rfl

omit h in
/-- A grouping begins with its sorted rows. -/
theorem start_group {source : Plan} {n : Nat} {rows : List Row}
    (hsource : Yields scope w n (.idle source) rows) (host : H) :
    (Cursor.start scope (n + 2) (.group keys.terms [callOf record columns] source)).run.run
        { w with host := host } =
      (Cursor.next scope (n + 1)
        (groupsCursor record columns keys (ascending keys.order rows))).run.run
        { w with host := host } := by
  have hcollations : keys.terms.map (·.2) = keys.map (·.2) := by
    unfold KeyColumns.terms
    rw [List.map_map]
    rfl
  unfold groupsCursor
  simp only [Cursor.start]
  rw [run_bind_ok (drainKeyed_yields keys hsource host), hcollations, sort_keyed]

end Grouping

/-! ## All rows -/

include h in
/-- Feeding all rows of a source. -/
theorem feedTotal_served {w : World H} {n : Nat} {c : Cursor} {rows : List Row}
    (hsource : Yields scope w n c rows) :
    ∀ (s : Standing) (first : Option Row) (host : H), At s host →
      let args := rows.map (argsOf columns)
      Hosted (Cursor.feedTotal scope (n + 1) [feedingAt record columns s] first c).run
        { w with host := host }
        (((a.valueFrom s.count s.state args).mapError .general).map fun d =>
          (first.or rows.head?, [d]))
        (At (s.served a record args)) := by
  induction hsource with
  | none hend =>
    intro s first host hs args
    have hfirst : first.or none = first := Option.or_none
    simp only [Cursor.feedTotal, List.head?_nil, hfirst]
    refine ((hend.attempt.withHost host).hosted hs).bind_ok fun host' hs => ?_
    have hconclude := concludeAll_served h columns (w := { w with host := host' }) hs
    dsimp only at hconclude
    show Hosted _ _ (((a.atEnd s.count s.state).answer.mapError Fault.general).map _) _
    cases hanswer : (a.atEnd s.count s.state).answer with
    | ok d =>
      rw [hanswer] at hconclude
      exact hconclude.bind_ok fun _ hended => .return_run hended
    | error message =>
      rw [hanswer] at hconclude
      exact hconclude.bind_error
  | @some n c c' row rows hnext hrest ih =>
    intro s first host hs args
    rw [Cursor.feedTotal]
    refine ((hnext.attempt.withHost host).hosted hs).bind_ok fun host' hs => ?_
    have hfed := feedAll_served h columns (w := { w with host := host' }) hs row
    refine Hosted.bind_ok hfed.lift fun host' hs' => ?_
    show Hosted _ _ ((Except.mapError _ (a.valueFrom s.count s.state
      (argsOf columns row :: rows.map (argsOf columns)))).map _)
      (At (s.served a record (argsOf columns row :: rows.map (argsOf columns))))
    rw [Standing.served]
    cases hanswer : (a.onRow (argsOf columns row) (s.count + 1) s.state).answer with
    | ok d =>
      rw [Aggregation.valueFrom_ok hanswer]
      have hfirst : Option.or (first <|> some row) rows.head? = first.or (some row) := by
        cases first <;> rfl
      have hrest := ih _ (first <|> some row) host' hs'
      rw [hfirst] at hrest
      exact hrest
    | error message =>
      rw [Aggregation.valueFrom_error hanswer]
      have hcount : (s.fed record (argsOf columns row)
          (a.onRow (argsOf columns row) (s.count + 1) s.state)).count ≠ 0 := Nat.succ_ne_zero s.count
      refine Hosted.bind_ok (abandon_served h columns hs' hcount).lift fun host' hended => ?_
      exact ⟨host', rfl, hended⟩

include h in
/-- Without a grouping there is one group of all rows. -/
theorem start_total {w : World H} {n : Nat} {source : Plan} {rows : List Row}
    (hsource : Yields scope w n (.idle source) rows) {s : Standing} (hs : At s w.host)
    (hstart : s.count = 0 ∧ s.state = []) (width : Nat) :
    let args := rows.map (argsOf columns)
    Hosted (Cursor.start scope (n + 2) (.total [callOf record columns] width source)).run w
      (deliveryOf .done (rows.head?.getD (List.replicate width .null) ++ [·]) (a.value args))
      (At (s.served a record args)) := by
  intro args
  have hrun := feedTotal_served h columns hsource s none w.host hs
  dsimp only at hrun
  rw [hstart.1, hstart.2, ← begin_eq columns hstart.1] at hrun
  simp only [Cursor.start]
  unfold Aggregation.value
  cases hvalue : a.valueFrom 0 [] (rows.map (argsOf columns)) with
  | ok d =>
    rw [hvalue] at hrun
    exact hrun.bind_ok fun _ hserved => .return_run hserved
  | error message =>
    rw [hvalue] at hrun
    exact hrun.bind_error

end Serving

/-! ## Columns of a plan -/

/-- A plan's rows cut to some columns. -/
theorem next_project (outs : List Nat) {w : World H} {n : Nat} {c rest : Cursor} {row : Datum → Row}
    {answer : Except String Datum} {P : H → Prop}
    (hnext : Hosted (c.next scope n).run w (deliveryOf rest row answer) P) :
    Hosted (Cursor.next scope (n + 1) (.project (outs.map .column) c)).run w
      (deliveryOf (.project (outs.map .column) rest) (fun d => argsOf outs (row d)) answer) P := by
  rw [Cursor.next]
  cases answer with
  | ok d =>
    refine hnext.bind_ok fun h hP => ?_
    exact (((evalAll_columns scope (row d) outs w).withHost h).hosted hP).bind_ok fun _ hP =>
      .return_run hP
  | error message => exact hnext.bind_error

/-- A plan of some columns that has come to its end. -/
theorem next_project_done (outs : List Nat) {w : World H} {n : Nat} {c : Cursor}
    (hnext : Unaided (c.next scope n) w none) :
    Unaided (Cursor.next scope (n + 1) (.project (outs.map .column) c)) w none := by
  rw [Cursor.next]
  exact hnext.bind .return_run

/-! ## What a query delivers -/

/-- A group of a query: the arguments of its rows, and the row that is delivered for its result. -/
structure Portion where
  args : List (List Datum)
  row : Datum → Row

/-- A cursor serves one group whenever it is asked for a row. -/
inductive Supplies (scope : Scope H) (record : Nat) (a : Aggregation) (At : Standing → H → Prop) :
    Cursor → List Portion → Prop where
  | done {c : Cursor}
    (h : ∀ w, Undisturbed scope.connection w → Unaided (c.next scope fuel) w none) :
    Supplies scope record a At c []
  | next {c c' : Cursor} {p : Portion} {rest : List Portion}
    (h : ∀ w s, Undisturbed scope.connection w → At s w.host → s.count = 0 ∧ s.state = [] →
      Hosted (c.next scope fuel).run w (deliveryOf c' p.row (a.value p.args))
        (At (s.served a record p.args)))
    (hrest : Supplies scope record a At c' rest) : Supplies scope record a At c (p :: rest)

/-- A query that calls an aggregate: the columns that are its arguments, and the columns that are
delivered, of a row followed by the result. -/
structure AggregateQuery where
  args : List Nat
  outs : List Nat
  source : Plan

namespace AggregateQuery

variable (q : AggregateQuery) (keys : KeyColumns)

/-- The group of a class of rows. It is delivered with the first of them. -/
def portion (rows : List Row) : Portion where
  args := rows.map (argsOf q.args)
  row d := argsOf q.outs (rows.headD [] ++ [d])

/-- The query with its rows grouped by key. -/
def grouped (record : Nat) : Plan :=
  .project (q.outs.map .column) (.group keys.terms [callOf record q.args] q.source)

/-- The query without a grouping, over rows of a given width. -/
def ungrouped (record width : Nat) : Plan :=
  .project (q.outs.map .column) (.total [callOf record q.args] width q.source)

/-- Without a grouping all rows are one group. If there are none, it is delivered with a row of
NULLs. -/
def whole (width : Nat) (rows : List Row) : Portion where
  args := rows.map (argsOf q.args)
  row d := argsOf q.outs (rows.head?.getD (List.replicate width .null) ++ [d])

/-- The supply of fuel for reading the source. -/
def sourceFuel : Nat := 999999994

theorem fuel_eq : fuel = sourceFuel + 6 := rfl

section Supply

variable {q} {keys} (h : Serves scope.hooks record a At)

include h

/-- A grouping half way through supplies the classes that are left. -/
theorem groups_supplies {classes : List (List Row)} (hclasses : Ascending keys.order classes) :
    Supplies scope record a At
      (.project (q.outs.map .column) (groupsCursor record q.args keys classes.flatten))
      (classes.map q.portion) := by
  induction classes with
  | nil =>
    refine .done fun w _ => ?_
    rw [fuel_eq]
    exact next_project_done q.outs (by simp only [groupsCursor, Cursor.next]; exact .return_run)
  | cons c rest ih =>
    refine .next (fun w s hw hs hstart => ?_) (ih hclasses.tail)
    cases c with
    | nil => exact absurd rfl (hclasses.nonempty [] List.mem_cons_self)
    | cons row members =>
      rw [fuel_eq]
      exact next_project q.outs (next_groups h q.args keys hclasses hs hstart hw _)

/-- A grouping supplies its classes. -/
theorem grouped_supplies {classes : List (List Row)} (hclasses : Ascending keys.order classes)
    {rows : List Row} (hrows : classes.flatten = ascending keys.order rows)
    (hsource : ∀ w, Undisturbed scope.connection w →
      Yields scope w sourceFuel (.idle q.source) rows) :
    Supplies scope record a At (.idle (q.grouped keys record)) (classes.map q.portion) := by
  have hplan : Cursor.next scope fuel (.idle (q.grouped keys record)) =
      Cursor.next scope (sourceFuel + 4) (.project (q.outs.map .column)
        (.idle (.group keys.terms [callOf record q.args] q.source))) := by
    simp only [fuel_eq, grouped, Cursor.next, Cursor.start]
  have hgroups (w : World H) (hw : Undisturbed scope.connection w) (host : H) :
      (Cursor.next scope (sourceFuel + 3)
          (.idle (.group keys.terms [callOf record q.args] q.source))).run.run
          { w with host := host } =
        (Cursor.next scope (sourceFuel + 1)
          (groupsCursor record q.args keys classes.flatten)).run.run { w with host := host } := by
    rw [Cursor.next, hrows]
    exact start_group q.args keys (hsource w hw) host
  cases classes with
  | nil =>
    refine .done fun w hw => ?_
    rw [hplan]
    refine next_project_done q.outs fun host => ?_
    rw [hgroups w hw]
    simp only [groupsCursor, List.flatten_nil, List.map_nil, Cursor.next]
    rfl
  | cons c rest =>
    refine .next (fun w s hw hs hstart => ?_) (groups_supplies h hclasses.tail)
    cases c with
    | nil => exact absurd rfl (hclasses.nonempty [] List.mem_cons_self)
    | cons row members =>
      rw [hplan]
      refine next_project q.outs (Hosted.congr ?_ (hgroups w hw w.host))
      exact next_groups h q.args keys hclasses hs hstart hw sourceFuel

/-- Without a grouping all rows are supplied as one group. -/
theorem ungrouped_supplies (width : Nat) {rows : List Row}
    (hsource : ∀ w, Undisturbed scope.connection w →
      Yields scope w sourceFuel (.idle q.source) rows) :
    Supplies scope record a At (.idle (q.ungrouped record width)) [q.whole width rows] := by
  have hplan : Cursor.next scope fuel (.idle (q.ungrouped record width)) =
      Cursor.next scope (sourceFuel + 4) (.project (q.outs.map .column)
        (.idle (.total [callOf record q.args] width q.source))) := by
    simp only [fuel_eq, ungrouped, Cursor.next, Cursor.start]
  have hend : Supplies scope record a At (.project (q.outs.map .column) .done) [] := by
    refine .done fun w _ => ?_
    rw [fuel_eq]
    exact next_project_done q.outs (by rw [Cursor.next]; exact .return_run)
  refine .next (fun w s hw hs hstart => ?_) hend
  rw [hplan]
  refine next_project q.outs ?_
  rw [Cursor.next]
  exact start_total h q.args (hsource w hw) hs hstart width

end Supply

end AggregateQuery

end HostSql.Engine
