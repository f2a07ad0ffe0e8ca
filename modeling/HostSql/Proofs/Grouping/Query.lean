import HostSql.Proofs.Busy.Beginning
import HostSql.Proofs.Grouping.Plans
import HostSql.Proofs.Statement.Rows

/-!
# Queries that call an aggregate

A query that reads no table needs no volume, so a step of it begins at once and does nothing but run
its cursor (`Tableless.step`). What the statement then tells are the columns that it was compiled
with and the row that the cursor has found; a failure releases the statement.

> `collect_supplied`: collecting the rows of a query serves its groups one after the other, up to the
> first that fails, and the rows are those of the groups before.
-/

namespace HostSql

open Engine

namespace Engine

variable {H : Type} {hooks : Hooks H} {k j : Nat} {columns : List (String × Option String)}

/-! ## Steps of a query without tables -/

/-- A statement of certain columns that needs no volume, in a connection that is not interrupted. -/
structure Tableless (k j : Nat) (columns : List (String × Option String)) (s : Statement)
    (w : World H) : Prop where
  undisturbed : Undisturbed k w
  found : w.statements.get? j = some s
  connection : s.connection = k
  access : s.program.access = .none
  columns : s.program.columns = columns

/-- The next step of a statement goes on with a cursor. -/
def Statement.GoesOn (s : Statement) (c : Cursor) : Prop :=
  s.phase = .running ∧ s.cursor = c ∨
    (s.phase = .ready ∨ s.phase = .halted) ∧ s.expired = false ∧
      ∃ plan, s.program.action = .query plan ∧ c = .idle plan

theorem World.modifyConnection_undisturbed {w : World H} (h : Undisturbed k w)
    {f : Connection → Connection} (hf : ∀ conn, conn.interrupted = false → (f conn).interrupted = false) :
    Undisturbed k ((World.modifyConnection k f).run w).2 := by
  obtain ⟨conn, hconn, hcalm⟩ := h
  refine ⟨f conn, ?_, hf conn hcalm⟩
  exact (Assoc.get?_update_self _ _ _).trans (congrArg (Option.map f) hconn)

/-- A statement that needs no volume begins at once. -/
theorem enter_tableless {program : Program} {w : World H} (hw : Undisturbed k w)
    (haccess : program.access = .none) :
    (enter ⟨k, j, hooks⟩ program).run.run w = (.ok true, w) := by
  have hcheck : Unaided (checkInterrupt ⟨k, j, hooks⟩) w () := checkInterrupt_undisturbed hw
  have hclaims : program.claims = .none := by
    unfold Program.claims
    rw [haccess, ite_self]
  have hclaim : (claim ⟨k, j, hooks⟩ program.claims false).run.run w = (.ok (), w) := by
    rw [hclaims]
    rfl
  unfold enter isCurrent
  rw [run_bind_ok hcheck.run, run_bind_ok hclaim, hclaims]
  rfl

theorem settled_undisturbed {w : World H} (hw : Undisturbed k w) : Undisturbed k (w.settled k) := by
  unfold World.settled settleInterrupt
  rw [run_bind, run_get]
  split
  · exact World.modifyConnection_undisturbed hw fun _ _ => rfl
  · exact hw

theorem settled_host (w : World H) : (w.settled k).host = w.host := by
  unfold World.settled settleInterrupt
  rw [run_bind, run_get]
  split <;> rfl

/-- A change of a statement without tables that leaves its program. -/
theorem Tableless.modify {s : Statement} {w : World H} (h : Tableless k j columns s w)
    {f : Statement → Statement} (hconnection : (f s).connection = s.connection)
    (hprogram : (f s).program = s.program) :
    Tableless k j columns (f s) ((World.modifyStatement j f).run w).2 where
  undisturbed := h.undisturbed
  found := (Assoc.get?_update_self _ _ _).trans (congrArg (Option.map f) h.found)
  connection := hconnection.trans h.connection
  access := by rw [hprogram, h.access]
  columns := by rw [hprogram, h.columns]

/-- A step runs the cursor, in a world whose host is as it was. -/
theorem Tableless.step {s : Statement} {c : Cursor} {w : World H} (h : Tableless k j columns s w)
    (hs : s.GoesOn c) :
    ∃ s' w', Tableless k j columns s' w' ∧ w'.host = w.host ∧
      (step hooks j).run w = (advance ⟨k, j, hooks⟩ s'.program c).run w' := by
  have hreset {w : World H} (hw : Undisturbed k w) : Undisturbed k (w.withNext k (some 0)) :=
    World.modifyConnection_undisturbed hw fun _ h => h
  obtain ⟨hw, hfound, rfl, haccess, hcolumns⟩ := h
  rcases hs with ⟨hphase, rfl⟩ | ⟨hphase, hexpired, plan, haction, rfl⟩
  · have hready := hreset hw
    have hcheck : Unaided (checkInterrupt ⟨s.connection, j, hooks⟩)
        (w.withNext s.connection (some 0)) () := checkInterrupt_undisturbed hready
    refine ⟨s, w.withNext s.connection (some 0), ⟨hready, hfound, rfl, haccess, hcolumns⟩, rfl, ?_⟩
    unfold Engine.step
    rw [run_bind, run_get]
    simp only [hfound, hphase]
    rw [run_bind]
    show StateT.run (_ >>= _) (w.withNext s.connection (some 0)) = _
    rw [run_bind, hcheck.run]
  · have hblocked : s.phase ≠ .blocked := by
      rcases hphase with hphase | hphase <;> rw [hphase] <;> exact nofun
    have hrunning : s.phase ≠ .running := by
      rcases hphase with hphase | hphase <;> rw [hphase] <;> exact nofun
    have hstarting : w.starting s.connection s = w.settled s.connection := if_neg hblocked
    have hsettled := settled_undisturbed hw
    have htableless : Tableless s.connection j columns s.begun
        ((w.settled s.connection).begun s.connection j) := by
      refine Tableless.modify (f := Statement.begun) ⟨hreset hsettled, ?_, rfl, haccess, hcolumns⟩ rfl rfl
      exact (congrArg (Assoc.get? · j) (settled_statements w s.connection)).trans hfound
    refine ⟨s.begun, _, htableless, settled_host w, ?_⟩
    have henter : (enter ⟨s.connection, j, hooks⟩ s.begun.program).run.run
        ((w.settled s.connection).begun s.connection j) = (.ok true, _) :=
      enter_tableless htableless.undisturbed htableless.access
    rw [← hstarting] at henter ⊢
    rw [step_granted hfound ⟨rfl, .inr ⟨hrunning, hexpired⟩⟩ henter]
    have hprogram : s.begun.program = s.program := rfl
    unfold runProgram
    rw [hprogram, haction]

section Steps

variable {s : Statement} {c c' : Cursor} {row : Row} {w : World H} {P : H → Prop}
  (h : Tableless k j columns s w) (hs : s.GoesOn c)

include h hs

/-- A step that finds a row. -/
theorem step_row
    (hnext : ∀ w', Undisturbed k w' → w'.host = w.host →
      Hosted (c.next ⟨k, j, hooks⟩ fuel).run w' (.ok (some (row, c'))) P) :
    ∃ s' w', Tableless k j columns s' w' ∧ s'.GoesOn c' ∧ s'.row = row ∧ P w'.host ∧
      (step hooks j).run w = (.row, w') := by
  obtain ⟨s₁, w₁, h₁, hhost, hstep⟩ := h.step hs
  obtain ⟨host, hrun, hP⟩ := hnext w₁ h₁.undisturbed hhost
  have hadvance : Tableless k j columns s₁ { w₁ with host := host } := { h₁ with }
  let found (s : Statement) : Statement := { s with phase := .running, row := row, cursor := c' }
  refine ⟨found s₁, _, hadvance.modify (f := found) rfl rfl, .inl ⟨rfl, rfl⟩, rfl, hP, ?_⟩
  rw [hstep]
  unfold advance
  rw [run_bind, hrun]
  rfl

/-- A step that finds the end, or a failure. -/
theorem step_end (fault? : Option Fault)
    (hnext : ∀ w', Undisturbed k w' → w'.host = w.host →
      Hosted (c.next ⟨k, j, hooks⟩ fuel).run w' (fault?.elim (.ok none) .error) P) :
    ∃ s' w', Tableless k j columns s' w' ∧ s'.phase = .halted ∧ P w'.host ∧
      (step hooks j).run w = (fault?.elim .done .failed, w') := by
  obtain ⟨s₁, w₁, h₁, hhost, hstep⟩ := h.step hs
  obtain ⟨host, hrun, hP⟩ := hnext w₁ h₁.undisturbed hhost
  have hadvance : Tableless k j columns s₁ { w₁ with host := host } := { h₁ with }
  let ended (s : Statement) : Statement :=
    { s with phase := .halted, cursor := .done, row := [], failure := fault? }
  have hfinish : (finish ⟨k, j, hooks⟩ s₁.program ⟨none, false⟩ fault?).run
      { w₁ with host := host } = ((halt j fault?).run { w₁ with host := host }) := by
    unfold finish endStatement
    rw [if_pos h₁.access]
    rfl
  refine ⟨ended s₁, _, hadvance.modify (f := ended) rfl rfl, rfl, hP, ?_⟩
  rw [hstep]
  unfold advance
  rw [run_bind, hrun]
  cases fault? with
  | none => exact hfinish
  | some fault => exact hfinish

end Steps

end Engine

/-! ## Collecting rows -/

/-- A row of values as a reader gets it, with one entry for each of so many columns. -/
def shownRow (width : Nat) (row : Row) : List (Option String) :=
  (List.range width).map fun i => (row.getD i .null).readText?

section Collecting

variable {H : Type} (services : HostServices H) {hooks : Hooks H} {k j : Nat}
  {columns : List (String × Option String)}

/-- A statement that knows its columns. -/
def Statement.knowing (j : Nat) (columns : List (String × Option String)) : Statement :=
  ⟨.live j, some (columns.map (·.1)), some (columns.map (·.2))⟩

/-- A statement that knows no columns yet, or these. -/
def Statement.Fits (s : Statement) (j : Nat) (columns : List (String × Option String)) : Prop :=
  s = .new (some j) ∨ s = .knowing j columns

theorem ofStatement_run {α : Type} {e : Engine.Statement} {w : World H}
    (he : w.statements.get? j = some e) (missing : α) (read : Engine.Statement → α) :
    (ofStatement j missing read).run w = (read e, w) := by
  unfold ofStatement
  rw [run_bind, run_get, he]
  rfl

section Reading

variable {e : Engine.Statement} {w : World H} (he : Tableless k j columns e w)

include he

theorem names_run : ((List.range columns.length).mapM ((nativeOn services hooks).columnName j)).run w =
    (columns.map (·.1), w) := by
  have hname (i : Nat) : ((nativeOn services hooks).columnName j i).run w =
      (((columns[i]?).map (·.1)).getD "", w) := by
    rw [← he.columns]
    exact ofStatement_run he.found _ _
  rw [mapM_reads hname, map_range_getElem? columns fun c? => (c?.map (·.1)).getD ""]
  rfl

theorem types_run : ((List.range columns.length).mapM ((nativeOn services hooks).columnType j)).run w =
    (columns.map (·.2), w) := by
  have htype (i : Nat) : ((nativeOn services hooks).columnType j i).run w =
      ((columns[i]?).bind (·.2), w) := by
    rw [← he.columns]
    exact ofStatement_run he.found _ _
  rw [mapM_reads htype, map_range_getElem? columns fun c? => c?.bind (·.2)]
  rfl

theorem texts_run (width : Nat) :
    ((List.range width).mapM ((nativeOn services hooks).columnText j)).run w =
      (shownRow width e.row, w) := by
  have htext (i : Nat) : ((nativeOn services hooks).columnText j i).run w =
      ((e.row.getD i .null).readText?, w) := by
    have hread : (e.row[i]?).bind (·.readText?) = (e.row.getD i .null).readText? := by
      rw [List.getD_eq_getElem?_getD]
      cases e.row[i]? <;> rfl
    rw [← hread]
    exact ofStatement_run he.found _ _
  exact mapM_reads htext _

/-- After a success a statement knows its columns. -/
theorem withColumns_tableless {s : Statement} (hs : s.Fits j columns) :
    (s.withColumns (nativeOn services hooks) j).run w =
      ((columns.map (·.1), columns.map (·.2), .knowing j columns), w) := by
  have hcount : ((nativeOn services hooks).columnCount j).run w = (columns.length, w) := by
    rw [← he.columns]
    exact ofStatement_run he.found _ _
  unfold Statement.withColumns
  rw [run_bind, hcount]
  rcases hs with rfl | rfl
  · dsimp only [Statement.new]
    rw [run_bind, names_run services he, run_bind, types_run services he]
    rfl
  · rfl

/-- After a success a statement tells its columns, and its row if there is one. -/
theorem succeed_tableless {s : Statement} (hs : s.Fits j columns) (hasRow : Bool) :
    (s.succeed (nativeOn services hooks) j hasRow).run w =
      ((⟨if hasRow then some (shownRow columns.length e.row) else none,
        columns.map (·.1), columns.map (·.2)⟩, .knowing j columns), w) := by
  unfold Statement.succeed
  rw [run_bind, withColumns_tableless services he hs]
  cases hasRow with
  | false => rfl
  | true =>
    dsimp only
    rw [if_pos rfl, run_bind, List.length_map]
    rw [show (some <$> (List.range columns.length).mapM
      ((nativeOn services hooks).columnText j)).run w = (some _, w) from
        congrArg (Prod.map some id) (texts_run services he columns.length)]
    rfl

end Reading

/-! ## Serving the groups of a query -/

section Serving

variable {record : Nat} {a : Aggregation} {At : Standing → H → Prop}

/-- What a query comes to when it has served some groups: those that are left, those of them that it
has tried, and the message of its failure. -/
inductive EndsWith (a : Aggregation) : List Portion → List Portion → Option String → Prop where
  | all : EndsWith a [] [] none
  | failing {p : Portion} {rest : List Portion} {message : String}
    (h : a.value p.args = .error message) : EndsWith a (p :: rest) [p] (some message)

/-- How a query of certain columns ends. -/
def endOf (columns : List (String × Option String)) (failure? : Option String) :
    Except Error StepResult :=
  failure?.elim (.ok ⟨none, columns.map (·.1), columns.map (·.2)⟩) fun message =>
    .error (.ofCode ResultCode.error message)

section Steps

variable {s : Statement} {e : Engine.Statement} {c c' : Cursor} {w : World H} {P : H → Prop}
  (hs : s.Fits j columns) (he : Tableless k j columns e w) (hgoes : e.GoesOn c)

include hs

theorem Statement.Fits.vm : s.vm = .live j := by
  rcases hs with rfl | rfl <;> rfl

include he hgoes

theorem step_delivers {row : Row}
    (hnext : ∀ w', Undisturbed k w' → w'.host = w.host →
      Hosted (c.next ⟨k, j, hooks⟩ fuel).run w' (.ok (some (row, c'))) P) :
    ∃ e' w', Tableless k j columns e' w' ∧ e'.GoesOn c' ∧ P w'.host ∧
      (s.step (nativeOn services hooks)).run w =
        ((.ok ⟨some (shownRow columns.length row), columns.map (·.1), columns.map (·.2)⟩,
          .knowing j columns), w') := by
  obtain ⟨e', w', he', hgoes', rfl, hP, hstep⟩ := step_row he hgoes hnext
  refine ⟨e', w', he', hgoes', hP, ?_⟩
  have hnative : ((nativeOn services hooks).step j).run w = (Progress.row.toNative, w') := by
    simp only [nativeOn, run_bind, hstep]
    rfl
  rw [step_of_succeeded _ hs.vm hnative rfl]
  exact congrArg (fun p => ((Except.ok p.1.1, p.1.2), p.2)) (succeed_tableless services he' hs true)

theorem step_finishes
    (hnext : ∀ w', Undisturbed k w' → w'.host = w.host →
      Hosted (c.next ⟨k, j, hooks⟩ fuel).run w' (.ok none) P) :
    ∃ w', P w'.host ∧ (s.step (nativeOn services hooks)).run w =
      ((.ok ⟨none, columns.map (·.1), columns.map (·.2)⟩, .knowing j columns), w') := by
  obtain ⟨e', w', he', _, hP, hstep⟩ := step_end he hgoes none hnext
  refine ⟨w', hP, ?_⟩
  have hnative : ((nativeOn services hooks).step j).run w = (Progress.done.toNative, w') := by
    simp only [nativeOn, run_bind, hstep]
    rfl
  rw [step_of_succeeded _ hs.vm hnative rfl]
  exact congrArg (fun p => ((Except.ok p.1.1, p.1.2), p.2)) (succeed_tableless services he' hs false)

/-- A failed step finalizes its statement. -/
theorem step_breaks_off {At : Standing → H → Prop} {st : Standing}
    (hlog : ∀ r w s, At s w.host → Hosted (services.log r) w () (At s)) {message : String}
    (hnext : ∀ w', Undisturbed k w' → w'.host = w.host →
      Hosted (c.next ⟨k, j, hooks⟩ fuel).run w' (.error (.general message)) (At st)) :
    ∃ s' w', At st w'.host ∧ (s.step (nativeOn services hooks)).run w =
      ((.error (.ofCode ResultCode.error message), s'), w') := by
  obtain ⟨e', w', he', hhalted, hP, hstep⟩ := step_end he hgoes (some (.general message)) hnext
  have hfinalize : (Engine.finalize hooks j).run w' =
      (e'.failure, { w' with statements := Assoc.erase w'.statements j }) := by
    unfold Engine.finalize
    rw [run_bind, run_get]
    simp only [he'.found, hhalted]
    rfl
  obtain ⟨host, hlogged, hP⟩ := hlog (.of .debug "statement finalized after failed step"
    [("code", toString (1 : Int32).toInt), ("error", message)])
      { w' with statements := Assoc.erase w'.statements j } st hP
  refine ⟨{ s with vm := .finalized }, { w' with
    statements := Assoc.erase w'.statements j
    host := host }, hP, ?_⟩
  have hbusy : ¬ (1 : Int32) = ResultCode.busy := by decide
  have hknown : ErrorKind.isKnownFailure 1 = true := rfl
  have hfail : (s.fail (nativeOn services hooks) j ⟨1, message⟩).run w' =
      ((.ofCode ResultCode.error message, { s with vm := .finalized }),
        { w' with
          statements := Assoc.erase w'.statements j
          host := host }) := by
    unfold Statement.fail
    dsimp only
    rw [if_neg hbusy, if_pos hknown, run_bind]
    show StateT.run (_ >>= _) ((Engine.finalize hooks j).run w').2 = _
    rw [hfinalize, run_bind]
    have hworld := congrArg Prod.snd hlogged
    exact Prod.ext rfl hworld
  rw [step_failure_on services hs.vm hstep]
  exact congrArg (fun p => ((Except.error p.1.1, p.1.2), p.2)) hfail

end Steps

/-- A query serves its groups one after the other, up to the first that fails. -/
theorem collect_supplied (hlog : ∀ r w s, At s w.host → Hosted (services.log r) w () (At s))
    {before after tried : List Portion} {values : List Datum} {failure? : Option String}
    (hvalues : before.map (fun p => a.value p.args) = values.map .ok)
    (hend : EndsWith a after tried failure?) {c : Cursor}
    (hc : Supplies ⟨k, j, hooks⟩ record a At c (before ++ after))
    {s : Statement} (hs : s.Fits j columns) {e : Engine.Statement} {w : World H}
    (he : Tableless k j columns e w) (hgoes : e.GoesOn c) {st : Standing} (hst : At st w.host)
    (hstart : st.count = 0 ∧ st.state = []) (rows : List (List (Option String))) {left : Nat}
    (hleft : before.length < left) :
    ∃ s' w', (s.collect (nativeOn services hooks) rows left).run w =
        ((endOf columns failure?,
          rows ++ List.zipWith (fun p d => shownRow columns.length (p.row d)) before values, s'), w') ∧
      At (((before ++ tried).map (·.args)).foldl (Standing.served a record) st) w'.host := by
  obtain ⟨left, rfl⟩ := Nat.exists_eq_add_of_lt hleft
  induction before generalizing c values s e w st rows with
  | nil =>
    cases values with
    | cons _ _ => cases hvalues
    | nil =>
      rw [Statement.collect, run_bind, List.zipWith_nil_left, List.append_nil]
      cases hend with
      | all =>
        cases hc with
        | done hdone =>
          obtain ⟨w', hP, hstep⟩ := step_finishes services hs he hgoes fun w' hw' hhost =>
            (hdone w' hw').hosted (hhost.symm ▸ hst)
          rw [hstep]
          exact ⟨_, w', rfl, hP⟩
      | @failing p rest message hvalue =>
        cases hc with
        | next hnext hrest =>
          have hfailed (w' : World H) (hw' : Undisturbed k w') (hhost : w'.host = w.host) :
              Hosted (c.next ⟨k, j, hooks⟩ fuel).run w' (.error (.general message))
                (At (st.served a record p.args)) := by
            have hserved := hnext w' st hw' (hhost.symm ▸ hst) hstart
            rwa [hvalue] at hserved
          obtain ⟨s', w', hP, hstep⟩ := step_breaks_off services hs he hgoes hlog hfailed
          rw [hstep]
          exact ⟨s', w', rfl, hP⟩
  | cons p before ih =>
    cases values with
    | nil => cases hvalues
    | cons d values =>
      obtain ⟨hvalue, hvalues⟩ := List.cons.inj hvalues
      have hvalue : a.value p.args = .ok d := hvalue
      cases hc with
      | @next c c' p rest hnext hrest =>
        have hserved (w' : World H) (hw' : Undisturbed k w') (hhost : w'.host = w.host) :
            Hosted (c.next ⟨k, j, hooks⟩ fuel).run w' (.ok (some (p.row d, c')))
              (At (st.served a record p.args)) := by
          have hserved := hnext w' st hw' (hhost.symm ▸ hst) hstart
          rwa [hvalue] at hserved
        obtain ⟨e', w', he', hgoes', hP, hstep⟩ := step_delivers services hs he hgoes hserved
        have hended := (Standing.served_follows a record st p.args).ended
        have hleft : (p :: before).length + left = before.length + left + 1 := by
          rw [List.length_cons]
          omega
        rw [Statement.collect, run_bind, hstep, hleft]
        obtain ⟨s'', w'', hrun, hP⟩ := ih hvalues hrest (.inr rfl) he' hgoes' hP hended
          (rows ++ [shownRow columns.length (p.row d)]) (by omega)
        refine ⟨s'', w'', ?_, hP⟩
        rw [List.zipWith_cons_cons, List.append_cons]
        exact hrun

end Serving

end Collecting

end HostSql
