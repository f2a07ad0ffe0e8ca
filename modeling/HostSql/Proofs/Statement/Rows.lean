import HostSql.Proofs.Statement.Columns
import HostSql.Session.Step

/-!
# What a row shows

A row has one entry for each column that the statement's first result had, and the entries are the
values of the engine's current row, read one by one:

> `Statement.rows_aligned`: a row presents the columns that the engine reported at the statement's
> first result, with the values of the row that the engine is on.

The engine may meanwhile have compiled the statement anew. Names, types and width follow that only
if the columns have stayed what they were, as the same theorem says; `rows_not_current` is a
session in which a table gets a column between two executions, and the row leaves it out.

Reading columns and values leaves the world alone (`columnName_run` and its neighbours), so
what a step reads is what the engine reports after it.
-/

namespace HostSql

open Engine (Datum Row Hooks)

variable {σ α β : Type}

/-! ## What the engine reports of a statement -/

/-- The columns of a statement with their declared types, as the engine has compiled it last. -/
def SessionWorld.columnsOf (w : SessionWorld) (k : Nat) : List (String × Option String) :=
  ((w.statements.get? k).map (·.program.columns)).getD []

/-- The row that a statement is on. -/
def SessionWorld.rowOf (w : SessionWorld) (k : Nat) : Row :=
  ((w.statements.get? k).map (·.row)).getD []

section Reads

variable (hooks : Hooks Host) (k i : Nat) (w : SessionWorld)

theorem columnCount_run :
    ((native hooks).columnCount k).run w = ((w.columnsOf k).length, w) := by
  show (_, w) = _
  unfold SessionWorld.columnsOf
  cases w.statements.get? k <;> rfl

theorem columnName_run :
    ((native hooks).columnName k i).run w = ((((w.columnsOf k)[i]?).map (·.1)).getD "", w) := by
  show (_, w) = _
  unfold SessionWorld.columnsOf
  cases w.statements.get? k <;> rfl

theorem columnType_run :
    ((native hooks).columnType k i).run w = (((w.columnsOf k)[i]?).bind (·.2), w) := by
  show (_, w) = _
  unfold SessionWorld.columnsOf
  cases w.statements.get? k <;> rfl

/-- A column that the current row does not have is read as NULL. -/
theorem columnText_run :
    ((native hooks).columnText k i).run w = (((w.rowOf k).getD i .null).readText?, w) := by
  show (_, w) = _
  unfold SessionWorld.rowOf
  cases w.statements.get? k with
  | none => rfl
  | some s =>
    rw [List.getD_eq_getElem?_getD]
    show ((s.row[i]?).bind (·.readText?), w) = (((s.row[i]?).getD .null).readText?, w)
    cases s.row[i]? <;> rfl

end Reads

/-- Only NULL has no text. -/
theorem readText?_eq_none (d : Datum) : d.readText? = none ↔ d = .null := by
  cases d <;> simp [Datum.readText?, Datum.isNull]

/-- Going through a list with reads that leave the world alone is reading the list. -/
theorem mapM_reads {f : α → StateM σ β} {g : α → β} {w : σ} (h : ∀ a, (f a).run w = (g a, w))
    (l : List α) : (l.mapM f).run w = (l.map g, w) := by
  induction l with
  | nil => rfl
  | cons a l ih => rw [List.mapM_cons, run_bind, h a, run_bind, ih]; rfl

/-- Reading a list at each of its positions is going through the list. -/
theorem map_range_getElem? (l : List α) (read : Option α → β) :
    (List.range l.length).map (fun i => read l[i]?) = l.map (fun a => read (some a)) := by
  refine List.ext_getElem (by simp) fun i hi hi' => ?_
  rw [List.length_map] at hi'
  rw [List.getElem_map, List.getElem_map, List.getElem_range, List.getElem?_eq_getElem hi']

/-! ## Rows -/

/-- The metadata of columns with their declared types. -/
def Metadata.ofColumns (columns : List (String × Option String)) : Metadata :=
  ⟨columns.map (·.1), columns.map (·.2)⟩

theorem Metadata.ofColumns_injective {a b : List (String × Option String)}
    (h : ofColumns a = ofColumns b) : a = b := by
  obtain ⟨hnames, htypes⟩ := Metadata.mk.inj h
  rw [← List.zip_unzip a, ← List.zip_unzip b, List.unzip_eq_map, List.unzip_eq_map]
  show List.zip (a.map (·.1)) (a.map (·.2)) = List.zip (b.map (·.1)) (b.map (·.2))
  rw [hnames, htypes]

/-- A row with one entry for each column: the text of its value, and none for NULL. -/
structure ShowsValues (width : Nat) (values : Row) (row : List (Option String)) : Prop where
  width : row.length = width
  entry : ∀ i (h : i < row.length), row[i] = (values.getD i .null).readText?
  absent : ∀ i (h : i < row.length), row[i] = none ↔ values.getD i .null = .null

/-- A result that tells the names and types of these columns and, in its row, these values. -/
structure StepResult.Presents (columns : List (String × Option String)) (values : Row)
    (r : StepResult) : Prop where
  names : r.columns = columns.map (·.1)
  types : r.types = columns.map (·.2)
  row : ∀ row, r.row = some row → ShowsValues columns.length values row

/-- A result presents only one list of columns. -/
theorem StepResult.Presents.columns_unique {a b : List (String × Option String)} {values : Row}
    {r : StepResult} (ha : r.Presents a values) (hb : r.Presents b values) : a = b := by
  refine Metadata.ofColumns_injective ?_
  unfold Metadata.ofColumns
  rw [← ha.names, ← ha.types, hb.names, hb.types]

/-- Values that are read one by one make a row. -/
theorem showsValues_range (width : Nat) (values : Row) :
    ShowsValues width values
      ((List.range width).map fun i => (values.getD i .null).readText?) := by
  have hentry : ∀ i (h : i < ((List.range width).map fun i =>
      (values.getD i .null).readText?).length), ((List.range width).map fun i =>
        (values.getD i .null).readText?)[i] = (values.getD i .null).readText? := by
    intro i h
    rw [List.getElem_map, List.getElem_range]
  refine ⟨by simp, hentry, ?_⟩
  intro i h
  rw [hentry i h]
  exact readText?_eq_none _

namespace Statement

variable (hooks : Hooks Host) {k : Nat} {s : Statement} {w : SessionWorld}
  {first? : Option (List (String × Option String))}

/-- The columns are those that are known or, at the first success, those that the engine reports.
-/
theorem withColumns_run (h : s.Knows (first?.map .ofColumns)) :
    (s.withColumns (native hooks) k).run w =
      let m := Metadata.ofColumns (first?.getD (w.columnsOf k))
      ((m.columns, m.types, { s with columns := some m.columns, types := some m.types }), w) := by
  obtain ⟨vm, columns, types⟩ := s
  obtain ⟨hcolumns, htypes, -⟩ := h
  cases first? with
  | some first =>
    cases hcolumns
    cases htypes
    unfold withColumns
    rw [run_bind, columnCount_run]
    rfl
  | none =>
    cases hcolumns
    cases htypes
    have hnames : ((List.range (w.columnsOf k).length).mapM ((native hooks).columnName k)).run w =
        ((w.columnsOf k).map (·.1), w) := by
      rw [mapM_reads fun i => columnName_run hooks k i w]
      rw [map_range_getElem? (w.columnsOf k) fun c? => (c?.map (·.1)).getD ""]
      rfl
    have htypes : ((List.range (w.columnsOf k).length).mapM ((native hooks).columnType k)).run w =
        ((w.columnsOf k).map (·.2), w) := by
      rw [mapM_reads fun i => columnType_run hooks k i w]
      rw [map_range_getElem? (w.columnsOf k) fun c? => c?.bind (·.2)]
      rfl
    unfold withColumns
    rw [run_bind, columnCount_run]
    dsimp only
    rw [run_bind, hnames, run_bind, htypes]
    rfl

/-- A success presents the known columns, or those that the engine reports and that are known from
then on. The world stays as it is. -/
theorem succeed_presents (hasRow : Bool) (h : s.Knows (first?.map .ofColumns)) :
    let columns := first?.getD (w.columnsOf k)
    let p := (s.succeed (native hooks) k hasRow).run w
    p.1.1.Presents columns (w.rowOf k) ∧ p.1.2.Knows (some (.ofColumns columns)) ∧
      p.2 = w := by
  intro columns
  have hknows : ({ s with
      columns := some (Metadata.ofColumns columns).columns
      types := some (Metadata.ofColumns columns).types } : Statement).Knows
        (some (.ofColumns columns)) := by
    refine ⟨rfl, rfl, ?_⟩
    rintro _ ⟨⟩
    exact (List.length_map _).trans (List.length_map _).symm
  unfold succeed
  rw [run_bind, withColumns_run hooks h]
  cases hasRow with
  | false => exact ⟨⟨rfl, rfl, nofun⟩, hknows, rfl⟩
  | true =>
    have hrow := mapM_reads (fun i => columnText_run hooks k i w)
      (List.range (Metadata.ofColumns columns).columns.length)
    dsimp only
    rw [if_pos rfl, run_bind]
    rw [show (some <$> (List.range (Metadata.ofColumns columns).columns.length).mapM
      ((native hooks).columnText k)).run w = (some _, w) from congrArg (Prod.map some id) hrow]
    refine ⟨⟨rfl, rfl, ?_⟩, hknows, rfl⟩
    rintro _ ⟨⟩
    have hwidth : (Metadata.ofColumns columns).columns.length = columns.length :=
      List.length_map _
    rw [hwidth]
    exact showsValues_range columns.length (w.rowOf k)

end Statement

/-! ## Calls -/

/-- The columns that the engine reports after a call, if that is a step that succeeded. -/
def Entry.reported? (k : Nat) (e : Entry SessionWorld) : Option (List (String × Option String)) :=
  e.answer.result?.map fun _ => e.after.columnsOf k

/-- What a call gives, and what the statement knows of its columns afterwards. A result presents
the columns of the first result. -/
structure TurnPresents (k : Nat) (first? : Option (List (String × Option String)))
    (e : Entry SessionWorld) (s : Statement) : Prop where
  presents : ∀ r, e.answer.result? = some r →
    r.Presents (first?.getD (e.after.columnsOf k)) (e.after.rowOf k)
  next : s.Knows ((first? <|> e.reported? k).map .ofColumns)

section Calls

variable (hooks : Hooks Host) {k : Nat} {s : Statement}
  {first? : Option (List (String × Option String))}

/-- A call without a result leaves what is known. -/
theorem TurnPresents.of_none {e : Entry SessionWorld} (hresult : e.answer.result? = none)
    (h : s.Knows (first?.map .ofColumns)) : TurnPresents k first? e s := by
  refine ⟨fun r hr => ?_, ?_⟩
  · rw [hresult] at hr
    exact nomatch hr
  · unfold Entry.reported?
    rw [hresult]
    cases first? <;> exact h

/-- A result makes the columns known that it presents. -/
theorem TurnPresents.of_result {e : Entry SessionWorld} {r : StepResult}
    (hresult : e.answer.result? = some r)
    (hr : r.Presents (first?.getD (e.after.columnsOf k)) (e.after.rowOf k))
    (h : s.Knows (some (.ofColumns (first?.getD (e.after.columnsOf k))))) :
    TurnPresents k first? e s := by
  refine ⟨fun r' hr' => ?_, ?_⟩
  · cases hresult.symm.trans hr'
    exact hr
  · unfold Entry.reported?
    rw [hresult]
    cases first? <;> exact h

/-- A step that succeeded presents the known columns, or those that the engine reports now. -/
theorem step_presents {w w' : SessionWorld} {r : StepResult} {s' : Statement}
    (hvm : s.vm = .live k) (hknows : s.Knows (first?.map .ofColumns))
    (h : (s.step (native hooks)).run w = ((.ok r, s'), w')) :
    r.Presents (first?.getD (w'.columnsOf k)) (w'.rowOf k) ∧
      s'.Knows (some (.ofColumns (first?.getD (w'.columnsOf k)))) := by
  cases hstep : ((native hooks).step k).run w with
  | mk status b =>
    cases hcode : status.succeeded with
    | false =>
      rw [step_of_failed _ hvm hstep hcode] at h
      exact nomatch h
    | true =>
      rw [step_of_succeeded _ hvm hstep hcode] at h
      obtain ⟨hpresents, hnext, hworld⟩ :=
        Statement.succeed_presents hooks (status.code = ResultCode.row) (w := b) (k := k) hknows
      cases h
      rw [hworld]
      exact ⟨hpresents, hnext⟩

/-- What there is to tell of a step, whatever it asked of the engine. -/
theorem turn_of_step (n : Native σ) {meanwhile : σ → σ} {w after : σ}
    {answer : Except Error StepResult} {s' : Statement}
    (h : (s.step n).run (meanwhile w) = ((answer, s'), after)) :
    ∃ notes, (s.turn n ⟨meanwhile, .step⟩).run w =
      ((⟨.step, meanwhile w, notes, .stepped answer, after, s'.isFinalized⟩, s'), after) := by
  refine ⟨s.callNotes n .step (meanwhile w), ?_⟩
  show (let p := (s.step n).run (meanwhile w);
    ((Entry.mk _ _ _ (.stepped p.1.1) p.2 p.1.2.isFinalized, p.1.2), p.2)) = _
  rw [h]

/-- Every turn presents the columns of the first result. -/
theorem turn_presents {ended : Bool} (hs : s.At (some k) ended)
    (hknows : s.Knows (first?.map .ofColumns)) (t : Turn SessionWorld) (w : SessionWorld) :
    let p := ((s.turn (native hooks) t).run w).1
    TurnPresents k first? p.1 p.2 := by
  obtain ⟨meanwhile, call⟩ := t
  have hkeeps := s.turn_keepsTo (native hooks) hknows ⟨meanwhile, call⟩ w
  cases call with
  | finalize => exact .of_none rfl hkeeps
  | step =>
    cases hrun : (s.step (native hooks)).run (meanwhile w) with
    | mk p after =>
      obtain ⟨answer, s'⟩ := p
      obtain ⟨notes, hturn⟩ := turn_of_step (native hooks) hrun
      rw [hturn] at hkeeps ⊢
      cases answer with
      | error e => exact .of_none rfl hkeeps
      | ok r =>
        have hvm : s.vm = .live k := by
          cases ended with
          | false => exact hs.vm
          | true =>
            -- a statement that is over has no results
            have hover : s.vm = .finalized := hs.vm
            unfold Statement.step at hrun
            rw [hover] at hrun
            exact nomatch hrun
        obtain ⟨hpresents, hknown⟩ := step_presents hooks hvm hknows hrun
        exact .of_result (r := r) rfl hpresents hknown

end Calls

/-! ## All calls -/

/-- A row that presents certain columns with the engine's current values. It is what the engine
reports of the statement by then if the engine still reports these columns, and only then. -/
structure PresentsRow (k : Nat) (first : List (String × Option String))
    (e : Entry SessionWorld) (r : StepResult) : Prop where
  presents : r.Presents first (e.after.rowOf k)
  current : r.Presents (e.after.columnsOf k) (e.after.rowOf k) ↔ e.after.columnsOf k = first

theorem PresentsRow.of_presents {k : Nat} {first : List (String × Option String)}
    {e : Entry SessionWorld} {r : StepResult} (h : r.Presents first (e.after.rowOf k)) :
    PresentsRow k first e r := by
  refine ⟨h, fun hcurrent => hcurrent.columns_unique h, fun hsame => ?_⟩
  rw [hsame]
  exact h

/-- Rows of which each presents the columns that the engine reported at the first result. -/
def RowsAligned (native? : Option Nat) (entries : List (Entry SessionWorld)) : Prop :=
  ∀ e ∈ entries, ∀ r, e.answer.result? = some r → r.isRow = true → ∃ k first, native? = some k ∧
    entries.findSome? (·.reported? k) = some first ∧ PresentsRow k first e r

/-- Rows of which each is what the engine reports by then. -/
def RowsCurrent (k : Nat) (entries : List (Entry SessionWorld)) : Prop :=
  ∀ e ∈ entries, ∀ r, e.answer.result? = some r → r.isRow = true →
    r.Presents (e.after.columnsOf k) (e.after.rowOf k)

section Turns

variable (hooks : Hooks Host)

/-- All results of a live statement present the columns of the first. -/
theorem turns_present {k : Nat} (turns : List (Turn SessionWorld)) :
    ∀ (first? : Option (List (String × Option String))) {ended : Bool} {s : Statement},
      s.At (some k) ended → s.Knows (first?.map .ofColumns) → ∀ w,
      let entries := ((s.turns (native hooks) turns).run w).1.1
      ∀ e ∈ entries, ∀ r, e.answer.result? = some r → ∃ first,
        (first? <|> entries.findSome? (·.reported? k)) = some first ∧
          r.Presents first (e.after.rowOf k) := by
  induction turns with
  | nil => exact fun _ _ _ _ _ => nofun
  | cons t rest ih =>
    intro first? ended s hs hknows w entries e he r hr
    let p := (s.turn (native hooks) t).run w
    have hturn : TurnPresents k first? p.1.1 p.1.2 := turn_presents hooks hs hknows t w
    have hspec := turn_spec (native hooks) hs t w
    have hrun : entries = p.1.1 :: ((p.1.2.turns (native hooks) rest).run p.2).1.1 := rfl
    rw [hrun] at he ⊢
    rw [List.findSome?_cons]
    rcases List.mem_cons.mp he with rfl | he
    · refine ⟨first?.getD (p.1.1.after.columnsOf k), ?_, hturn.presents r hr⟩
      have hreported : p.1.1.reported? k = some (p.1.1.after.columnsOf k) := by
        unfold Entry.reported?
        rw [hr]
        rfl
      rw [hreported]
      cases first? <;> rfl
    · obtain ⟨first, hfirst, hpresents⟩ := ih _ hspec.next hturn.next p.2 e he r hr
      refine ⟨first, ?_, hpresents⟩
      rw [← hfirst]
      cases first? with
      | some first => rfl
      | none => cases p.1.1.reported? k <;> rfl

/-- A statement without a command has no rows. -/
theorem turns_rowless (turns : List (Turn SessionWorld)) (w : SessionWorld) :
    ∀ e ∈ (((Statement.new none).turns (native hooks) turns).run w).1.1, ∀ r,
      e.answer.result? = some r → r.isRow = false := by
  intro e he r hr
  obtain ⟨earlier, later, hentries⟩ := List.append_of_mem he
  have hlawful :=
    turns_lawful (native hooks) turns w (Statement.new_at none) earlier e later hentries
  have hanswer : e.answer = .stepped (.ok r) := by
    cases hcase : e.answer with
    | finalized answer =>
      rw [hcase] at hr
      exact nomatch hr
    | stepped answer =>
      rw [hcase] at hr
      cases answer with
      | error e => exact nomatch hr
      | ok r' => rw [Option.some.inj hr]
  cases hended : (false || earlier.any (·.ends)) with
  | true =>
    have hclosed := hlawful.closed.mpr hended
    rw [hanswer] at hclosed
    exact nomatch hclosed
  | false =>
    obtain ⟨-, -, hempty⟩ := hlawful.empty hended rfl
    rw [hanswer] at hempty
    cases hcall : e.call with
    | step =>
      rw [hcall] at hempty
      cases hempty
      rfl
    | finalize =>
      rw [hcall] at hempty
      exact nomatch hempty

/-- Whatever is done to the tables between its steps, a statement's rows present the columns that
the engine reported at its first result, with the values of the row that the engine is on. -/
theorem Statement.rows_aligned (native? : Option Nat) (turns : List (Turn SessionWorld))
    (w : SessionWorld) :
    RowsAligned native? (((Statement.new native?).turns (native hooks) turns).run w).1.1 := by
  intro e he r hr hrow
  cases native? with
  | none =>
    have hrowless := turns_rowless hooks turns w e he r hr
    rw [hrow] at hrowless
    exact nomatch hrowless
  | some k =>
    obtain ⟨first, hfirst, hpresents⟩ := turns_present hooks turns none
      (Statement.new_at (some k)) (Statement.new_knows (some k)) w e he r hr
    exact ⟨k, first, rfl, hfirst, .of_presents hpresents⟩

end Turns

/-! ## A table that gets a column -/

/-- A table with one column and one row, and a query on it, compiled as the engine's statement 5. -/
def narrowTable : SessionWorld :=
  ((do
    let _ ← Session.run (.openMemory "a")
    let _ ← Session.run (.execute "a" "CREATE TABLE t(a INTEGER); INSERT INTO t VALUES (1);")
    let _ ← Session.run (.compile "a" "SELECT * FROM t" "s")
    return).run SessionWorld.empty).2

/-- The table gets another column. -/
def widenTable (w : SessionWorld) : SessionWorld :=
  ((Session.run (.execute "a" "ALTER TABLE t ADD COLUMN b TEXT DEFAULT 'x'")).run w).2

/-- A query that is executed, and once more after its table has been widened. -/
def acrossWidening : List (Entry SessionWorld) :=
  (((Statement.new (some 5)).turns Session.engine
    [⟨id, .step⟩, ⟨id, .step⟩, ⟨widenTable, .step⟩]).run narrowTable).1.1

/-- A row leaves out the column that its table got after the statement's first result. -/
theorem rows_not_current : ¬ RowsCurrent 5 acrossWidening := by
  intro hcurrent
  have hshort : acrossWidening.any (fun e => e.answer.result?.any fun r =>
      r.row.any fun row => row.length != (e.after.columnsOf 5).length) = true := by
    decide +kernel
  obtain ⟨e, he, h⟩ := List.any_eq_true.mp hshort
  obtain ⟨r, hr, h⟩ := (Option.any_eq_true _ _).mp h
  obtain ⟨row, hrow, h⟩ := (Option.any_eq_true _ _).mp h
  have hisRow : r.isRow = true := by
    unfold StepResult.isRow
    rw [hrow]
    rfl
  have hpresents := hcurrent e he r hr hisRow
  exact bne_iff_ne.mp h (hpresents.row row hrow).width

end HostSql
