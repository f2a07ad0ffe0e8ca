import HostSql.Engine.RowChange
import HostSql.Engine.TableChange
import HostSql.Proofs.Engine.Locking

/-!
# Changes are faithful

A change of rows evaluates terms and plans, so it may ask the host for calls; what it asks explains
how it ends. A change of tables asks for nothing.
-/

namespace HostSql.Engine

variable {H : Type} {hooks : Hooks H} {may : Licence}

/-! ## Rows -/

theorem broken_calm {α : Type} (policy : Sql.Conflict) (message : String) :
    CalmRun may (broken policy message : Run H α)
      (broken policy message : Run (Ledger hooks) α) :=
  .throw _

theorem rowNumber_calm (scope : Scope H) (t : Table) (given : Datum) :
    CalmRun may (rowNumber scope t given) (rowNumber scope.noting t given) := by
  unfold rowNumber
  cases Affinity.apply .integer given with
  | integer n => exact .pure _
  | null =>
    refine (currentDatabase_calm scope.connection).bind fun db => ?_
    cases Database.freshNumber? (db.rows t.root) with
    | some n => exact .pure _
    | none => exact .throw _
  | real x => exact .throw _
  | text bytes => exact .throw _
  | blob bytes => exact .throw _

theorem firstFalse_orderly (scope : Scope H) (row : Row) (conditions : List (String × Term)) :
    OrderlyRun may (firstFalse scope row conditions) (firstFalse scope.noting row conditions) := by
  induction conditions with
  | nil => exact .pure none
  | cons condition rest ih =>
    obtain ⟨label, t⟩ := condition
    unfold firstFalse
    exact (t.eval_orderly scope row).bind fun d => .ite (.pure _) ih

theorem clear_calm (scope : Scope H) (target : Target) (n : Int64) (row : Row)
    (own : Option Int64) (t : Table) {erase : Int64 → Run H Unit}
    {erase' : Int64 → Run (Ledger scope.hooks) Unit}
    (herase : ∀ m, CalmRun may (erase m) (erase' m))
    (keys : List UniqueKey) :
    CalmRun may (makeRoom.clear scope target n row own t erase keys)
      (makeRoom.clear scope.noting target n row own t erase' keys) := by
  induction keys with
  | nil => exact .pure false
  | cons key rest ih =>
    unfold makeRoom.clear
    refine (currentDatabase_calm scope.connection).bind fun db => ?_
    dsimp only
    split
    · exact ih
    split
    · exact .pure true
    · exact (herase _).bind fun _ => ih
    · exact broken_calm _ _

theorem makeRoom_calm (scope : Scope H) (target : Target) (n : Int64) (row : Row)
    (own : Option Int64) (mayClash : Bool) :
    CalmRun may (makeRoom scope target n row own mayClash)
      (makeRoom scope.noting target n row own mayClash) := by
  have herase : ∀ m : Int64, CalmRun may
      (writeDatabase (H := H) scope.connection (·.erase target.table.root m))
      (writeDatabase (H := Ledger scope.hooks) scope.connection (·.erase target.table.root m)) :=
    fun m => writeDatabase_calm _ _
  have hclear := clear_calm scope target n row own target.table herase target.table.uniques
  unfold makeRoom
  refine (currentDatabase_calm scope.connection).bind fun db => .ite ?_ hclear
  split
  · exact .pure true
  · exact (herase n).bind fun _ => hclear
  · exact (broken_calm _ _).bind fun _ => hclear

theorem settle_orderly (scope : Scope H) (target : Target) (n : Int64) (mayClash : Bool)
    (own : Option Int64) (row : Row) :
    OrderlyRun may (settle scope target n mayClash own row)
      (settle scope.noting target n mayClash own row) := by
  unfold settle
  dsimp only
  split
  · exact .pure _
  · exact (broken_calm _ _).orderly
  refine (firstFalse_orderly scope _ target.checks).bind fun broken? => ?_
  cases broken? with
  | some label =>
    dsimp only
    split
    · exact .pure _
    · exact (broken_calm _ _).orderly
  | none =>
    refine (makeRoom_calm scope target n _ own mayClash).orderly.bind fun out => ?_
    refine .ite (.pure _) (CalmRun.orderly ?_)
    exact (checkTripped_calm scope).bind fun _ =>
      (writeDatabase_calm _ _).bind fun _ => .pure _

/-- Storing the row that a row of the source stands for. -/
theorem insertRow_orderly (scope : Scope H) (target : Target) (columns : List Term)
    (number : Option Term) (cursor : Cursor) :
    OrderlyRun may
      (do
        match ← cursor.next scope fuel with
        | none => return none
        | some (r, cursor) =>
          let row ← Term.evalAll scope r columns
          let given ← match number with
            | some t => t.eval scope r
            | none => pure .null
          let (n, mayClash) ← rowNumber scope target.table given
          return some (← settle scope target n mayClash none row, cursor))
      (do
        match ← cursor.next scope.noting fuel with
        | none => return none
        | some (r, cursor) =>
          let row ← Term.evalAll scope.noting r columns
          let given ← match number with
            | some t => t.eval scope.noting r
            | none => pure .null
          let (n, mayClash) ← rowNumber scope.noting target.table given
          return some (← settle scope.noting target n mayClash none row, cursor)) := by
  refine (Cursor.next_orderly scope fuel cursor).bind fun found => ?_
  cases found with
  | none => exact .pure none
  | some found =>
    refine (Term.evalAll_orderly scope found.1 columns).bind fun row => ?_
    -- what follows whether or not a row number is given
    have hrest : ∀ given : Datum, OrderlyRun may
        (do
          let (n, mayClash) ← rowNumber scope target.table given
          return some (← settle scope target n mayClash none row, found.2))
        (do
          let (n, mayClash) ← rowNumber scope.noting target.table given
          return some (← settle scope.noting target n mayClash none row, found.2)) :=
      fun given => (rowNumber_calm scope _ given).orderly.bind fun numbered =>
        (settle_orderly scope target numbered.1 numbered.2 none row).bind fun _ => .pure _
    cases number with
    | some t => exact (t.eval_orderly scope found.1).bind hrest
    | none => exact (OrderlyRun.pure Datum.null).bind hrest

theorem insertRows_orderly (scope : Scope H) (target : Target) (columns : List Term)
    (number : Option Term) (left : Nat) : ∀ (count : Nat) (cursor : Cursor),
    Orderly may Prod.snd (insertRows scope target columns number left count cursor)
      (insertRows scope.noting target columns number left count cursor) := by
  induction left with
  | zero => exact fun count cursor => .pure _ _
  | succ left ih =>
    intro count cursor
    unfold insertRows
    refine Orderly.bind (insertRow_orderly scope target columns number cursor) ?_ ?_
    · intro result h
      cases result with
      | error fault => exact nomatch h
      | ok stored? =>
        match stored? with
        | none => exact .pure _ _
        | some (.leftOut, cursor) => exact ih count cursor
        | some (.stored n, cursor) =>
          exact .calm_bind (modifyConnection_calm _ (fun _ _ => rfl) fun _ _ _ => ⟨rfl, rfl⟩) fun _ => ih (count + 1) cursor
    · intro result fault h
      cases result with
      | error fault' => exact .pure h
      | ok stored? => exact nomatch h

theorem matchingRows_orderly (scope : Scope H) (t : Table) (condition : Option Term) :
    OrderlyRun may (matchingRows scope t condition) (matchingRows scope.noting t condition) := by
  unfold matchingRows
  exact (Cursor.drain_orderly scope fuel _).bind fun rows => .pure _

theorem updateRow_orderly (scope : Scope H) (target : Target) (sets : List (Nat × Term))
    (number : Option Term) (n : Int64) :
    OrderlyRun may (updateRow scope target sets number n)
      (updateRow scope.noting target sets number n) := by
  unfold updateRow
  refine (currentDatabase_calm scope.connection).orderly.bind fun db => ?_
  dsimp only
  cases db.row? target.table.root n with
  | none => exact .pure _
  | some old =>
    refine (OrderlyRun.mapM (fun i => ?_) _).bind fun row => ?_
    · cases sets.find? (·.1 == i) with
      | some set => exact set.2.eval_orderly scope _
      | none => exact .pure _
    cases number with
    | none => exact settle_orderly scope target n true (some n) row
    | some e =>
      refine (e.eval_orderly scope _).bind fun d => ?_
      cases Affinity.apply .integer d with
      | integer m => exact settle_orderly scope target m true (some n) row
      -- nothing else can be a row number
      | null =>
        exact (OrderlyRun.throw _).bind fun m => settle_orderly scope target m true _ row
      | real x =>
        exact (OrderlyRun.throw _).bind fun m => settle_orderly scope target m true _ row
      | text bytes =>
        exact (OrderlyRun.throw _).bind fun m => settle_orderly scope target m true _ row
      | blob bytes =>
        exact (OrderlyRun.throw _).bind fun m => settle_orderly scope target m true _ row

theorem eachRow_orderly {change : Int64 → Run H Settled}
    {change' : Int64 → Run (Ledger hooks) Settled}
    (h : ∀ n, OrderlyRun may (change n) (change' n)) (ns : List Int64) : ∀ count : Nat,
    Orderly may Prod.snd (eachRow change count ns) (eachRow change' count ns) := by
  induction ns with
  | nil => exact fun count => .pure _ _
  | cons n rest ih =>
    intro count
    unfold eachRow
    refine Orderly.bind (h n) ?_ ?_
    · intro result h
      cases result with
      | error fault => exact nomatch h
      | ok settled =>
        cases settled with
        | leftOut => exact ih count
        | stored m => exact ih (count + 1)
    · intro result fault h
      cases result with
      | error fault' => exact .pure h
      | ok settled => exact nomatch h

/-- A change of the rows that meet a condition. -/
theorem eachMatching_orderly (scope : Scope H) (t : Table) (condition : Option Term)
    {change : Int64 → Run H Settled} {change' : Int64 → Run (Ledger scope.hooks) Settled}
    (h : ∀ n, OrderlyRun may (change n) (change' n)) :
    Orderly may Prod.snd
      (do
        match ← (matchingRows scope t condition).run with
        | .error fault => return (0, some fault)
        | .ok ns => eachRow change 0 ns)
      (do
        match ← (matchingRows scope.noting t condition).run with
        | .error fault => return (0, some fault)
        | .ok ns => eachRow change' 0 ns) := by
  refine Orderly.bind (matchingRows_orderly scope t condition) ?_ ?_
  · intro result hresult
    cases result with
    | error fault => exact nomatch hresult
    | ok ns => exact eachRow_orderly h ns 0
  · intro result fault hresult
    cases result with
    | error fault' => exact .pure hresult
    | ok ns => exact nomatch hresult

theorem applyRowChange_orderly (scope : Scope H) (target : Target) (change : RowChange) :
    Orderly may Prod.snd (applyRowChange scope target change)
      (applyRowChange scope.noting target change) := by
  unfold applyRowChange
  cases change with
  | insert source columns number =>
    exact insertRows_orderly scope target columns number fuel 0 (.idle source)
  | update sets number condition =>
    exact eachMatching_orderly scope _ condition (updateRow_orderly scope target sets number)
  | delete condition =>
    refine eachMatching_orderly scope _ condition fun n => CalmRun.orderly ?_
    exact (checkTripped_calm scope).bind fun _ =>
      (writeDatabase_calm _ _).bind fun _ => .pure _

/-! ## Tables -/

theorem editTables_calm (scope : Scope H) (edit : Database → Database) :
    CalmRun may (editTables scope edit) (editTables scope.noting edit) := by
  unfold editTables
  refine (writeDatabase_calm _ _).bind fun _ =>
    (CalmRun.lift (modifyConnection_calm _ (fun _ _ => rfl) fun _ _ _ => ⟨rfl, rfl⟩)).bind fun _ =>
      (currentDatabase_calm scope.connection).bind fun db => ?_
  cases Catalog.read db with
  | ok catalog => exact .lift (modifyConnection_calm _ (fun _ _ => rfl) fun _ _ _ => ⟨rfl, rfl⟩)
  | error message => exact .throw _

theorem applyTableChange_calm (scope : Scope H) (change : TableChange) :
    CalmRun may (applyTableChange scope change) (applyTableChange scope.noting change) := by
  unfold applyTableChange
  cases change with
  | create name d text => exact editTables_calm scope _
  | drop t =>
    refine (CalmRun.lift (otherUsers_calm _ _)).bind fun others => ?_
    exact .guard _ (editTables_calm scope _)
  | redefine t newName text columns => exact editTables_calm scope _

end HostSql.Engine
