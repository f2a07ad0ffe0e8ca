import HostSql.Engine.Transaction

/-!
# Changing rows

A row that is to be stored is first settled: its number is found, missing values are refused,
every column takes its affinity, the table's conditions are checked, and rows with the same key
are looked for. Each rule that is broken ends in what its policy says: the row is left out, the
rows in its way are removed, or the statement fails. Rows of an update or a deletion are found
before the first one is changed.
-/

namespace HostSql.Engine

open Sql

variable {H : Type}

/-- What has become of a row that was to be stored. -/
inductive Settled where
  | stored (number : Int64)
  | leftOut
  deriving Repr, DecidableEq

/-- The name under which a table's row number is reported. -/
def numberName (t : Table) : String :=
  ((t.numberColumn.bind fun i => t.columns[i]?).map (·.name)).getD "rowid"

/-- The message about equal keys. -/
def uniqueMessage (t : Table) (columns : List String) : String :=
  "UNIQUE constraint failed: " ++ ", ".intercalate (columns.map fun c => t.name ++ "." ++ c)

/-- The failure of a rule that is broken. -/
def broken {α : Type} (policy : Conflict) (message : String) : Run H α :=
  throw (.constraint (if policy = .replace then .abort else policy) message)

/-- The number of a row: as given, or a new one. -/
def rowNumber (scope : Scope H) (t : Table) (given : Datum) : Run H (Int64 × Bool) := do
  match Affinity.apply .integer given with
  | .integer n => return (n, true)
  | .null =>
    match Database.freshNumber? ((← currentDatabase scope.connection).rows t.root) with
    | some n => return (n, false)
    | none => throw .full
  | _ => throw .mismatch

/-- Puts defaults for missing values and says which rule a row breaks by lacking a value, if any. -/
def fillMissing (target : Target) (row : Row) : Row × Option (Conflict × String) :=
  let cells := row.zip (target.table.columns.zip target.defaults) |>.zipIdx
  let fill (cell : (Datum × Column × Term) × Nat) : Datum × Option (Conflict × String) :=
    let ((d, column, byDefault), i) := cell
    match d, column.notNull with
    | .null, some own =>
      if target.table.numberColumn = some i then (d, none)
      else
        let policy := target.conflict.getD own
        let message := "NOT NULL constraint failed: " ++ target.table.name ++ "." ++ column.name
        match policy, byDefault with
        | .replace, .value v => if v.isNull then (d, some (.abort, message)) else (v, none)
        | policy, _ => (d, some (policy, message))
    | d, _ => (d, none)
  let filled := cells.map fill
  (filled.map (·.1), filled.findSome? (·.2))

/-- The first condition of a table that is false of a row. -/
def firstFalse (scope : Scope H) (row : Row) : List (String × Term) → Run H (Option String)
  | [] => return none
  | (label, t) :: rest => do
    if (← t.eval scope row).truth? = some false then return some label
    firstFalse scope row rest

/-- Whether two rows agree in a key; a missing value agrees with nothing. -/
def agreeIn (t : Table) (key : UniqueKey) (a b : Row) : Bool :=
  key.columns.all fun i =>
    let x := a.getD i .null
    let y := b.getD i .null
    let c := ((t.columns[i]?).map (·.collation)).getD .binary
    !x.isNull && !y.isNull && Datum.compare c x y == .eq

/-- The row as keys see it: with its number in the column that holds it. -/
def withNumber (t : Table) (n : Int64) (row : Row) : Row :=
  match t.numberColumn with
  | some i => row.set i (.integer n)
  | none => row

/-- Fails if the statement may not write any more. -/
def checkWritable (scope : Scope H) : Run H Unit := checkTripped scope

/-- Makes room for a row: deals with the rows that have its number or one of its keys, other than
the row it replaces. The result says whether the row is to be left out. -/
def makeRoom (scope : Scope H) (target : Target) (n : Int64) (row : Row) (own : Option Int64)
    (mayClash : Bool) : Run H Bool := do
  let t := target.table
  let erase (m : Int64) : Run H Unit := writeDatabase scope.connection (·.erase t.root m)
  if mayClash && own != some n && ((← currentDatabase scope.connection).row? t.root n).isSome then
    match target.conflict.getD (t.numberConflict.getD .abort) with
    | .ignore => return true
    | .replace => erase n
    | policy => broken policy (uniqueMessage t [numberName t])
  let rec clear : List UniqueKey → Run H Bool
    | [] => return false
    | key :: rest => do
      let rows := (← currentDatabase scope.connection).rows t.root
      let rival? := rows.find? fun (m, r) =>
        own != some m && agreeIn t key (withNumber t m r) (withNumber t n row)
      match rival? with
      | none => clear rest
      | some (m, _) =>
        match target.conflict.getD (key.conflict.getD .abort) with
        | .ignore => return true
        | .replace =>
          erase m
          clear rest
        | policy =>
          broken policy (uniqueMessage t (key.columns.map fun i =>
            ((t.columns[i]?).map (·.name)).getD ""))
  clear t.uniques

/-- Stores a row under a number, in place of its old self if it has one. -/
def settle (scope : Scope H) (target : Target) (n : Int64) (mayClash : Bool) (own : Option Int64)
    (row : Row) : Run H Settled := do
  let t := target.table
  let (row, missing) := fillMissing target row
  match missing with
  | some (.ignore, _) => return .leftOut
  | some (policy, message) => broken policy message
  | none =>
    let row := (row.zip t.columns).map fun (d, c) => c.affinity.apply d
    match ← firstFalse scope (withNumber t n row ++ [.integer n]) target.checks with
    | some label =>
      match target.conflict.getD .abort with
      | .ignore => return .leftOut
      | policy => broken policy ("CHECK constraint failed: " ++ label)
    | none =>
      if ← makeRoom scope target n row own mayClash then return .leftOut
      checkWritable scope
      let row := match t.numberColumn with
        | some i => row.set i .null
        | none => row
      writeDatabase scope.connection fun db =>
        let db := match own with
          | some m => db.erase t.root m
          | none => db
        db.insert t.root n row
      return .stored n

/-- Stores a row for each row of a source; the result counts them. -/
def insertRows (scope : Scope H) (target : Target) (columns : List Term) (number : Option Term) :
    Nat → Nat → Cursor → StateM (World H) (Nat × Option Fault)
  | 0, count, _ => return (count, some .outOfMemory)
  | left + 1, count, cursor => do
    let stored : Run H (Option (Settled × Cursor)) := do
      match ← cursor.next scope fuel with
      | none => return none
      | some (r, cursor) =>
        let row ← Term.evalAll scope r columns
        let given ← match number with
          | some t => t.eval scope r
          | none => pure .null
        let (n, mayClash) ← rowNumber scope target.table given
        return some (← settle scope target n mayClash none row, cursor)
    match ← stored.run with
    | .error fault => return (count, some fault)
    | .ok none => return (count, none)
    | .ok (some (.leftOut, cursor)) => insertRows scope target columns number left count cursor
    | .ok (some (.stored n, cursor)) =>
      World.modifyConnection scope.connection fun c =>
        { c with counters := { c.counters with lastRowid := n } }
      insertRows scope target columns number left (count + 1) cursor

/-- The numbers of the rows that meet a condition. -/
def matchingRows (scope : Scope H) (t : Table) (condition : Option Term) : Run H (List Int64) := do
  let source : Plan := .loop (.scan t.root t.width)
  let plan : Plan := match condition with
    | some c => .filter c source
    | none => source
  let rows ← Cursor.drain scope fuel (.idle plan)
  return rows.filterMap fun r => match r.getLast? with
    | some (.integer n) => some n
    | _ => none

/-- Changes one row. -/
def updateRow (scope : Scope H) (target : Target) (sets : List (Nat × Term)) (number : Option Term)
    (n : Int64) : Run H Settled := do
  let t := target.table
  match (← currentDatabase scope.connection).row? t.root n with
  | none => return .leftOut
  | some old =>
    let seen := old ++ [.integer n]
    let row ← (List.range t.width).mapM fun i =>
      match sets.find? (·.1 == i) with
      | some (_, e) => e.eval scope seen
      | none => pure (old.getD i .null)
    let m ← match number with
      | none => pure n
      | some e =>
        match Affinity.apply .integer (← e.eval scope seen) with
        | .integer m => pure m
        | _ => throw .mismatch
    settle scope target m true (some n) row

/-- Applies a change to rows one by one; the result counts those that were changed. -/
def eachRow (change : Int64 → Run H Settled) :
    Nat → List Int64 → StateM (World H) (Nat × Option Fault)
  | count, [] => return (count, none)
  | count, n :: rest => do
    match ← (change n).run with
    | .error fault => return (count, some fault)
    | .ok .leftOut => eachRow change count rest
    | .ok (.stored _) => eachRow change (count + 1) rest

/-- Applies a change of rows; the result counts the changed rows. -/
def applyRowChange (scope : Scope H) (target : Target) (change : RowChange) :
    StateM (World H) (Nat × Option Fault) := do
  match change with
  | .insert source columns number =>
    insertRows scope target columns number fuel 0 (.idle source)
  | .update sets number condition =>
    match ← (matchingRows scope target.table condition).run with
    | .error fault => return (0, some fault)
    | .ok ns => eachRow (updateRow scope target sets number) 0 ns
  | .delete condition =>
    match ← (matchingRows scope target.table condition).run with
    | .error fault => return (0, some fault)
    | .ok ns =>
      eachRow (fun n => do
        checkWritable scope
        writeDatabase scope.connection (·.erase target.table.root n)
        return .stored n) 0 ns

end HostSql.Engine
