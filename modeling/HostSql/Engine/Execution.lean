import HostSql.Engine.Prepare
import HostSql.Engine.RowChange
import HostSql.Engine.TableChange

/-!
# Executing statements

`step` runs a statement to its next row or its end. A statement that has ended starts again from
the beginning. A step that meets a lock leaves the statement begun, so the next step tries again;
any other failure ends it. A statement whose tables have changed since it was compiled is compiled
again before it starts. `finalize` releases a statement in whatever state it is, and `execute`
runs all commands of a text.
-/

namespace HostSql.Engine

open Sql

variable {H : Type}

/-- How a step ended. -/
inductive Progress where
  | row
  | done
  | failed (fault : Fault)
  deriving Repr, DecidableEq

/-- How a beginning of a statement went. -/
inductive Begun where
  | progress (p : Progress)
  /-- The statement must be compiled again first. -/
  | outdated
  deriving Repr, DecidableEq

/-- Ends the execution of a statement. -/
def halt (statement : Nat) (fault : Option Fault) : StateM (World H) Progress := do
  World.modifyStatement statement fun s =>
    { s with phase := .halted, cursor := .done, row := [], failure := fault }
  return match fault with
    | some fault => .failed fault
    | none => .done

/-- Leaves a statement begun because a lock was refused. -/
def block (statement : Nat) (fault : Fault) : StateM (World H) Progress := do
  World.modifyStatement statement fun s => { s with phase := .blocked, failure := some fault }
  return .failed fault

/-- Counts the rows that a statement has changed, if it is a change of rows. -/
def countChanges (connection : Nat) (program : Program) (count : Nat) : StateM (World H) Unit :=
  match program.action with
  | .changeRows _ _ =>
    World.modifyConnection connection fun c =>
      { c with counters := { c.counters with
          changes := count, totalChanges := c.counters.totalChanges + count } }
  | _ => return

/-- Ends a statement that is no change of rows, or has not run. -/
def finish (scope : Scope H) (program : Program) (before : Before) (fault : Option Fault) :
    StateM (World H) Progress := do
  let (fault, _) ← endStatement scope program before fault
  halt scope.statement fault

/-- Delivers the next row of a query, or ends it. -/
def advance (scope : Scope H) (program : Program) (cursor : Cursor) :
    StateM (World H) Progress := do
  match ← (cursor.next scope fuel).run with
  | .ok (some (row, cursor)) =>
    World.modifyStatement scope.statement fun s => { s with phase := .running, row, cursor }
    return .row
  | .ok none => finish scope program ⟨none, false⟩ none
  | .error fault => finish scope program ⟨none, false⟩ (some fault)

/-- Whether an insertion stores rows from more than one source row. -/
def RowChange.isMany : RowChange → Bool
  | .insert (.rows _) _ _ => false
  | _ => true

/-- Runs a change of rows. Only one that ends well counts its rows. -/
def runRowChange (scope : Scope H) (program : Program) (target : Target) (change : RowChange) :
    StateM (World H) Progress := do
  let before : Before :=
    ⟨((← World.connection? scope.connection).bind (·.draft)), change.isMany⟩
  let (count, fault) ← applyRowChange scope target change
  let (fault, counts) ← endStatement scope program before fault
  countChanges scope.connection program (if counts then count else 0)
  halt scope.statement fault

/-- Runs a change of tables. -/
def runTableChange (scope : Scope H) (program : Program) (change : TableChange) :
    StateM (World H) Progress := do
  let before : Before := ⟨((← World.connection? scope.connection).bind (·.draft)), true⟩
  match ← (applyTableChange scope change).run with
  | .ok _ => finish scope program before none
  | .error fault =>
    forgetCatalog scope.connection
    finish scope program before (some fault)

/-! ## Transactions -/

/-- Whether another statement of the connection is writing. -/
def othersWrite (scope : Scope H) : Run H Bool := do
  let others ← otherUsers (H := H) scope.connection scope.statement
  return others.any (·.program.access = .write)

/-- Commits the explicit transaction. -/
def commitTransaction (scope : Scope H) : StateM (World H) Progress := do
  match ← (othersWrite scope).run with
  | .ok false =>
    match ← (commitDraft scope).run with
    | .error fault => block scope.statement fault
    | .ok _ =>
      closeTransaction scope.connection
      endTransaction scope.connection scope.statement
      halt scope.statement none
  | _ =>
    halt scope.statement (some (.busyWith "cannot commit transaction - SQL statements in progress"))

/-- Begins an explicit transaction, with the lock that its mode asks for at once. -/
def beginTransaction (scope : Scope H) (mode : BeginMode) : StateM (World H) Progress := do
  let conn ← World.connection? scope.connection
  let readOnly := (conn.map (·.readOnly)).getD false
  let access : Access :=
    if mode = .deferred then .none else if readOnly then .read else .write
  match ← (claim scope access (mode = .exclusive)).run with
  | .error fault =>
    if fault = .busy then block scope.statement fault else halt scope.statement fault
  | .ok _ =>
    if (conn.map (·.autocommit)).getD true then
      World.modifyConnection scope.connection fun c => { c with autocommit := false }
      halt scope.statement none
    else
      halt scope.statement (some (.general "cannot start a transaction within a transaction"))

/-- Runs a step of an explicit transaction. -/
def runTransaction (scope : Scope H) (action : Action) : StateM (World H) Progress := do
  let some conn ← World.connection? scope.connection | halt scope.statement (some .misuse)
  let fail (message : String) : StateM (World H) Progress :=
    halt scope.statement (some (.general message))
  let named (name : String) : Option Nat :=
    conn.savepoints.findIdx? fun p => Text.sameName p.name name
  match action with
  | .begin mode => beginTransaction scope mode
  | .commit =>
    if conn.autocommit then fail "cannot commit - no transaction is active"
    else commitTransaction scope
  | .rollback =>
    if conn.autocommit then fail "cannot rollback - no transaction is active"
    else
      closeTransaction scope.connection
      undoAll scope.connection scope.statement true
      halt scope.statement none
  | .savepoint name =>
    match ← (othersWrite scope).run with
    | .ok false =>
      World.modifyConnection scope.connection fun c =>
        { c with autocommit := false, savepoints := ⟨name, c.draft, c.autocommit⟩ :: c.savepoints }
      halt scope.statement none
    | _ =>
      halt scope.statement (some (.busyWith "cannot open savepoint - SQL statements in progress"))
  | .release name =>
    match named name with
    | none => fail ("no such savepoint: " ++ name)
    | some i =>
      match ← (othersWrite scope).run with
      | .ok false =>
        if (conn.savepoints[i]?).any (·.opensTransaction) then commitTransaction scope
        else
          World.modifyConnection scope.connection fun c =>
            { c with savepoints := c.savepoints.drop (i + 1) }
          halt scope.statement none
      | _ =>
        halt scope.statement
          (some (.busyWith "cannot release savepoint - SQL statements in progress"))
  | .rollbackTo name =>
    match named name with
    | none => fail ("no such savepoint: " ++ name)
    | some i =>
      tripStatements scope.connection scope.statement conn.catalogChanged
      if conn.catalogChanged then
        expireStatements scope.connection
        forgetCatalog scope.connection
      returnTo scope.connection i
      halt scope.statement none
  | _ => halt scope.statement none

/-! ## Steps -/

/-- Whether a program was compiled under the catalog that is stored now. One that claims nothing
depends on no catalog. -/
def isCurrent (scope : Scope H) (program : Program) : Run H Bool := do
  match program.claims, program.cookie with
  | .none, _ => return true
  | _, none => return true
  | _, some cookie => return (← currentDatabase scope.connection).cookie == cookie

/-- Fails if the connection is to be interrupted; otherwise claims the volume and says whether the
program is up to date. -/
def enter (scope : Scope H) (program : Program) : Run H Bool := do
  checkInterrupt scope
  claim scope program.claims false
  isCurrent scope program

/-- Begins a statement, or tries again to begin it. -/
def beginStatement (scope : Scope H) (program : Program) : StateM (World H) Begun := do
  resetAsked scope.connection
  World.modifyStatement scope.statement fun s =>
    { s with phase := .blocked, failure := none, tripped := false }
  match ← (enter scope program).run with
  | .error fault =>
    if fault = .busy then return .progress (← block scope.statement fault)
    countChanges scope.connection program 0
    return .progress (← finish scope program ⟨none, false⟩ (some fault))
  | .ok false =>
    let _ ← finish scope program ⟨none, false⟩ (some .catalogChanged)
    forgetCatalog scope.connection
    return .outdated
  | .ok true =>
    let progress ← match program.action with
      | .query plan => advance scope program (.idle plan)
      | .changeRows target change => runRowChange scope program target change
      | .changeTables change => runTableChange scope program change
      | .nothing => finish scope program ⟨none, false⟩ none
      | action => runTransaction scope action
    return .progress progress

/-- Compiles a statement again from its text. -/
def recompile (scope : Scope H) (text : List Char) : StateM (World H) (Option Fault) := do
  let result ← (compileText scope text).run
  resetAsked scope.connection
  match result with
  | .ok (some program, _) =>
    World.modifyStatement scope.statement fun s => { s with program, expired := false }
    return none
  | .ok (none, _) => return none
  | .error fault => return some fault

/-- Compiles a statement again if it has to be. -/
def refresh (scope : Scope H) (s : Statement) : StateM (World H) (Option Fault) :=
  if s.expired then recompile scope s.text else return none

/-- Begins a statement, compiling it again as often as its tables have changed. -/
def beginCurrent (scope : Scope H) : Nat → StateM (World H) Progress
  | 0 => return .failed .catalogChanged
  | left + 1 => do
    match (← get).statements.get? scope.statement with
    | none => return .failed .misuse
    | some s =>
      match ← refresh scope s with
      | some fault => halt scope.statement (some fault)
      | none =>
        settleInterrupt scope.connection
        let program := (((← get).statements.get? scope.statement).map (·.program)).getD s.program
        match ← beginStatement scope program with
        | .progress p => return p
        | .outdated =>
          World.modifyStatement scope.statement fun s => { s with expired := true }
          beginCurrent scope left

/-- How often a statement is compiled again before it is given up. -/
def maxRecompilations : Nat := 50

/-- Runs a statement to its next row or its end. -/
def step (hooks : Hooks H) (statement : Nat) : StateM (World H) Progress := do
  match (← get).statements.get? statement with
  | none => return .failed .misuse
  | some s =>
    let scope : Scope H := ⟨s.connection, statement, hooks⟩
    match s.phase with
    | .ready | .halted => beginCurrent scope (maxRecompilations + 1)
    | .blocked =>
      match ← beginStatement scope s.program with
      | .progress p => return p
      | .outdated =>
        World.modifyStatement statement fun s => { s with expired := true }
        beginCurrent scope maxRecompilations
    | .running =>
      resetAsked s.connection
      match ← (checkInterrupt scope).run with
      | .error fault => finish scope s.program ⟨none, false⟩ (some fault)
      | .ok _ => advance scope s.program s.cursor

/-- Releases a statement. The result is the failure that ended it, or that it was left with. -/
def finalize (hooks : Hooks H) (statement : Nat) : StateM (World H) (Option Fault) := do
  match (← get).statements.get? statement with
  | none => return none
  | some s =>
    let scope : Scope H := ⟨s.connection, statement, hooks⟩
    if s.phase = .running || s.phase = .blocked then
      let _ ← endStatement scope s.program ⟨none, false⟩ s.failure
      countChanges s.connection s.program 0
    modify fun w => { w with statements := Assoc.erase w.statements statement }
    return s.failure

/-- Steps a statement until it has no more rows; the rows are dropped. -/
def runToEnd (hooks : Hooks H) (statement : Nat) : Nat → StateM (World H) Unit
  | 0 => return
  | left + 1 => do
    match ← step hooks statement with
    | .row => runToEnd hooks statement left
    | _ => return

/-- Runs the commands of a text one after the other, up to the first that fails. Each command uses
up a character. -/
def executeAll (hooks : Hooks H) (connection : Nat) :
    Nat → List Char → StateM (World H) (Option Fault)
  | 0, _ => return none
  | left + 1, text => do
    if text.isEmpty then return none
    match ← prepare hooks connection text with
    | .error fault => return some fault
    | .ok (none, stop) => executeAll hooks connection left (text.drop stop)
    | .ok (some statement, stop) =>
      runToEnd hooks statement fuel
      match ← finalize hooks statement with
      | some fault => return some fault
      | none => executeAll hooks connection left ((text.drop stop).dropWhile isSpace)

/-- Runs all commands of a text. -/
def execute (hooks : Hooks H) (connection : Nat) (text : List Char) :
    StateM (World H) (Option Fault) :=
  executeAll hooks connection (text.length + 1) text

end HostSql.Engine
