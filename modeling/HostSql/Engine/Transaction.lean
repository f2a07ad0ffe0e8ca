import HostSql.Engine.Cursor

/-!
# Locks and transactions

A connection claims its volume step by step: it shares it to read, reserves it to prepare changes
and takes it alone to put the changes down. Changes live in the connection's draft until then, so
other connections keep reading what is stored. When a claim meets another connection's, the host
is asked whether to try again, and never again in the same wait once it has said no.

`endStatement` is what happens to the transaction when a statement ends: outside an explicit
transaction the last writer commits or undoes the draft, inside one a failing statement undoes
what it has done itself.
-/

namespace HostSql.Engine

variable {H : Type}

/-! ## Claims -/

/-- The locks that other connections hold on a connection's volume. -/
def rivalLocks (connection : Nat) (volume : Nat) : Run H (List Lock) := do
  return (← get).connections.filterMap fun (c, conn) =>
    if c != connection && conn.volume = volume && conn.lock != .none then some conn.lock else none

/-- Whether a claim is compatible with the locks of others. -/
def Lock.allowed (claim : Lock) (rivals : List Lock) : Bool :=
  match claim with
  | .none => true
  | .shared => rivals.all fun l => l.strength < Lock.pending.strength
  | .reserved | .pending => rivals.all fun l => l.strength < Lock.reserved.strength
  | .exclusive => rivals.isEmpty

def setLock (connection : Nat) (lock : Lock) : Run H Unit :=
  World.modifyConnection (H := H) connection fun c => { c with lock := lock }

/-- Asks the host whether to try again. -/
def askHost (scope : Scope H) : Run H Bool := do
  let conn ← connectionOf scope.connection
  match conn.asksHost, conn.asked with
  | true, some attempt =>
    let again ← scope.hooks.busy scope.connection attempt
    World.modifyConnection (H := H) scope.connection fun c =>
      { c with asked := if again then some (attempt + 1) else none }
    return again
  | _, _ => return false

/-- Starts a new wait: the host may be asked again, from attempt zero. -/
def resetAsked (connection : Nat) : StateM (World H) Unit :=
  World.modifyConnection connection fun c => { c with asked := some 0 }

/-- Shares the volume, unless it is claimed already. -/
def lockShared (scope : Scope H) : Nat → Run H Unit
  | 0 => throw .busy
  | fuel + 1 => do
    let conn ← connectionOf scope.connection
    if conn.lock != .none then return
    if Lock.allowed .shared (← rivalLocks scope.connection conn.volume) then
      setLock scope.connection .shared
    else if ← askHost scope then lockShared scope fuel
    else throw .busy

/-- Takes the reserved volume alone. While others still read, new readers are kept out. -/
def lockExclusive (scope : Scope H) : Nat → Run H Unit
  | 0 => throw .busy
  | fuel + 1 => do
    let conn ← connectionOf scope.connection
    if conn.lock = .exclusive then return
    if Lock.allowed .exclusive (← rivalLocks scope.connection conn.volume) then
      setLock scope.connection .exclusive
    else
      setLock scope.connection .pending
      if ← askHost scope then lockExclusive scope fuel else throw .busy

/-- Reserves the volume. A connection that was already reading does not wait, because the one it
would wait for may be waiting for it. One that has begun to write already needs not be alone. -/
def lockReserved (scope : Scope H) (alone : Bool) : Nat → Run H Unit
  | 0 => throw .busy
  | fuel + 1 => do
    let before := (← connectionOf scope.connection).lock
    let release : Run H Unit := if before = .none then setLock scope.connection .none else pure ()
    lockShared scope fuel
    let conn ← connectionOf scope.connection
    if conn.lock.strength < Lock.reserved.strength then
      if Lock.allowed .reserved (← rivalLocks scope.connection conn.volume) then
        setLock scope.connection .reserved
      else
        release
        if before = .none then
          if ← askHost scope then return ← lockReserved scope alone fuel
        throw .busy
    if alone && conn.draft.isNone then
      match ← attempt (lockExclusive scope fuel) with
      | .ok _ => return
      | .error fault =>
        release
        throw fault

/-- How often a lock may be asked for in one wait. -/
def maxAttempts : Nat := 4294967296

/-! ## Reading and writing -/

/-- Changes the draft. -/
def writeDatabase (connection : Nat) (f : Database → Database) : Run H Unit := do
  let db ← currentDatabase connection
  World.modifyConnection (H := H) connection fun c => { c with draft := some (f db) }

/-- Claims the volume for a statement. One that is to write has a draft from then on. -/
def claim (scope : Scope H) (access : Access) (alone : Bool) : Run H Unit := do
  match access with
  | .none => return
  | .read =>
    lockShared scope maxAttempts
    let _ ← currentDatabase scope.connection
  | .write =>
    if (← connectionOf scope.connection).readOnly then throw .readOnly
    lockReserved scope alone maxAttempts
    writeDatabase scope.connection id

/-! ## Catalog -/

/-- Gives up the volume if nothing needs it. -/
def releaseUnlessUsed (connection : Nat) (users : Nat) : StateM (World H) Unit :=
  World.modifyConnection connection fun c =>
    if c.autocommit && users = 0 then { c with lock := .none } else c

/-- The catalog, read now if it has not been read. -/
def catalogOf (scope : Scope H) : Run H Catalog := do
  let conn ← connectionOf scope.connection
  match conn.catalog with
  | some catalog => return catalog
  | none =>
    lockShared scope maxAttempts
    let result ← attempt (currentDatabase scope.connection)
    if conn.lock = .none then setLock scope.connection .none
    let db ← result
    match Catalog.read db with
    | .error message => throw (.malformed message)
    | .ok catalog =>
      World.modifyConnection (H := H) scope.connection fun c => { c with catalog := some catalog }
      return catalog

/-- Forgets the catalog. -/
def forgetCatalog (connection : Nat) : StateM (World H) Unit :=
  World.modifyConnection connection fun c => { c with catalog := none }

/-- Whether the catalog that a connection has read is still that of its volume. When the volume is
locked there is no telling, and it counts as current. -/
def catalogIsCurrent (scope : Scope H) : Run H Bool := do
  let conn ← connectionOf scope.connection
  match conn.catalog with
  | none => return true
  | some catalog =>
    match ← attempt (lockShared scope maxAttempts) with
    | .error _ => return true
    | .ok _ =>
      let result ← attempt (currentDatabase scope.connection)
      if conn.lock = .none then setLock scope.connection .none
      match result with
      | .ok db => return db.cookie == catalog.cookie
      | .error _ => return true

/-- Makes all statements of a connection be compiled again before they run again. -/
def expireStatements (connection : Nat) : StateM (World H) Unit :=
  modify fun w => { w with
    statements := w.statements.map fun (n, s) =>
      (n, if s.connection = connection then { s with expired := true } else s) }

/-! ## The end of a transaction -/

/-- The statements of a connection, but for one, that are reading or writing its volume. -/
def otherUsers (connection statement : Nat) : StateM (World H) (List Statement) := do
  return ((← get).active connection).filterMap fun (n, s) =>
    if n != statement && s.program.usesVolume then some s else none

/-- Keeps the volume only for other statements. -/
def endTransaction (connection statement : Nat) : StateM (World H) Unit := do
  let users ← otherUsers connection statement
  World.modifyConnection connection fun c =>
    { c with
      draft := none
      catalogChanged := false
      lock := if users.isEmpty then .none else if c.lock = .none then .none else .shared }

/-- Statements that are writing cannot go on after what they have written has been taken away. If the
catalog had changed, those that are reading cannot go on either. -/
def tripStatements (connection statement : Nat) (changed : Bool) : StateM (World H) Unit :=
  modify fun w => { w with
    statements := w.statements.map fun (n, s) =>
      (n, if s.connection = connection && n != statement
          && (changed || s.program.access = .write) then { s with tripped := true } else s) }

/-- Throws the draft away. If the catalog had changed in it, the connection's statements are
compiled again. With `trip`, its other statements may be unable to go on. -/
def undoAll (connection statement : Nat) (trip : Bool) : StateM (World H) Unit := do
  let changed := ((← World.connection? connection).map (·.catalogChanged)).getD false
  if trip then tripStatements connection statement changed
  if changed then
    expireStatements connection
    forgetCatalog connection
  endTransaction connection statement

/-- Puts the draft down. -/
def commitDraft (scope : Scope H) : Run H Unit := do
  let conn ← connectionOf scope.connection
  match conn.draft with
  | none => return
  | some _ =>
    lockExclusive scope maxAttempts
    match (← connectionOf scope.connection).draft with
    | none => return
    | some db =>
      modify fun w => { w with
        volumes := Assoc.update w.volumes conn.volume fun v => { v with content := .database db } }

/-- Goes back to a savepoint. A transaction that has begun to write goes on writing. -/
def returnTo (connection : Nat) (i : Nat) : StateM (World H) Unit := do
  let conn? ← World.connection? connection
  World.modifyConnection connection fun c =>
    { c with
      draft := ((c.savepoints[i]?).bind (·.draft))
      savepoints := c.savepoints.drop i }
  if (conn?.bind (·.draft)).isSome then
    let _ ← (writeDatabase connection id).run

/-- Closes the explicit transaction of a connection. -/
def closeTransaction (connection : Nat) : StateM (World H) Unit :=
  World.modifyConnection connection fun c => { c with autocommit := true, savepoints := [] }

/-- What a statement was when it began, to which it is undone. -/
structure Before where
  draft : Option Database
  /-- Whether the statement can have left something to undo when it fails. -/
  manyChanges : Bool

/-- Settles the transaction at the end of a statement. The result is the statement's own failure or,
if it had none, that of committing; the flag says whether its changes count. -/
def endStatement (scope : Scope H) (program : Program) (before : Before) (failure : Option Fault) :
    StateM (World H) (Option Fault × Bool) := do
  if program.access = .none then return (failure, failure.isNone)
  let conn ← World.connection? scope.connection
  let writing := program.access = .write
  let fatal := failure.any fun f => f.endsTransaction && (writing || f.code != 9)
  if fatal then
    undoAll scope.connection scope.statement true
    closeTransaction scope.connection
    return (failure, false)
  let others ← otherUsers scope.connection scope.statement
  let lastWriter := !others.any (·.program.access = .write)
  let kept := failure.all (·.effect = .fail)
  if (conn.map (·.autocommit)).getD true && lastWriter then
    if kept then
      match ← (commitDraft scope).run with
      | .ok _ =>
        endTransaction scope.connection scope.statement
        return (failure, true)
      | .error fault =>
        undoAll scope.connection scope.statement false
        return (some (failure.getD fault), false)
    else
      undoAll scope.connection scope.statement false
      return (failure, false)
  else if kept then return (failure, true)
  else if failure.any (·.effect = .rollback) then
    undoAll scope.connection scope.statement true
    closeTransaction scope.connection
    return (failure, false)
  else
    if before.manyChanges then
      World.modifyConnection scope.connection fun c => { c with draft := before.draft }
    return (failure, false)

end HostSql.Engine
