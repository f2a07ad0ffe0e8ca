import HostSql.Statement

/-!
# Connections

A connection opens a database, compiles and runs commands on it, and registers what the engine may
call back. It is closed once; from then on every operation fails with `closedHandle`, before its
other arguments are looked at. An `InterruptHandle` can be kept apart from its connection and does
nothing once that is closed.
-/

namespace HostSql

variable {σ : Type}

/-- A connection to a database. -/
structure Connection where
  /-- The engine's connection; absent once closed. -/
  native? : Option Nat
  path : String
  functions : FunctionRegistry
  deriving Repr, DecidableEq, Inhabited

/-- A way to interrupt a connection from elsewhere. -/
structure InterruptHandle where
  connection : Nat
  deriving Repr, DecidableEq, Inhabited

/-- Asks the connection to stop what it is executing, if it is still open. -/
def InterruptHandle.interrupt (n : Native σ) (h : InterruptHandle) : StateM σ Unit := do
  if ← n.isOpen h.connection then n.interrupt h.connection

namespace Connection

/-! ## Opening and closing -/

/-- Opens the engine's connection. One that the engine has made without opening it is released. -/
def connect (n : Native σ) (path : String) (flags : OpenFlags) : StateM σ (Except Error Nat) := do
  match nulError? path with
  | some reason => return .error (.opening bindingError ("invalid path: " ++ reason))
  | none =>
    match ← n.connect path flags with
    | .error failure =>
      if let some native := failure.connection? then
        let _ ← n.disconnect native
      return .error (.opening failure.code failure.message)
    | .ok native => return .ok native

/-- Opens a database with flags that are known to be valid. -/
def openWithFlags (n : Native σ) (path : String) (flags : OpenFlags) :
    StateM σ (Except Error Connection) := do
  if path.isEmpty then
    return .error (.opening bindingError "database path must not be empty")
  match ← connect n path flags with
  | .error e =>
    n.log (.of .debug "open failed" [("path", path), ("error", e.display)])
    return .error e
  | .ok native =>
    n.log (.of .debug "opened database"
      [("path", path), ("flags", toString flags.bits.toInt)])
    return .ok ⟨some native, path, []⟩

/-- Opens a database in an integer mode. -/
def openMode (n : Native σ) (path : String) (mode : Int32) :
    StateM σ (Except Error Connection) := do
  match OpenFlags.ofMode mode with
  | .error e => return .error e
  | .ok flags => openWithFlags n path flags

/-- The path that stands for private memory. -/
def memoryPath : String := ":memory:"

/-- Opens a private database in memory. -/
def openInMemory (n : Native σ) : StateM σ (Except Error Connection) := openMode n memoryPath 0

def isClosed (c : Connection) : Bool := c.native?.isNone

/-- Closes a connection. It is closed even if the engine reports a failure. -/
def close (n : Native σ) (c : Connection) : StateM σ (Except Error Unit × Connection) := do
  match c.native? with
  | none => return (.error (.closedHandle .database), c)
  | some native =>
    let failure? ← n.disconnect native
    n.log (.of .debug "closed database" [("path", c.path)])
    let closed := { c with native? := none }
    match failure? with
    | some failure => return (.error failure.toError, closed)
    | none => return (.ok (), closed)

/-- Drops a connection, closing it if it is open. -/
def drop (n : Native σ) (c : Connection) : StateM σ Unit := do
  match c.native? with
  | none => return
  | some native =>
    let _ ← n.disconnect native
    return

/-- Runs an operation on the engine's connection, unless that is closed. -/
def withNative {α : Type} (c : Connection) (f : Nat → StateM σ (Except Error α)) :
    StateM σ (Except Error α) :=
  match c.native? with
  | none => return .error (.closedHandle .database)
  | some native => f native

/-! ## Running commands -/

/-- The error of a text that holds a NUL. -/
def nulIn (what reason : String) : Error :=
  .ofCode ResultCode.error ("nul in " ++ what ++ ": " ++ reason)

/-- Compiles the first command of a text in the engine. -/
def prepare (n : Native σ) (native : Nat) (sql : String) :
    StateM σ (Except Error (Option Nat × Nat)) := do
  match nulError? sql with
  | some reason => return .error (nulIn "SQL" reason)
  | none =>
    match ← n.prepare native sql with
    | .error failure => return .error failure.toError
    | .ok result => return .ok result

/-- The text after so many bytes of a text; empty if no character begins there. -/
def textAfter (sql : String) (used : Nat) : String :=
  String.ofList ((Utf8.dropBytes? used sql.toList).getD [])

/-- Compiles the first command of a text. The result is the statement and the text after it. -/
def compile (n : Native σ) (c : Connection) (sql : String) :
    StateM σ (Except Error (Statement × String)) :=
  c.withNative fun native => do
    match ← prepare n native sql with
    | .error e =>
      n.log (.of .debug "compile failed" [("error", e.display)])
      return .error e
    | .ok (statement, used) =>
      return .ok (.new statement, textAfter sql used)

/-- Runs all commands of a text. -/
def execute (n : Native σ) (c : Connection) (sql : String) : StateM σ (Except Error Unit) :=
  c.withNative fun native => do
    match nulError? sql with
    | some reason => return .error (nulIn "SQL" reason)
    | none =>
      match ← n.execute native sql with
      | some failure => return .error failure.toError
      | none => return .ok ()

/-- Runs the first command of a text and collects its rows. -/
def query (n : Native σ) (c : Connection) (sql : String) : StateM σ QueryAnswer := do
  match ← c.compile n sql with
  | .error e => return .rejected e
  | .ok (s, remainder) =>
    let (last, rows, s) ← s.collect n [] Statement.maxRows
    s.drop n
    match last with
    | .error e => return .failed e rows
    | .ok r => return .finished ⟨rows, r.columns, r.types, remainder⟩

/-- The row number of the latest insertion. -/
def lastInsertRowId (n : Native σ) (c : Connection) : StateM σ (Except Error Int64) :=
  c.withNative fun native => .ok <$> n.lastInsertRowId native

/-- How many rows the latest command changed. -/
def changes (n : Native σ) (c : Connection) : StateM σ (Except Error Int64) :=
  c.withNative fun native => .ok <$> n.changes native

/-- Asks the connection to stop what it is executing. -/
def interrupt (n : Native σ) (c : Connection) : StateM σ (Except Error Unit) :=
  c.withNative fun native => .ok <$> n.interrupt native

def interruptHandle (c : Connection) : Except Error InterruptHandle :=
  match c.native? with
  | none => .error (.closedHandle .database)
  | some native => .ok ⟨native⟩

/-! ## Callbacks -/

/-- Installs a policy for locked resources, or none. -/
def setPolicy (n : Native σ) (c : Connection) (policy : Option BusyPolicy) :
    StateM σ (Except Error Unit) :=
  c.withNative fun native => .ok <$> n.setPolicy native policy

/-- Lets a closure decide about locked resources; without one a lock fails at once. -/
def busyHandler (n : Native σ) (c : Connection)
    (callback : Option ((resource : String) → (attempt : UInt32) → BusyProgram)) :
    StateM σ (Except Error Unit) :=
  c.setPolicy n (callback.map (.handler c.path))

/-- Waits for locked resources up to so many milliseconds. -/
def busyTimeout (n : Native σ) (c : Connection) (ms : UInt32) : StateM σ (Except Error Unit) :=
  c.setPolicy n (if ms = 0 then none else some (.ofMilliseconds ms))

/-- What a registration is called in its error. -/
def registrationName : Callbacks → String
  | .scalar _ => "create function"
  | .aggregate _ _ => "create aggregate"

/-- Registers a function. -/
def register (n : Native σ) (c : Connection) (name : String) (arity : Int32)
    (callbacks : Callbacks) : StateM σ (Except Error Unit × Connection) := do
  let record := FunctionRecord.new name arity callbacks
  match c.native?, nulError? name with
  | none, _ => return (.error (.closedHandle .database), c)
  | some _, some reason => return (.error (nulIn "function name" reason), c)
  | some native, none =>
    match ← n.register native record with
    | .error code =>
      return (.error (.ofCode code (registrationName callbacks ++ " " ++ record.signature)), c)
    | .ok number => return (.ok (), { c with functions := c.functions.insert name arity number })

/-- Declares the result type of every function of a name. -/
def declare (n : Native σ) (c : Connection) (name : String) (type : ResultType) :
    StateM σ (Except Error Unit) :=
  c.withNative fun _ => do
    let records := c.functions.named name
    if records.isEmpty then
      return .error (.ofCode ResultCode.error
        ("function type " ++ name ++ "(" ++ toString type.code.toInt ++ ")"))
    records.forM fun record => n.declareType record type
    return .ok ()

end Connection

end HostSql
