import HostSql.Proofs.Statement.Life

/-!
# The life of connections

A host opens connections, calls them in any order with any arguments, and drops them. The values
that it holds stand in a pool, in the order in which they were opened. Between two actions the
world may change in any way. What the engine is asked about its connections is noted beside the
world: that one is made, and that one is released.

`HostEntry.Lawful` says what is expected of one action, given the actions before it. A connection is
closed after the first `close`, whatever that returned. `LawfulHost` adds what holds of the values
and of the engine's connections after all actions.
-/

namespace HostSql

open Beside

variable {σ α : Type}

/-! ## Notes of what the engine is asked -/

/-- One thing that the engine did with a connection of its own. -/
inductive HandleNote where
  | opened (connection : Nat)
  | released (connection : Nat) (failure? : Option NativeFailure)
  deriving Repr, DecidableEq

/-- The connection that was made, if one was. -/
def HandleNote.opened? : HandleNote → Option Nat
  | opened h => some h
  | released _ _ => none

/-- The connection that was released, if one was. -/
def HandleNote.released? : HandleNote → Option Nat
  | opened _ => none
  | released h _ => some h

/-- The connections that were made, as often as they were. -/
def openedIn (notes : List HandleNote) : List Nat := notes.filterMap (·.opened?)

/-- The connections that were released, as often as they were. -/
def releasedIn (notes : List HandleNote) : List Nat := notes.filterMap (·.released?)

/-- Asks something of the engine and notes what it says about connections. -/
def tracked (x : StateM σ α) (notes : α → List HandleNote) :
    StateM (Beside σ (List HandleNote)) α := do
  let answer ← outside x
  modifyOwn (· ++ notes answer)
  return answer

/-- What an attempt to open a connection made. The engine may make one that is not open. -/
def connectNotes : Except ConnectFailure Nat → List HandleNote
  | .ok h => [.opened h]
  | .error failure => failure.connection?.toList.map .opened

/-- An engine of which it is noted which connections it makes and releases. -/
def Native.tracking (n : Native σ) : Native (Beside σ (List HandleNote)) where
  connect path flags := tracked (n.connect path flags) connectNotes
  disconnect h := tracked (n.disconnect h) fun failure? => [.released h failure?]
  isOpen h := outside (n.isOpen h)
  prepare h sql := outside (n.prepare h sql)
  execute h sql := outside (n.execute h sql)
  changes h := outside (n.changes h)
  lastInsertRowId h := outside (n.lastInsertRowId h)
  interrupt h := outside (n.interrupt h)
  setPolicy h policy := outside (n.setPolicy h policy)
  register h r := outside (n.register h r)
  declareType record type := outside (n.declareType record type)
  step k := outside (n.step k)
  columnCount k := outside (n.columnCount k)
  columnName k column := outside (n.columnName k column)
  columnType k column := outside (n.columnType k column)
  columnText k column := outside (n.columnText k column)
  finalize k := outside (n.finalize k)
  log r := outside (n.log r)

/-! ## Calls of a connection -/

/-- A call of a connection. -/
inductive ConnectionCall where
  | close
  | compile (sql : String)
  | execute (sql : String)
  | lastInsertRowId
  | changes
  | interrupt
  | interruptHandle
  | busyHandler (callback : Option ((resource : String) → (attempt : UInt32) → BusyProgram))
  | busyTimeout (ms : UInt32)
  | register (name : String) (arity : Int32) (callbacks : Callbacks)
  | declare (name : String) (type : ResultType)

def ConnectionCall.isClose : ConnectionCall → Bool
  | close => true
  | _ => false

/-- What a call of a connection returned. -/
inductive ConnectionAnswer where
  | unit (answer : Except Error Unit)
  | compiled (answer : Except Error (Statement × String))
  | number (answer : Except Error Int64)
  | handle (answer : Except Error InterruptHandle)

/-- The error of an answer that is one. -/
def errorOf? : Except Error α → Option Error
  | .error e => some e
  | .ok _ => none

/-- The error of a call that failed. -/
def ConnectionAnswer.error? : ConnectionAnswer → Option Error
  | unit answer => errorOf? answer
  | compiled answer => errorOf? answer
  | number answer => errorOf? answer
  | handle answer => errorOf? answer

/-- Makes a call. -/
def Connection.perform (n : Native σ) (c : Connection) :
    ConnectionCall → StateM σ (ConnectionAnswer × Connection)
  | .close => do
    let (answer, c) ← c.close n
    return (.unit answer, c)
  | .compile sql => return (.compiled (← c.compile n sql), c)
  | .execute sql => return (.unit (← c.execute n sql), c)
  | .lastInsertRowId => return (.number (← c.lastInsertRowId n), c)
  | .changes => return (.number (← c.changes n), c)
  | .interrupt => return (.unit (← c.interrupt n), c)
  | .interruptHandle => return (.handle c.interruptHandle, c)
  | .busyHandler callback => return (.unit (← c.busyHandler n callback), c)
  | .busyTimeout ms => return (.unit (← c.busyTimeout n ms), c)
  | .register name arity callbacks => do
    let (answer, c) ← c.register n name arity callbacks
    return (.unit answer, c)
  | .declare name type => return (.unit (← c.declare n name type), c)

/-! ## Actions of a host -/

/-- A way to open a database. -/
inductive Opening where
  | mode (path : String) (number : Int32)
  | flags (path : String) (set : OpenFlags)
  | memory

/-- The path that is opened. -/
def Opening.path : Opening → String
  | mode path _ | flags path _ => path
  | memory => Connection.memoryPath

/-- Opens a database. -/
def Opening.run (n : Native σ) : Opening → StateM σ (Except Error Connection)
  | mode path number => Connection.openMode n path number
  | flags path set => Connection.openWithFlags n path set
  | memory => Connection.openInMemory n

/-- The values that a host holds, in the order of their opening; none where one was dropped. -/
abbrev Pool := List (Option Connection)

/-- The value at a place of the pool. -/
def Pool.value? (pool : Pool) (i : Nat) : Option Connection := (pool[i]?).join

/-- The engine's connections that the values of a pool hold. -/
def Pool.handles (pool : Pool) : List Nat := pool.filterMap (·.bind (·.native?))

/-- What a host does. Values go by their places in the pool. -/
inductive HostAction where
  | openNew (how : Opening)
  | call (i : Nat) (request : ConnectionCall)
  | drop (i : Nat)

/-- How an action ended. -/
inductive HostAnswer where
  | opened (answer : Except Error Connection)
  | called (answer : ConnectionAnswer)
  | dropped
  /-- There is no value at that place. -/
  | absent

/-- The error of a call that failed. -/
def HostAnswer.callError? : HostAnswer → Option Error
  | called answer => answer.error?
  | opened _ | dropped | absent => none

/-- The place of the value that an action is about. -/
def HostAction.place (pool : Pool) : HostAction → Nat
  | openNew _ => pool.length
  | call i _ | drop i => i

/-- Does what a host does. -/
def HostAction.act (n : Native σ) (pool : Pool) : HostAction → StateM σ (HostAnswer × Pool)
  | openNew how => do
    match ← how.run n with
    | .error e => return (.opened (.error e), pool)
    | .ok c => return (.opened (.ok c), pool ++ [some c])
  | call i request =>
    match pool.value? i with
    | none => return (.absent, pool)
    | some c => do
      let (answer, c) ← c.perform n request
      return (.called answer, pool.set i (some c))
  | drop i =>
    match pool.value? i with
    | none => return (.absent, pool)
    | some c => do
      c.drop n
      return (.dropped, pool.set i none)

/-- An action, after the world has changed in some way. -/
structure HostTurn (σ : Type) where
  meanwhile : σ → σ
  action : HostAction

/-- What there is to tell of an action. -/
structure HostEntry (σ : Type) where
  action : HostAction
  before : σ
  notes : List HandleNote
  answer : HostAnswer
  after : σ
  /-- The value that the action is about, before it and after it. -/
  value? : Option Connection
  next? : Option Connection

/-- What an action asks of the engine about connections. -/
def HostAction.notes (n : Native σ) (pool : Pool) (action : HostAction) (w : σ) :
    List HandleNote :=
  ((action.act n.tracking pool).run ⟨w, []⟩).2.own

/-- Takes a turn. -/
def HostTurn.take (n : Native σ) (pool : Pool) (t : HostTurn σ) :
    StateM σ (HostEntry σ × Pool) := do
  modify t.meanwhile
  let before ← get
  let (answer, pool') ← t.action.act n pool
  let i := t.action.place pool
  return (⟨t.action, before, t.action.notes n pool before, answer, ← get, pool.value? i,
    pool'.value? i⟩, pool')

/-- Takes one turn after the other. -/
def takeTurns (n : Native σ) (pool : Pool) :
    List (HostTurn σ) → StateM σ (List (HostEntry σ) × Pool)
  | [] => return ([], pool)
  | t :: rest => do
    let (entry, pool) ← t.take n pool
    let (entries, pool) ← takeTurns n pool rest
    return (entry :: entries, pool)

/-! ## What is expected -/

/-- Whether an action closes the value at a place. -/
def HostEntry.closes (i : Nat) (e : HostEntry σ) : Bool :=
  match e.action, e.answer with
  | .call j call, .called _ => j = i && call.isClose
  | _, _ => false

/-- The path of the value that an action opened, if it opened one. -/
def HostEntry.openedPath? (e : HostEntry σ) : Option String :=
  match e.action, e.answer with
  | .openNew how, .opened (.ok _) => some how.path
  | _, _ => none

/-- What is expected of an attempt to open a database. -/
structure OpeningLawful (how : Opening) (answer : Except Error Connection) (e : HostEntry σ) :
    Prop where
  /-- A value has a connection of the engine, and no functions yet. -/
  opened : ∀ c, answer = .ok c → ∃ h, e.notes = [.opened h] ∧ c = ⟨some h, how.path, []⟩ ∧
    e.next? = some c
  /-- A connection that the engine made all the same is released at once. -/
  failed : ∀ error, answer = .error error → e.next? = none ∧
    (e.notes = [] ∨ ∃ h failure?, e.notes = [.opened h, .released h failure?])

/-- What is expected of a call of a value, given whether that was closed before. -/
structure CallLawful (closed : Bool) (call : ConnectionCall) (c : Connection)
    (e : HostEntry σ) : Prop where
  /-- A closed connection refuses every call with whatever arguments, and only such a one. -/
  refused : e.answer.callError? = some (.closedHandle .database) ↔ closed = true
  /-- A refused call changes nothing: not the world, not the path, not the functions. -/
  untouched : closed = true → e.notes = [] ∧ e.after = e.before ∧ e.next? = some c
  /-- The first close takes the connection, whatever the engine says about it. -/
  taken : closed = false → call.isClose = true → ∃ h failure?, c.native? = some h ∧
    e.notes = [.released h failure?] ∧ e.answer = .called (.unit (releaseAnswer failure?)) ∧
    e.next? = some { c with native? := none }
  /-- Other calls keep the connection and its path. -/
  kept : closed = false → call.isClose = false → e.notes = [] ∧
    ∃ functions, e.next? = some { c with functions }
  isClosed : c.isClosed = closed ∧ e.next?.map (·.isClosed) = some (closed || call.isClose)

/-- What is expected when a value is dropped, given whether it was closed before. -/
structure DropLawful (closed : Bool) (c : Connection) (e : HostEntry σ) : Prop where
  gone : e.next? = none
  untouched : closed = true → e.notes = [] ∧ e.after = e.before
  taken : closed = false → ∃ h failure?, c.native? = some h ∧ e.notes = [.released h failure?]

/-- What is expected of an action, given those before it. -/
def HostEntry.Lawful (earlier : List (HostEntry σ)) (e : HostEntry σ) : Prop :=
  match e.action, e.value? with
  | .openNew how, _ => ∃ answer, e.answer = .opened answer ∧ OpeningLawful how answer e
  | .call i call, some c => CallLawful (earlier.any (·.closes i)) call c e
  | .drop i, some c => DropLawful (earlier.any (·.closes i)) c e
  | .call _ _, none | .drop _, none =>
    e.answer = .absent ∧ e.notes = [] ∧ e.after = e.before ∧ e.next? = none

/-- What is expected of everything that a host does, and of the values that it holds by then. -/
structure LawfulHost (entries : List (HostEntry σ)) (pool : Pool) : Prop where
  actions : ∀ earlier e later, entries = earlier ++ e :: later → e.Lawful earlier
  /-- A value is closed if it has been closed by a call, and only then. -/
  closed : ∀ i c, pool.value? i = some c → c.isClosed = entries.any (·.closes i)
  /-- A value has the path that it was opened with. -/
  path : ∀ i c, pool.value? i = some c → (entries.filterMap (·.openedPath?))[i]? = some c.path
  /-- Every connection that the engine made has been released once, or is held by one value. -/
  handles : (openedIn (entries.flatMap (·.notes))).Perm
    (releasedIn (entries.flatMap (·.notes)) ++ pool.handles)

end HostSql
