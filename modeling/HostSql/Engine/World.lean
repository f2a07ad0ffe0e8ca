import HostSql.Assoc
import HostSql.Error
import HostSql.Engine.Catalog
import HostSql.Engine.Plan

/-!
# The state of the engine

A `World` holds the volumes (files and private memory), the connections to them, the compiled
statements, and the state of the host, whose type the engine does not know. What the engine asks
of its host while it runs is a record of four calls, `Hooks`; each may change the whole world,
because a host function may use any connection, also the one that is calling it.
-/

namespace HostSql.Engine

/-- A failure: a result code, its message, and how much of the work is undone. A failure undoes the
statement (`abort`), nothing (`fail`) or the transaction (`rollback`). -/
structure Fault where
  code : Int32
  message : String
  effect : Sql.Conflict
  known : ErrorKind.isKnownFailure code = true
  /-- Only a broken rule of a table undoes more or less than its statement. -/
  ordinary : effect = .abort ∨ code = 19
  deriving Repr, DecidableEq

namespace Fault

/-- A failure that undoes its statement. -/
def of (code : Int32) (message : String) (known : ErrorKind.isKnownFailure code = true) : Fault :=
  ⟨code, message, .abort, known, .inl rfl⟩

/-- A failure of the general kind. -/
def general (message : String) : Fault := of 1 message rfl
def forbidden (message : String) : Fault := of 3 message rfl
def aborted : Fault := of 4 "abort due to ROLLBACK" rfl
def busy : Fault := of 5 "database is locked" rfl
def busyWith (message : String) : Fault := of 5 message rfl
def tableLocked : Fault := of 6 "database table is locked" rfl
def outOfMemory : Fault := of 7 "out of memory" rfl
def readOnly : Fault := of 8 "attempt to write a readonly database" rfl
def interrupted : Fault := of 9 "interrupted" rfl
/-- A directory where a database should be can be opened for reading, but not read. -/
def unreadable : Fault := of 10 "disk I/O error" rfl
def malformed (message : String) : Fault := of 11 message rfl
def full : Fault := of 13 "database or disk is full" rfl
def cannotOpen : Fault := of 14 "unable to open database file" rfl
/-- The catalog has to be read, for the first time or again. -/
def catalogChanged : Fault := of 17 "database schema has changed" rfl
def constraint (effect : Sql.Conflict) (message : String) : Fault :=
  ⟨19, message, effect, rfl, .inr rfl⟩
def mismatch : Fault := of 20 "datatype mismatch" rfl
def misuse : Fault := of 21 "bad parameter or other API misuse" rfl
def notADatabase : Fault := of 26 "file is not a database" rfl

/-- Whether a failure leaves no way to go on with the transaction. -/
def endsTransaction (f : Fault) : Bool := f.code == 7 || f.code == 9 || f.code == 13

end Fault

/-! ## Volumes -/

/-- What is stored in a volume: bytes that no connection has written, or a database. No bytes at all
are an empty database. -/
inductive Content where
  | bytes (bs : List UInt8)
  | database (db : Database)
  deriving Repr, DecidableEq, Inhabited

/-- The database in a volume. -/
def Content.database? : Content → Except Fault Database
  | .bytes [] => .ok .empty
  | .bytes _ => .error .notADatabase
  | .database db => .ok db

/-- A place where a database is stored; private ones have no path. -/
structure Volume where
  path : Option String
  content : Content
  deriving Repr, DecidableEq

/-! ## Connections -/

/-- How much of a volume a connection claims. Any number of connections may read, one of them may
also prepare changes, and only one that is alone may put them down; one that waits for the others to
leave keeps new ones out. -/
inductive Lock where
  | none
  | shared
  | reserved
  | pending
  | exclusive
  deriving Repr, DecidableEq, Inhabited

/-- Locks from weak to strong. -/
def Lock.strength : Lock → Nat
  | none => 0
  | shared => 1
  | reserved => 2
  | pending => 3
  | exclusive => 4

/-- A function that the host has registered. -/
structure HostFunction where
  name : String
  /-- The number of arguments, or `-1` for any. -/
  arity : Int
  isAggregate : Bool
  record : Nat
  deriving Repr, DecidableEq

/-- A point inside a transaction to which it can go back. -/
structure Savepoint where
  name : String
  draft : Option Database
  opensTransaction : Bool
  deriving Repr, DecidableEq

/-- A connection to a volume. -/
structure Connection where
  volume : Nat
  readOnly : Bool
  lock : Lock
  autocommit : Bool
  /-- The database as the transaction has written it; absent before it begins to write. -/
  draft : Option Database
  /-- Whether the transaction has changed the catalog. -/
  catalogChanged : Bool
  savepoints : List Savepoint
  /-- The catalog as last read. -/
  catalog : Option Catalog
  functions : List HostFunction
  /-- Whether the host wants to be asked before the engine gives up on a lock. -/
  asksHost : Bool
  /-- How often it has been asked in this wait; absent once it has said no. -/
  asked : Option Nat
  interrupted : Bool
  counters : Counters
  writableCatalog : Bool
  deriving Repr

/-- A connection that has just been opened. -/
def Connection.opened (volume : Nat) (readOnly : Bool) : Connection where
  volume := volume
  readOnly := readOnly
  lock := .none
  autocommit := true
  draft := none
  catalogChanged := false
  savepoints := []
  catalog := none
  functions := []
  asksHost := false
  asked := some 0
  interrupted := false
  counters := ⟨0, 0, 0⟩
  writableCatalog := false

/-! ## Statements -/

/-- What becomes of the rows of a table whose columns change. -/
inductive ColumnChange where
  | keep
  | add (d : Datum)
  | remove (i : Nat)
  deriving Repr

/-- A change of the rows of one table. -/
inductive RowChange where
  /-- For each row of the source, the terms of the columns and of the row number. -/
  | insert (source : Plan) (columns : List Term) (number : Option Term)
  /-- For each row that meets the condition, the columns that change, with terms over the old row.
  -/
  | update (sets : List (Nat × Term)) (number : Option Term) (condition : Option Term)
  | delete (condition : Option Term)
  deriving Repr

/-- Where rows are changed: the table, its conditions, and what to do with rows that break a rule.
-/
structure Target where
  table : Table
  checks : List (String × Term)
  /-- Values for columns that must not be missing. -/
  defaults : List Term
  conflict : Option Sql.Conflict
  deriving Repr

/-- A change of the tables themselves. -/
inductive TableChange where
  | create (name : String) (definition : Sql.TableDef) (text : String)
  | drop (table : Table)
  /-- A new name and a new definition, and the change of a column that rows take part in. -/
  | redefine (table : Table) (newName : String) (text : String) (columns : ColumnChange)

/-- What a statement does. -/
inductive Action where
  | query (plan : Plan)
  | changeRows (target : Target) (change : RowChange)
  | changeTables (change : TableChange)
  | begin (mode : Sql.BeginMode)
  | commit
  | rollback
  | savepoint (name : String)
  | release (name : String)
  | rollbackTo (name : String)
  /-- Rows that are known, such as the value of a setting. -/
  | nothing

/-- Whether an action is a step of an explicit transaction. It claims its volume only while it runs. -/
def Action.isTransaction : Action → Bool
  | begin _ | commit | rollback | savepoint _ | release _ | rollbackTo _ => true
  | _ => false

/-- What a statement needs of its volume. -/
inductive Access where
  | none
  | read
  | write
  deriving Repr, DecidableEq

/-- A compiled statement: what it does, its columns with their declared types, what it needs, and
the count of catalog changes at which it was compiled. -/
structure Program where
  action : Action
  columns : List (String × Option String)
  access : Access
  cookie : Option Nat

/-- What a program claims before it runs. -/
def Program.claims (p : Program) : Access := if p.action.isTransaction then .none else p.access

/-- Whether a connection keeps its volume while it executes a program. -/
def Program.usesVolume (p : Program) : Bool := p.access != .none || p.action.isTransaction

/-- Where the execution of a statement stands. -/
inductive Phase where
  | ready
  /-- Begun, but a lock was refused; the next step tries again. -/
  | blocked
  | running
  /-- Ended, with or without a failure. -/
  | halted
  deriving Repr, DecidableEq

/-- A compiled statement and its execution. -/
structure Statement where
  connection : Nat
  text : List Char
  program : Program
  /-- Whether it must be compiled again before it runs again. -/
  expired : Bool
  phase : Phase
  cursor : Cursor
  row : Row
  failure : Option Fault
  /-- Whether a rollback has taken away the tables it was reading. -/
  tripped : Bool

/-! ## The world -/

/-- The state of the engine and of its host. -/
structure World (H : Type) where
  volumes : Assoc Nat Volume
  connections : Assoc Nat Connection
  statements : Assoc Nat Statement
  nextId : Nat
  host : H

/-- A computation on the world that may fail. -/
abbrev Run (H : Type) := ExceptT Fault (StateM (World H))

/-- What a host function leaves behind: the group it has begun, if any, and its result or the
message of its failure. -/
structure Reply where
  slot : Option Nat
  result : Except String Datum

/-- What the engine asks of its host. -/
structure Hooks (H : Type) where
  /-- Calls a host function on a row. For an aggregate, `slot` is what the group's earlier rows left
  behind. -/
  call : (record : Nat) → (slot : Option Nat) → (args : List Datum) → StateM (World H) Reply
  /-- Ends a group whose result is wanted. -/
  finish : (record : Nat) → (slot : Option Nat) → StateM (World H) Reply
  /-- Ends a group that has been given up; whatever comes out of it is lost. -/
  discard : (record : Nat) → (slot : Nat) → StateM (World H) Unit
  /-- Asks, for the `attempt`-th time, whether to try again to get a lock. -/
  busy : (connection : Nat) → (attempt : Nat) → StateM (World H) Bool

namespace World

variable {H : Type}

/-- A number that stands for nothing yet. -/
def fresh : StateM (World H) Nat := do
  let w ← get
  set { w with nextId := w.nextId + 1 }
  return w.nextId

def connection? (c : Nat) : StateM (World H) (Option Connection) := do
  return (← get).connections.get? c

/-- Changes a connection. -/
def modifyConnection (c : Nat) (f : Connection → Connection) : StateM (World H) Unit :=
  modify fun w => { w with connections := Assoc.update w.connections c f }

/-- Changes a statement. -/
def modifyStatement (s : Nat) (f : Statement → Statement) : StateM (World H) Unit :=
  modify fun w => { w with statements := Assoc.update w.statements s f }

/-- The statements of a connection that are being executed. -/
def active (w : World H) (c : Nat) : List (Nat × Statement) :=
  w.statements.filter fun (_, s) =>
    s.connection = c && (s.phase = .running || s.phase = .blocked)

/-- Whether a connection executes anything. -/
def isActive (w : World H) (c : Nat) : Bool := !(w.active c).isEmpty

end World

/-- Runs a computation and hands its failure on as a value. -/
def attempt {H α : Type} (x : Run H α) : Run H (Except Fault α) := ExceptT.lift x.run

/-- The connection that a computation works on. -/
def connectionOf {H : Type} (c : Nat) : Run H Connection := do
  match (← get).connections.get? c with
  | some conn => return conn
  | none => throw .misuse

end HostSql.Engine
