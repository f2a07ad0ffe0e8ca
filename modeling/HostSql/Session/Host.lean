import HostSql.Connection
import HostSql.Engine.Connect

/-!
# The host of a session

A `Host` keeps what the engine calls back and what closures use: function records, busy policies,
connections and interrupt handles by name, and what has been reported. It turns the engine into a
`Native` and the engine's questions into runs of closures. A closure may run statements that call
closures, so the two are built on each other, one level of nesting at a time.
-/

namespace HostSql

open Engine (World Hooks Reply)

/-- The host's part of the world. -/
structure Host where
  records : Assoc Nat FunctionRecord
  /-- The policies of connections, by the engine's numbers. -/
  policies : Assoc Nat BusyPolicy
  connections : Assoc String Connection
  handles : Assoc String InterruptHandle
  /-- Statements with the names of their connections. -/
  statements : Assoc String (String × Statement)
  /-- Events and log records since they were last collected, the newest first. -/
  events : List Event
  log : List LogRecord

/-- The world of a session. -/
abbrev SessionWorld := World Host

namespace SessionWorld

/-- Before anything has happened. -/
def empty : SessionWorld where
  volumes := []
  connections := []
  statements := []
  nextId := 1
  host := ⟨[], [], [], [], [], [], []⟩

/-- Changes the host. -/
def modifyHost (f : Host → Host) : StateM SessionWorld Unit :=
  modify fun w => { w with host := f w.host }

/-- Changes the record of a function. -/
def modifyRecord (record : Nat) (f : FunctionRecord → FunctionRecord) : StateM SessionWorld Unit :=
  modifyHost fun h => { h with records := Assoc.update h.records record f }

end SessionWorld

open SessionWorld

/-! ## The engine as the library sees it -/

def Engine.Fault.toNative (f : Engine.Fault) : NativeFailure := ⟨f.code, f.message⟩

def Engine.Progress.toNative : Engine.Progress → NativeStatus
  | row => ⟨ResultCode.row, ""⟩
  | done => ⟨ResultCode.done, ""⟩
  | failed fault => ⟨fault.code, fault.message⟩

/-- Registers a function with the engine and keeps its record. -/
def registerNative (connection : Nat) (r : FunctionRecord) :
    StateM SessionWorld (Except Int32 Nat) := do
  let number ← World.fresh
  let code ← Engine.register connection ⟨r.name, r.arity.toInt, r.callbacks.isAggregate, number⟩
  if code = ResultCode.ok then
    modifyHost fun h => { h with records := h.records.set number r }
    return .ok number
  else return .error code

/-- Installs the policy of a connection. -/
def setNativePolicy (connection : Nat) (policy : Option BusyPolicy) : StateM SessionWorld Unit := do
  Engine.setAsksHost connection policy.isSome
  modifyHost fun h => { h with
    policies := match policy with
      | some p => h.policies.set connection p
      | none => Assoc.erase h.policies connection }

/-- What a host does for the library besides answering the engine: it keeps policies and records of
functions, and takes log records. -/
structure HostServices (H : Type) where
  setPolicy : (connection : Nat) → Option BusyPolicy → StateM (World H) Unit
  register : (connection : Nat) → FunctionRecord → StateM (World H) (Except Int32 Nat)
  declareType : (record : Nat) → ResultType → StateM (World H) Unit
  log : LogRecord → StateM (World H) Unit

/-- The services of a session's host. -/
def Host.services : HostServices Host where
  setPolicy := setNativePolicy
  register := registerNative
  declareType record type := modifyRecord record fun r => { r with resultType := type }
  log r := modifyHost fun h => { h with log := r :: h.log }

section Engine

variable {H : Type}

/-- Opens a connection, which has to be closed even if it was not opened. -/
def connectNative (path : String) (flags : OpenFlags) :
    StateM (World H) (Except ConnectFailure Nat) := do
  match ← (Engine.connect path flags).run with
  | .ok number => return .ok number
  | .error fault =>
    let number ← Engine.connectNowhere
    return .error ⟨fault.toNative, some number⟩

/-- Reads something of a statement of the engine. -/
def ofStatement {α : Type} (statement : Nat) (missing : α) (read : Engine.Statement → α) :
    StateM (World H) α := do
  return (((← get).statements.get? statement).map read).getD missing

/-- The engine with a host. -/
def nativeOn (services : HostServices H) (hooks : Hooks H) : Native (World H) where
  connect := connectNative
  disconnect connection := do
    Engine.disconnect connection
    services.setPolicy connection none
    return none
  isOpen connection := return (← World.connection? connection).isSome
  prepare connection sql := do
    match ← Engine.prepare hooks connection sql.toList with
    | .ok (statement, stop) => return .ok (statement, Utf8.size (sql.toList.take stop))
    | .error fault => return .error fault.toNative
  execute connection sql := do
    return (← Engine.execute hooks connection sql.toList).map (·.toNative)
  changes connection := do
    return ((← World.connection? connection).map fun c => Int64.ofNat c.counters.changes).getD 0
  lastInsertRowId connection := do
    return ((← World.connection? connection).map (·.counters.lastRowid)).getD 0
  interrupt := Engine.interrupt
  setPolicy := services.setPolicy
  register := services.register
  declareType := services.declareType
  step statement := do return (← Engine.step hooks statement).toNative
  columnCount statement := ofStatement statement 0 (·.program.columns.length)
  columnName statement i :=
    ofStatement statement "" fun s => ((s.program.columns[i]?).map (·.1)).getD ""
  columnType statement i := ofStatement statement none fun s => (s.program.columns[i]?).bind (·.2)
  columnText statement i := ofStatement statement none fun s => (s.row[i]?).bind (·.readText?)
  finalize statement := do return (← Engine.finalize hooks statement).map (·.toNative)
  log := services.log

end Engine

/-- The engine with the host of a session. -/
def native (hooks : Hooks Host) : Native SessionWorld := nativeOn Host.services hooks

/-! ## Closures -/

/-- Uses a connection by name. A name that stands for none is as good as a closed connection. -/
def withConnection {α : Type} (name : String) (missing : Error → α)
    (f : Connection → StateM SessionWorld α) : StateM SessionWorld α := do
  match (← get).host.connections.get? name with
  | some c => f c
  | none => return missing (.closedHandle .database)

/-- Registers a function on a connection and keeps the connection's new registry. -/
def registerOn (n : Native SessionWorld) (name function : String) (arity : Int32)
    (callbacks : Callbacks) : StateM SessionWorld (Except Error Unit) :=
  withConnection name .error fun c => do
    let (answer, c) ← c.register n function arity callbacks
    modifyHost fun h => { h with connections := h.connections.set name c }
    return answer

/-- Interrupts through a handle by name. -/
def interruptThrough (n : Native SessionWorld) (handle : String) : StateM SessionWorld Unit := do
  match (← get).host.handles.get? handle with
  | some h => h.interrupt n
  | none => return

/-- What closures use, given the engine for the statements that they run. -/
def ambient (n : Native SessionWorld) : Ambient SessionWorld where
  record? record := return (← get).host.records.get? record
  setGroups record groups := modifyRecord record fun r => { r with groups }
  log := n.log
  emit event := modifyHost fun h => { h with events := event :: h.events }
  interrupt := interruptThrough n
  execute name sql := withConnection name .error fun c => c.execute n sql
  query name sql := withConnection name .rejected fun c => c.query n sql
  declare name function type := withConnection name .error fun c => c.declare n function type
  register name function arity callbacks := registerOn n name function arity callbacks

/-- Asks the policy of a connection whether to wait for a lock. -/
def askPolicy (a : Ambient SessionWorld) (connection attempt : Nat) : StateM SessionWorld Bool := do
  match (← get).host.policies.get? connection with
  | none => return false
  | some policy =>
    let (retry, policy) ← policy.request a (UInt32.ofNat attempt)
    modifyHost fun h => { h with policies := h.policies.set connection policy }
    return retry

/-- The engine's questions, answered by closures that may nest to the given depth. Below it every
call fails. -/
def hooks : (depth : Nat) → Hooks Host
  | 0 => {
      call := fun _ slot _ => return noReply slot
      finish := fun _ slot => return noReply slot
      discard := fun _ _ => return
      busy := fun _ _ => return false }
  | depth + 1 =>
    let a := ambient (native (hooks depth))
    { call := callFunction a
      finish := finishGroup a
      discard := discardGroup a
      busy := askPolicy a }

/-- How deep closures may nest. -/
def maxNesting : Nat := 200

/-- The engine of a session. -/
def sessionNative : Native SessionWorld := native (hooks maxNesting)

end HostSql
