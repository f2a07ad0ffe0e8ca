import HostSql.Session.Step

/-!
# Sessions with more beside their host

A session's host can sit in a larger state, and that state can be told how closures end. A `Seat` says
where the host sits and what becomes of the rest when a closure has ended. Everything a session does, it
can then do over the larger state: closures are called, policies asked and steps run by the definitions
of the session, with the end of each closure told right after it. Over the host alone, where nobody is
told, these are the session's own definitions:

> `Seat.plain_report`: a step over the host alone is the step of the session.
-/

namespace HostSql

open Engine (World Hooks Reply Datum)

/-- How a closure has ended. -/
inductive ClosureEnd where
  /-- The closure of a function, which was registered under a name and an arity. -/
  | function (name : String) (arity : Int32) (outcome : Outcome)
  /-- A closure that was asked about a resource; without an answer it has panicked. -/
  | busy (resource : String) (attempt : UInt32) (answer : Option Bool)
  deriving Repr, DecidableEq

/-- Where the host of a session sits in a larger state, which is told how closures end. -/
structure Seat (H : Type) where
  host : H → Host
  change : (Host → Host) → H → H
  note : ClosureEnd → H → H
  host_change : ∀ f h, host (change f h) = f (host h)
  host_note : ∀ e h, host (note e h) = host h

namespace Seat

variable {H : Type}

/-- The host alone. -/
def plain : Seat Host where
  host h := h
  change f h := f h
  note _ h := h
  host_change _ _ := rfl
  host_note _ _ := rfl

variable (s : Seat H)

/-- Changes the host. -/
def modifyHost (f : Host → Host) : StateM (World H) Unit :=
  modify fun w => { w with host := s.change f w.host }

/-- Tells how a closure has ended. -/
def tell (e : ClosureEnd) : StateM (World H) Unit :=
  modify fun w => { w with host := s.note e w.host }

/-- Changes the record of a function. -/
def modifyRecord (record : Nat) (f : FunctionRecord → FunctionRecord) : StateM (World H) Unit :=
  s.modifyHost fun h => { h with records := Assoc.update h.records record f }

/-! ## The engine -/

/-- Registers a function with the engine and keeps its record. -/
def registerNative (connection : Nat) (r : FunctionRecord) :
    StateM (World H) (Except Int32 Nat) := do
  let number ← World.fresh
  let code ← Engine.register connection ⟨r.name, r.arity.toInt, r.callbacks.isAggregate, number⟩
  if code = ResultCode.ok then
    s.modifyHost fun h => { h with records := h.records.set number r }
    return .ok number
  else return .error code

/-- Installs the policy of a connection. -/
def setNativePolicy (connection : Nat) (policy : Option BusyPolicy) : StateM (World H) Unit := do
  Engine.setAsksHost connection policy.isSome
  s.modifyHost fun h => { h with
    policies := match policy with
      | some p => h.policies.set connection p
      | none => Assoc.erase h.policies connection }

/-- What the host does for the library. -/
def services : HostServices H where
  setPolicy := s.setNativePolicy
  register := s.registerNative
  declareType record type := s.modifyRecord record fun r => { r with resultType := type }
  log r := s.modifyHost fun h => { h with log := r :: h.log }

/-- The engine with the host. -/
def native (hooks : Hooks H) : Native (World H) := nativeOn s.services hooks

/-! ## Closures -/

/-- Uses a connection by name. -/
def withConnection {α : Type} (name : String) (missing : Error → α)
    (f : Connection → StateM (World H) α) : StateM (World H) α := do
  match (s.host (← get).host).connections.get? name with
  | some c => f c
  | none => return missing (.closedHandle .database)

/-- Registers a function on a connection and keeps the connection's new registry. -/
def registerOn (n : Native (World H)) (name function : String) (arity : Int32)
    (callbacks : Callbacks) : StateM (World H) (Except Error Unit) :=
  s.withConnection name .error fun c => do
    let (answer, c) ← c.register n function arity callbacks
    s.modifyHost fun h => { h with connections := h.connections.set name c }
    return answer

/-- Interrupts through a handle by name. -/
def interruptThrough (n : Native (World H)) (handle : String) : StateM (World H) Unit := do
  match (s.host (← get).host).handles.get? handle with
  | some h => h.interrupt n
  | none => return

/-- What closures use. -/
def ambient (n : Native (World H)) : Ambient (World H) where
  record? record := return (s.host (← get).host).records.get? record
  setGroups record groups := s.modifyRecord record fun r => { r with groups }
  log := n.log
  emit event := s.modifyHost fun h => { h with events := event :: h.events }
  interrupt := s.interruptThrough n
  execute name sql := s.withConnection name .error fun c => c.execute n sql
  query name sql := s.withConnection name .rejected fun c => c.query n sql
  declare name function type := s.withConnection name .error fun c => c.declare n function type
  register name function arity callbacks := s.registerOn n name function arity callbacks

/-- Runs a closure, tells how it has ended and contains its failure. -/
def protect (a : Ambient (World H)) (r : FunctionRecord) (call : Call) (diagnostic : String)
    (closure : Program) (group : Option Group) : StateM (World H) Frame := do
  let (outcome, f) ← closure.run a call (.start group)
  s.tell (.function r.name r.arity outcome)
  let contain (error? : Option Error) : StateM (World H) Frame := do
    a.log (containedFailure r diagnostic error?)
    return { f with pending := f.pending.setError diagnostic }
  match outcome with
  | .ok => return f
  | .failed e => contain (some e)
  | .panicked => contain none

/-- Calls a function on the arguments of one row. -/
def callFunction (a : Ambient (World H)) (record : Nat) (slot : Option Nat) (args : List Datum) :
    StateM (World H) Reply := do
  match ← a.record? record with
  | none => return noReply slot
  | some r =>
    let texts := args.map Datum.readText?
    let call : Call := ⟨r.resultType, args.map Datum.storageClass⟩
    match r.callbacks with
    | .scalar body =>
      let f ← s.protect a r call functionFailed (body texts) none
      return ⟨none, f.pending.result⟩
    | .aggregate step _ =>
      let id ← groupId a record slot
      let group ← takeGroup a record id
      let f ← s.protect a r call functionFailed (step texts) (some group.nextRow)
      putBackGroup a record id (f.group.getD group.nextRow)
      return ⟨some id, f.pending.result⟩

/-- Ends a group of an aggregate, which leaves the table for good. -/
def finishGroup (a : Ambient (World H)) (record : Nat) (slot : Option Nat) :
    StateM (World H) Reply := do
  match ← a.record? record with
  | none => return noReply slot
  | some r =>
    match r.callbacks with
    | .scalar _ => return ⟨slot, .ok .null⟩
    | .aggregate _ final =>
      let group ← takeGroup a record (slot.getD unusedSlot)
      let f ← s.protect a r ⟨r.resultType, []⟩ finalizeFailed final (some group)
      return ⟨slot, f.pending.result⟩

/-- Ends a group of an aggregate for which nothing is left to be done. -/
def discardGroup (a : Ambient (World H)) (record slot : Nat) : StateM (World H) Unit := do
  let _ ← s.finishGroup a record (some slot)

/-- Asks a policy whether to try again, and tells how its closure has ended. -/
def request (a : Ambient (World H)) (policy : BusyPolicy) (attempt : UInt32) :
    StateM (World H) (Bool × BusyPolicy) := do
  match policy with
  | .timeout backoff =>
    let (retry, backoff) := backoff.request attempt
    return (retry, .timeout backoff)
  | .handler resource callback =>
    let answer ← (callback resource attempt).run a
    s.tell (.busy resource attempt answer)
    match answer with
    | some retry => return (retry, policy)
    | none =>
      a.log (.of .warn "busy handler panicked"
        [("resource", resource), ("attempt", toString attempt.toNat)])
      return (false, policy)

/-- Asks the policy of a connection whether to wait for a lock. -/
def askPolicy (a : Ambient (World H)) (connection attempt : Nat) : StateM (World H) Bool := do
  match (s.host (← get).host).policies.get? connection with
  | none => return false
  | some policy =>
    let (retry, policy) ← s.request a policy (UInt32.ofNat attempt)
    s.modifyHost fun h => { h with policies := h.policies.set connection policy }
    return retry

/-- The engine's questions, answered by closures that may nest to the given depth. -/
def hooks : (depth : Nat) → Hooks H
  | 0 => {
      call := fun _ slot _ => return noReply slot
      finish := fun _ slot => return noReply slot
      discard := fun _ _ => return
      busy := fun _ _ => return false }
  | depth + 1 =>
    let a := s.ambient (s.native (hooks depth))
    { call := s.callFunction a
      finish := s.finishGroup a
      discard := s.discardGroup a
      busy := s.askPolicy a }

/-! ## Steps -/

/-- The engine. -/
def engine : Native (World H) := s.native (s.hooks maxNesting)

/-- Gives a connection's name a new connection value. -/
def keepConnection (name : String) (c : Connection) : StateM (World H) Unit :=
  s.modifyHost fun h => { h with connections := h.connections.set name c }

/-- Gives a statement's name a new statement value. -/
def keepStatement (name connection : String) (t : Statement) : StateM (World H) Unit :=
  s.modifyHost fun h => { h with statements := h.statements.set name (connection, t) }

/-- Drops the statement of a name, if there is one. -/
def dropStatement (name : String) : StateM (World H) Unit := do
  match (s.host (← get).host).statements.get? name with
  | none => return
  | some (_, t) =>
    s.modifyHost fun h => { h with statements := Assoc.erase h.statements name }
    t.drop s.engine

/-- Drops all statements of a connection. -/
def dropStatementsOf (connection : String) : StateM (World H) Unit := do
  let names :=
    ((s.host (← get).host).statements.filter fun t => t.2.1 == connection).map (·.1)
  names.forM s.dropStatement

/-- Drops a connection with its statements. -/
def dropConnection (name : String) : StateM (World H) Unit := do
  s.dropStatementsOf name
  match (s.host (← get).host).connections.get? name with
  | none => return
  | some c =>
    s.modifyHost fun h => { h with connections := Assoc.erase h.connections name }
    c.drop s.engine

/-- Keeps a connection that has been opened. -/
def keepOpened (name : String) (opened : Except Error Connection) :
    StateM (World H) StepAnswer := do
  match opened with
  | .error e => return .path (.error e)
  | .ok c =>
    s.keepConnection name c
    return .path (.ok c.path)

/-- Works on the connection of a name. -/
def onConnection (name : String) (f : Connection → StateM (World H) StepAnswer) :
    StateM (World H) StepAnswer := do
  match (s.host (← get).host).connections.get? name with
  | some c => f c
  | none => return .unknownName name

/-- Works on the statement of a name and keeps what it becomes. -/
def onStatement (name : String) (f : Statement → StateM (World H) (StepAnswer × Statement)) :
    StateM (World H) StepAnswer := do
  match (s.host (← get).host).statements.get? name with
  | none => return .unknownName name
  | some (connection, t) =>
    let (answer, t) ← f t
    s.keepStatement name connection t
    return answer

/-- Runs one step. -/
def run : SessionStep → StateM (World H) StepAnswer
  | .openDatabase name path mode => do
    s.dropConnection name
    s.keepOpened name (← Connection.openMode s.engine path mode)
  | .openMemory name => do
    s.dropConnection name
    s.keepOpened name (← Connection.openInMemory s.engine)
  | .close name => do
    s.dropStatementsOf name
    s.onConnection name fun c => do
      let (answer, c) ← c.close s.engine
      s.keepConnection name c
      return .unit answer
  | .dropConnection name => do
    s.dropConnection name
    return .unit (.ok ())
  | .isClosed name => s.onConnection name fun c => return .closed c.isClosed
  | .path name => s.onConnection name fun c => return .path (.ok c.path)
  | .showConnection name => s.onConnection name fun c => return .shown (Session.showConnection c)
  | .showStatement name => s.onStatement name fun t => return (.shown (Session.showStatement t), t)
  | .compile connection sql name => s.onConnection connection fun c => do
    match ← c.compile s.engine sql with
    | .error e => return .compiled (.error e)
    | .ok (t, remainder) =>
      s.dropStatement name
      s.keepStatement name connection t
      return .compiled (.ok (remainder, t.isFinalized))
  | .step name => s.onStatement name fun t => do
    let (answer, t) ← t.step s.engine
    return (.stepped answer t.isFinalized, t)
  | .finalize name => s.onStatement name fun t => do
    let (answer, t) ← t.finalize s.engine
    return (.finalized answer t.isFinalized, t)
  | .dropStatement name => do
    s.dropStatement name
    return .unit (.ok ())
  | .query name sql => s.onConnection name fun c => .queried <$> c.query s.engine sql
  | .call name function args => s.onConnection name fun c =>
    .rows <$> c.query s.engine (CallText.call function args)
  | .aggregate name function grouped arity rows => s.onConnection name fun c =>
    .rows <$> c.query s.engine (CallText.aggregate function grouped arity rows)
  | .execute name sql => s.onConnection name fun c => .unit <$> c.execute s.engine sql
  | .changes name => s.onConnection name fun c => .number <$> c.changes s.engine
  | .lastInsertRowId name => s.onConnection name fun c => .number <$> c.lastInsertRowId s.engine
  | .interrupt name => s.onConnection name fun c => .unit <$> c.interrupt s.engine
  | .interruptThrough handle => do
    s.interruptThrough s.engine handle
    return .unit (.ok ())
  | .takeHandle name handle => s.onConnection name fun c => do
    match c.interruptHandle with
    | .error e => return .handle (.error e)
    | .ok h =>
      s.modifyHost fun host => { host with handles := host.handles.set handle h }
      return .handle (.ok Session.showHandle)
  | .register name function arity callbacks => s.onConnection name fun _ =>
    .unit <$> s.registerOn s.engine name function arity callbacks
  | .declare name function type => s.onConnection name fun c =>
    .unit <$> c.declare s.engine function type
  | .busyHandler name handler => do
    s.dropStatementsOf name
    s.onConnection name fun c => .unit <$> c.busyHandler s.engine (handler.map (·.callback))
  | .busyTimeout name ms => do
    s.dropStatementsOf name
    s.onConnection name fun c => .unit <$> c.busyTimeout s.engine ms
  | .writeFile path bytes => do
    Engine.writeFile path bytes
    return .unit (.ok ())

/-- Takes what has come up since the last time. -/
def collectReports : StateM (World H) (List Event × List LogRecord) := do
  let h := s.host (← get).host
  s.modifyHost fun h => { h with events := [], log := [] }
  return (h.events.reverse, h.log.reverse)

/-- Runs one step and reports it. -/
def report (step : SessionStep) : StateM (World H) StepReport := do
  let answer ← s.run step
  let (events, log) ← s.collectReports
  return ⟨answer, events, log⟩

end Seat

/-! ## The host alone -/

namespace Seat

theorem plain_native (hooks : Hooks Host) : plain.native hooks = HostSql.native hooks := rfl

theorem plain_ambient (n : Native SessionWorld) : plain.ambient n = HostSql.ambient n := rfl

theorem plain_callFunction (a : Ambient SessionWorld) :
    plain.callFunction a = HostSql.callFunction a := rfl

theorem plain_finishGroup (a : Ambient SessionWorld) :
    plain.finishGroup a = HostSql.finishGroup a := rfl

theorem plain_askPolicy (a : Ambient SessionWorld) :
    plain.askPolicy a = HostSql.askPolicy a := rfl

theorem plain_hooks (depth : Nat) : plain.hooks depth = HostSql.hooks depth := by
  induction depth with
  | zero => rfl
  | succ depth ih =>
    unfold hooks HostSql.hooks
    rw [ih]
    rfl

theorem plain_engine : plain.engine = Session.engine :=
  congrArg HostSql.native (plain_hooks maxNesting)

theorem plain_dropStatement : plain.dropStatement = Session.dropStatement := by
  funext name
  unfold dropStatement Session.dropStatement
  rw [plain_engine]
  rfl

theorem plain_dropStatementsOf : plain.dropStatementsOf = Session.dropStatementsOf := by
  funext connection
  unfold dropStatementsOf Session.dropStatementsOf
  rw [plain_dropStatement]
  rfl

theorem plain_dropConnection : plain.dropConnection = Session.dropConnection := by
  funext name
  unfold dropConnection Session.dropConnection
  rw [plain_engine, plain_dropStatementsOf]
  rfl

theorem plain_run (step : SessionStep) : plain.run step = Session.run step := by
  cases step <;> unfold run Session.run <;>
    simp only [plain_engine, plain_dropStatement, plain_dropStatementsOf, plain_dropConnection] <;> rfl

theorem plain_report (step : SessionStep) : plain.report step = Session.report step := by
  unfold report Session.report
  rw [plain_run]
  rfl

end Seat

end HostSql
