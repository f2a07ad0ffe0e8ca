import HostSql.Session.Host
import HostSql.Session.Sql

/-!
# Sessions

A session is a list of steps on connections, statements and interrupt handles that go by names. Each
step has an answer, and takes along the events and log records that came up while it ran.
-/

namespace HostSql

/-- What a busy closure does: it is asked, may panic or run commands at a certain attempt, and
says yes below a certain attempt. -/
structure BusyScript where
  retryBelow : Option UInt32
  panicAt : Option UInt32
  executeAt : Option (UInt32 × String × String)
  deriving Repr, DecidableEq

namespace BusyScript

/-- The answer of the closure. -/
def answer (b : BusyScript) (attempt : UInt32) : BusyProgram :=
  .answer (match b.retryBelow with
    | some bound => attempt < bound
    | none => true)

/-- What the closure does after it has been asked. -/
def proceed (b : BusyScript) (attempt : UInt32) : BusyProgram :=
  if b.panicAt = some attempt then .panic
  else
    match b.executeAt with
    | some (due, connection, sql) =>
      if due = attempt then
        .execute connection sql fun result => .emit (.executed result) (b.answer attempt)
      else b.answer attempt
    | none => b.answer attempt

/-- The closure. -/
def callback (b : BusyScript) (resource : String) (attempt : UInt32) : BusyProgram :=
  .emit (.asked resource attempt) (b.proceed attempt)

end BusyScript

/-- A step of a session. -/
inductive SessionStep where
  | openDatabase (connection path : String) (mode : Int32)
  | openMemory (connection : String)
  | close (connection : String)
  | dropConnection (connection : String)
  | isClosed (connection : String)
  | path (connection : String)
  | showConnection (connection : String)
  | showStatement (statement : String)
  | compile (connection sql statement : String)
  | step (statement : String)
  | finalize (statement : String)
  | dropStatement (statement : String)
  | query (connection sql : String)
  | call (connection name : String) (args : List Value)
  | aggregate (connection name : String) (grouped : Bool) (arity : Nat)
      (rows : List CallText.InputRow)
  | execute (connection sql : String)
  | changes (connection : String)
  | lastInsertRowId (connection : String)
  | interrupt (connection : String)
  | interruptThrough (handle : String)
  | takeHandle (connection handle : String)
  | register (connection name : String) (arity : Int32) (callbacks : Callbacks)
  | declare (connection name : String) (type : ResultType)
  | busyHandler (connection : String) (handler : Option BusyScript)
  | busyTimeout (connection : String) (ms : UInt32)
  | writeFile (path : String) (bytes : List UInt8)

/-- The answer to a step. -/
inductive StepAnswer where
  | unit (answer : Except Error Unit)
  | path (answer : Except Error String)
  | closed (isClosed : Bool)
  | shown (text : String)
  | compiled (answer : Except Error (String × Bool))
  | stepped (answer : Except Error StepResult) (isFinalized : Bool)
  | finalized (answer : Except Error Unit) (isFinalized : Bool)
  | queried (answer : QueryAnswer)
  /-- A query of which only the rows are told. -/
  | rows (answer : QueryAnswer)
  | number (answer : Except Error Int64)
  /-- A handle, as it is shown. -/
  | handle (answer : Except Error String)
  /-- The step names something that is not there. -/
  | unknownName (name : String)

/-- The answer to a step with what came up while it ran, in order. -/
structure StepReport where
  answer : StepAnswer
  events : List Event
  log : List LogRecord

namespace Session

open Engine SessionWorld

/-! ## How things are shown -/

def showBool (b : Bool) : String := if b then "true" else "false"

/-- A structure of which some fields are shown. -/
def showFields (name : String) (fields : List (String × String)) : String :=
  name ++ " \x7b " ++ String.join (fields.map fun (field, text) => field ++ ": " ++ text ++ ", ")
    ++ ".. \x7d"

def showTexts (texts : List String) : String :=
  "[" ++ ", ".intercalate (texts.map Text.quote) ++ "]"

def showConnection (c : Connection) : String :=
  showFields "Connection" [("path", Text.quote c.path), ("closed", showBool c.isClosed)]

def showStatement (s : Statement) : String :=
  showFields "Statement"
    [("finalized", showBool s.isFinalized),
      ("columns", match s.columns with
        | none => "None"
        | some columns => "Some(" ++ showTexts columns ++ ")")]

def showHandle : String := showFields "InterruptHandle" []

/-! ## Names -/

/-- The engine. -/
def engine : Native SessionWorld := sessionNative

/-- Gives a connection's name a new connection value. -/
def keepConnection (name : String) (c : Connection) : StateM SessionWorld Unit :=
  modifyHost fun h => { h with connections := h.connections.set name c }

/-- Gives a statement's name a new statement value. -/
def keepStatement (name connection : String) (s : Statement) : StateM SessionWorld Unit :=
  modifyHost fun h => { h with statements := h.statements.set name (connection, s) }

/-- Drops the statement of a name, if there is one. -/
def dropStatement (name : String) : StateM SessionWorld Unit := do
  match (← get).host.statements.get? name with
  | none => return
  | some (_, s) =>
    modifyHost fun h => { h with statements := Assoc.erase h.statements name }
    s.drop engine

/-- Drops all statements of a connection. -/
def dropStatementsOf (connection : String) : StateM SessionWorld Unit := do
  let names := ((← get).host.statements.filter fun s => s.2.1 == connection).map (·.1)
  names.forM dropStatement

/-- Drops a connection with its statements. -/
def dropConnection (name : String) : StateM SessionWorld Unit := do
  dropStatementsOf name
  match (← get).host.connections.get? name with
  | none => return
  | some c =>
    modifyHost fun h => { h with connections := Assoc.erase h.connections name }
    c.drop engine

/-- Keeps a connection that has been opened. -/
def keepOpened (name : String) (opened : Except Error Connection) :
    StateM SessionWorld StepAnswer := do
  match opened with
  | .error e => return .path (.error e)
  | .ok c =>
    keepConnection name c
    return .path (.ok c.path)

/-- Works on the connection of a name. -/
def onConnection (name : String) (f : Connection → StateM SessionWorld StepAnswer) :
    StateM SessionWorld StepAnswer := do
  match (← get).host.connections.get? name with
  | some c => f c
  | none => return .unknownName name

/-- Works on the statement of a name and keeps what it becomes. -/
def onStatement (name : String) (f : Statement → StateM SessionWorld (StepAnswer × Statement)) :
    StateM SessionWorld StepAnswer := do
  match (← get).host.statements.get? name with
  | none => return .unknownName name
  | some (connection, s) =>
    let (answer, s) ← f s
    keepStatement name connection s
    return answer

/-! ## Steps -/

/-- Runs one step. Closing a connection and changing its policy need it alone, so its statements are
dropped before. -/
def run : SessionStep → StateM SessionWorld StepAnswer
  | .openDatabase name path mode => do
    dropConnection name
    keepOpened name (← Connection.openMode engine path mode)
  | .openMemory name => do
    dropConnection name
    keepOpened name (← Connection.openInMemory engine)
  | .close name => do
    dropStatementsOf name
    onConnection name fun c => do
      let (answer, c) ← c.close engine
      keepConnection name c
      return .unit answer
  | .dropConnection name => do
    dropConnection name
    return .unit (.ok ())
  | .isClosed name => onConnection name fun c => return .closed c.isClosed
  | .path name => onConnection name fun c => return .path (.ok c.path)
  | .showConnection name => onConnection name fun c => return .shown (showConnection c)
  | .showStatement name => onStatement name fun s => return (.shown (showStatement s), s)
  | .compile connection sql name => onConnection connection fun c => do
    match ← c.compile engine sql with
    | .error e => return .compiled (.error e)
    | .ok (s, remainder) =>
      dropStatement name
      keepStatement name connection s
      return .compiled (.ok (remainder, s.isFinalized))
  | .step name => onStatement name fun s => do
    let (answer, s) ← s.step engine
    return (.stepped answer s.isFinalized, s)
  | .finalize name => onStatement name fun s => do
    let (answer, s) ← s.finalize engine
    return (.finalized answer s.isFinalized, s)
  | .dropStatement name => do
    dropStatement name
    return .unit (.ok ())
  | .query name sql => onConnection name fun c => .queried <$> c.query engine sql
  | .call name function args => onConnection name fun c =>
    .rows <$> c.query engine (CallText.call function args)
  | .aggregate name function grouped arity rows => onConnection name fun c =>
    .rows <$> c.query engine (CallText.aggregate function grouped arity rows)
  | .execute name sql => onConnection name fun c => .unit <$> c.execute engine sql
  | .changes name => onConnection name fun c => .number <$> c.changes engine
  | .lastInsertRowId name => onConnection name fun c => .number <$> c.lastInsertRowId engine
  | .interrupt name => onConnection name fun c => .unit <$> c.interrupt engine
  | .interruptThrough handle => do
    interruptThrough engine handle
    return .unit (.ok ())
  | .takeHandle name handle => onConnection name fun c => do
    match c.interruptHandle with
    | .error e => return .handle (.error e)
    | .ok h =>
      modifyHost fun host => { host with handles := host.handles.set handle h }
      return .handle (.ok showHandle)
  | .register name function arity callbacks => onConnection name fun _ =>
    .unit <$> registerOn engine name function arity callbacks
  | .declare name function type => onConnection name fun c =>
    .unit <$> c.declare engine function type
  | .busyHandler name handler => do
    dropStatementsOf name
    onConnection name fun c => .unit <$> c.busyHandler engine (handler.map (·.callback))
  | .busyTimeout name ms => do
    dropStatementsOf name
    onConnection name fun c => .unit <$> c.busyTimeout engine ms
  | .writeFile path bytes => do
    Engine.writeFile path bytes
    return .unit (.ok ())

/-- Takes what has come up since the last time. -/
def collectReports : StateM SessionWorld (List Event × List LogRecord) := do
  let h := (← get).host
  modifyHost fun h => { h with events := [], log := [] }
  return (h.events.reverse, h.log.reverse)

/-- Runs one step and reports it. -/
def report (step : SessionStep) : StateM SessionWorld StepReport := do
  let answer ← run step
  let (events, log) ← collectReports
  return ⟨answer, events, log⟩

/-- Runs the steps of a session in a world where nothing has happened. -/
def runAll (steps : List SessionStep) : List StepReport :=
  ((steps.mapM report).run .empty).1

end Session

end HostSql
