import HostSql.Proofs.Callback.Containment

/-!
# What becomes of the functions of a connection

A `FunctionEvent` is a registration, a declaration of a type, or the beginning or the end of a
callback. What a callback must find is said by `current`, from the events before it alone: the
closures of the latest successful registration under the function's name and arity, names being
compared by their folded form, and the type of the latest successful declaration for that name since
then. The same events say which declarations succeed, and which registrations: those that are
possible at all and, while the connection is executing anything, take the place of no function.

A `Course` is any finite course of such events on one connection, in any order and nested, for while
a closure runs each of its requests may cause a course of its own. In between anything may happen
that leaves the connection's functions alone. Registrations and declarations are those of the
library. Callbacks come from executions: one begins on the connection, may ask at any time for any
function that the connection had when it began, and keeps the connection active until it is over.
When a callback has ended, its reply is noted too. Courses may depend on all that has happened
before.
-/

namespace HostSql

open Engine (Datum HostFunction HostRequest Hooks Reply)
open Beside

/-! ## Events -/

/-- What the engine asks of a function: a row, or the end of a group. -/
inductive Invocation where
  | row (slot : Option Nat) (args : List Datum)
  | finish (slot : Option Nat)

/-- The request for a function. -/
def Invocation.request (f : HostFunction) : Invocation → HostRequest
  | row slot args => .call f.record slot args
  | finish slot => .finish f.record slot

/-- The closure among those of a function that answers. -/
def Callbacks.closure? : Callbacks → Invocation → Option Program
  | scalar body, .row _ args => some (body (args.map Datum.readText?))
  | scalar _, .finish _ => none
  | aggregate step _, .row _ args => some (step (args.map Datum.readText?))
  | aggregate _ final, .finish _ => some final

/-- Something that happens to the functions of a connection. -/
inductive FunctionEvent where
  /-- A registration, and whether the connection was executing anything. -/
  | registered (name : String) (arity : Int32) (callbacks : Callbacks) (inUse : Bool)
      (answer : Except Error Unit)
  | declared (name : String) (type : ResultType) (answer : Except Error Unit)
  /-- The beginning of a callback, and the closure that is about to run. -/
  | invoked (f : HostFunction) (invocation : Invocation) (callee? : Option Callee)
  /-- The end of a callback, the closure that has run, and what the engine gets. -/
  | replied (callee? : Option Callee) (reply : Reply)

/-- The closures registered under a folded name and an arity and the type declared for them, by the
events so far, the latest first. -/
def current (name : String) (arity : Int32) : List FunctionEvent → Option (Callbacks × ResultType)
  | [] => none
  | .registered function n callbacks _ (.ok _) :: past =>
    if FunctionRegistry.key function = name ∧ n = arity then some (callbacks, .args)
    else current name arity past
  | .declared function type (.ok _) :: past =>
    (current name arity past).map fun (callbacks, old) =>
      (callbacks, if FunctionRegistry.key function = name then type else old)
  | _ :: past => current name arity past

/-- Whether a function can be registered under a name and an arity at all. -/
def registrable (name : String) (arity : Int32) : Prop :=
  nulError? name = none ∧ -1 ≤ arity.toInt ∧ arity.toInt ≤ Engine.maxArity ∧
    (Utf8.encode name).length ≤ Engine.maxFunctionName

/-- Whether a registration takes the place of a function: one that was registered, or a built-in
one that no function for any number of arguments hides. -/
def takesPlace (name : String) (arity : Int32) (past : List FunctionEvent) : Prop :=
  (current (FunctionRegistry.key name) arity past).isSome = true ∨
    (current (FunctionRegistry.key name) (-1) past).isSome = false ∧
      Engine.isBuiltin ⟨name, arity.toInt, false, 0⟩ = true

/-- What must be true of an event after the ones before it. -/
def FunctionEvent.Right (past : List FunctionEvent) : FunctionEvent → Prop
  | registered name arity _ inUse answer => answer = .ok () ↔
      registrable name arity ∧ (inUse = true → ¬takesPlace name arity past)
  | declared name _ answer => answer = .ok () ↔
      ∃ arity, (current (FunctionRegistry.key name) arity past).isSome = true
  | invoked f invocation callee? => ∃ arity callbacks type, f.arity = arity.toInt ∧
      current (FunctionRegistry.key f.name) arity past = some (callbacks, type) ∧
      callee?.map (fun c => (c.body, c.call.resultType)) =
        (callbacks.closure? invocation).map (·, type)
  | replied callee? reply => ∀ c ∈ callee?, ∃ (σ : Type) (a : Ambient σ) (w : σ), c.Lawful a w reply

/-- Every event of a past is right after the ones before it. -/
inductive AllRight : List FunctionEvent → Prop
  | start : AllRight []
  | next {event : FunctionEvent} {past : List FunctionEvent} :
    event.Right past → AllRight past → AllRight (event :: past)

/-! ## Courses -/

/-- A connection that is watched: its number in the engine, its name among the host's connections,
and the engine's hooks. -/
structure Watched where
  number : Nat
  name : String
  hooks : Hooks Host

/-- What is kept of the past of a watched connection: the events, the latest first, and the
executions that are under way, with the functions that the connection had when they began. -/
structure Watch where
  past : List FunctionEvent
  underWay : List (Nat × List HostFunction)

/-- Before anything has happened. -/
def Watch.start : Watch := ⟨[], []⟩

/-- What matters of a record when its function is called. -/
def FunctionRecord.kept (r : FunctionRecord) : Callbacks × ResultType := (r.callbacks, r.resultType)

namespace Watched

variable (o : Watched)

/-- The records of the connection's functions. -/
def registry (w : SessionWorld) : FunctionRegistry :=
  ((w.host.connections.get? o.name).map (·.functions)).getD []

/-- The engine's table of the connection's functions, as long as the engine has the connection. -/
def table? (w : SessionWorld) : Option (List HostFunction) :=
  (w.connections.get? o.number).map (·.functions)

/-- The functions of the connection. -/
def table (w : SessionWorld) : List HostFunction := (o.table? w).getD []

/-- Whether a statement is being executed on the connection. -/
def executes (w : SessionWorld) (statement : Nat) : Prop :=
  ∃ s, w.statements.get? statement = some s ∧ s.connection = o.number ∧
    (s.phase = .running ∨ s.phase = .blocked)

/-- A change of the world that leaves the connection's functions and executions alone. -/
structure Leaves (w w' : SessionWorld) : Prop where
  connection : w'.host.connections.get? o.name = w.host.connections.get? o.name
  table? : o.table? w' = o.table? w
  records : ∀ entry ∈ o.registry w, (w'.host.records.get? entry.2).map (·.kept) =
    (w.host.records.get? entry.2).map (·.kept)
  nextId : w.nextId ≤ w'.nextId
  executes : ∀ statement, o.executes w statement → o.executes w' statement

/-- Anything that does not concern the connection's functions and executions. -/
structure Work where
  change : SessionWorld → SessionWorld
  leaves : ∀ w, o.Leaves w (change w)

end Watched

/-- What a running closure asks of the world. -/
inductive ClosureRequest where
  | execute (connection sql : String)
  | query (connection sql : String)
  | declare (connection name : String) (type : ResultType)
  | register (connection name : String) (arity : Int32) (callbacks : Callbacks)

/-- The answers that closures get from other connections and from commands. -/
structure ClosureAnswers where
  execute : (connection sql : String) → SessionWorld → Except Error Unit
  query : (connection sql : String) → SessionWorld → QueryAnswer
  declare : (connection name : String) → ResultType → SessionWorld → Except Error Unit
  register : (connection name : String) → Int32 → Callbacks → SessionWorld → Except Error Unit

/-- A course of events on a watched connection. -/
inductive Course (o : Watched) where
  | rest
  | work (job : o.Work) (next : SessionWorld → Course o)
  | register (name : String) (arity : Int32) (callbacks : Callbacks)
      (next : Except Error Unit → SessionWorld → Course o)
  | declare (name : String) (type : ResultType)
      (next : Except Error Unit → SessionWorld → Course o)
  /-- A statement begins to be executed. -/
  | enter (statement : Nat) (s : Engine.Statement) (next : SessionWorld → Course o)
  /-- The execution of a statement is over. -/
  | leave (statement : Nat) (next : SessionWorld → Course o)
  /-- An execution asks for a function. -/
  | invoke (f : HostFunction) (invocation : Invocation)
      (during : ClosureRequest → SessionWorld → Course o) (answers : ClosureAnswers)
      (next : Reply → SessionWorld → Course o)

/-- A world in which a connection is watched. -/
abbrev WatchedWorld := Beside SessionWorld Watch

/-- Notes an event. -/
def noteEvent (event : FunctionEvent) : StateM WatchedWorld Unit :=
  modifyOwn fun g => { g with past := event :: g.past }

namespace Watched

variable (o : Watched)

/-- What closures use of the library. -/
def library : Ambient SessionWorld := HostSql.ambient (native o.hooks)

/-- A registration. -/
def register (name : String) (arity : Int32) (callbacks : Callbacks) :
    StateM WatchedWorld (Except Error Unit) := do
  let inUse := (← get).env.isActive o.number
  let answer ← outside (o.library.register o.name name arity callbacks)
  noteEvent (.registered name arity callbacks inUse answer)
  return answer

/-- A declaration of a type. -/
def declare (name : String) (type : ResultType) : StateM WatchedWorld (Except Error Unit) := do
  let answer ← outside (o.library.declare o.name name type)
  noteEvent (.declared name type answer)
  return answer

/-- The world when a statement begins to be executed. -/
def entered (statement : Nat) (s : Engine.Statement) (w : SessionWorld) : SessionWorld :=
  { w with statements :=
      w.statements.set statement { s with connection := o.number, phase := .running } }

/-- What a running closure uses, with the course that each of its requests causes. What it asks of
the watched connection itself is done by the library. -/
def ambient (during : ClosureRequest → SessionWorld → StateM WatchedWorld Unit)
    (answers : ClosureAnswers) : Ambient WatchedWorld where
  record? record := outside (o.library.record? record)
  setGroups record groups := outside (o.library.setGroups record groups)
  log r := outside (o.library.log r)
  emit event := outside (o.library.emit event)
  interrupt handle := outside (o.library.interrupt handle)
  execute c sql := do
    during (.execute c sql) (← get).env
    return answers.execute c sql (← get).env
  query c sql := do
    during (.query c sql) (← get).env
    return answers.query c sql (← get).env
  declare c name type :=
    if c = o.name then o.declare name type
    else do
      during (.declare c name type) (← get).env
      return answers.declare c name type (← get).env
  register c name arity callbacks :=
    if c = o.name then o.register name arity callbacks
    else do
      during (.register c name arity callbacks) (← get).env
      return answers.register c name arity callbacks (← get).env

end Watched

/-- The world when the execution of a statement is over. -/
def SessionWorld.left (w : SessionWorld) (statement : Nat) : SessionWorld :=
  { w with statements :=
      Assoc.update w.statements statement fun s => { s with phase := .halted } }

/-- A callback, as the library performs it. -/
def Ambient.answer {σ : Type} (a : Ambient σ) (f : HostFunction) : Invocation → StateM σ Reply
  | .row slot args => callFunction a f.record slot args
  | .finish slot => finishGroup a f.record slot

/-- A callback, with notes of its beginning and its end. -/
def Ambient.invoke (a : Ambient WatchedWorld) (f : HostFunction) (invocation : Invocation) :
    StateM WatchedWorld Reply := do
  let callee? := ((a.callee? (invocation.request f)).run (← get)).1
  noteEvent (.invoked f invocation callee?)
  let reply ← a.answer f invocation
  noteEvent (.replied callee? reply)
  return reply

/-- Whether an execution under way may ask for a function. -/
def Watch.mayInvoke (g : Watch) (f : HostFunction) : Bool :=
  g.underWay.any fun execution => execution.2.contains f

/-- Runs a course. What no execution may ask for is not there. -/
def Course.run {o : Watched} : Course o → StateM WatchedWorld Unit
  | .rest => return
  | .work job next => do
    outside (modify job.change)
    (next (← get).env).run
  | .register name arity callbacks next => do
    let answer ← o.register name arity callbacks
    (next answer (← get).env).run
  | .declare name type next => do
    let answer ← o.declare name type
    (next answer (← get).env).run
  | .enter statement s next => do
    let known := o.table (← get).env
    outside (modify (o.entered statement s))
    modifyOwn fun g => { g with underWay := (statement, known) :: g.underWay }
    (next (← get).env).run
  | .leave statement next => do
    outside (modify (·.left statement))
    modifyOwn fun g => { g with underWay := g.underWay.filter (·.1 != statement) }
    (next (← get).env).run
  | .invoke f invocation during answers next => do
    let reply ←
      if (← get).own.mayInvoke f then
        (o.ambient (fun request w => (during request w).run) answers).invoke f invocation
      else pure (noReply none)
    (next reply (← get).env).run

end HostSql
