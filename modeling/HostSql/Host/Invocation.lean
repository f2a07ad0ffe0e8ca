import HostSql.Engine.World
import HostSql.Host.Record
import HostSql.Log

/-!
# Calling host functions

The engine calls a registered function for one row, or ends one of its groups. The closure runs as
a program in an `Ambient`, which answers its requests about the world outside the call; the call
itself is a `Frame`: the result so far and, in an aggregate, the group. However the closure ends,
the engine gets a `Reply`. A closure that fails or panics is logged once, and its call fails with
a fixed message, whatever it had set before.
-/

namespace HostSql

open Engine (Datum Reply)

variable {σ : Type}

/-- What running closures need of the world outside their call. -/
structure Ambient (σ : Type) where
  record? : Nat → StateM σ (Option FunctionRecord)
  /-- Changes the groups of a function. -/
  setGroups : Nat → GroupTable → StateM σ Unit
  log : LogRecord → StateM σ Unit
  emit : Event → StateM σ Unit
  interrupt : (handle : String) → StateM σ Unit
  execute : (connection sql : String) → StateM σ (Except Error Unit)
  query : (connection sql : String) → StateM σ QueryAnswer
  declare : (connection name : String) → ResultType → StateM σ (Except Error Unit)
  register : (connection name : String) → Int32 → Callbacks → StateM σ (Except Error Unit)

/-! ## The result of a call -/

/-- The result of a call so far. Once an error has been set the call fails, and what is set after it
only changes the message. -/
structure Pending where
  failed : Bool
  value : Datum
  deriving Repr, DecidableEq

namespace Pending

/-- Before anything is set the result is NULL. -/
def start : Pending := ⟨false, .null⟩

def setValue (p : Pending) (d : Datum) : Pending := { p with value := d }

def setError (_ : Pending) (message : String) : Pending := ⟨true, .ofString message⟩

/-- The result as the engine sees it once the call is over. -/
def result (p : Pending) : Except String Datum :=
  if p.failed then .error (Utf8.textOf p.value.textBytes) else .ok p.value

end Pending

/-- What a call tells its closure: the declared result type and the classes of the arguments, both
as of its beginning. -/
structure Call where
  resultType : ResultType
  classes : List StorageClass
  deriving Repr, DecidableEq

/-- Whether the engine can take a value as a result. -/
def Value.isResult : Value → Bool
  | .integer _ | .float _ | .text _ => true
  | .blob _ | .null => false

namespace Call

/-- Sets the result of a call. The closure gets the value back as it gave it, or the reason why it
cannot be a result; then nothing changes. -/
def setResult (c : Call) (p : Pending) (v : Value) : Except Error Value × Pending :=
  if v.isResult then (.ok v, p.setValue (.ofValue (c.resultType.coerce v c.classes)))
  else (.error (.badResultType v.typeName), p)

end Call

/-- The error of a scalar function that asks for its group. -/
def notAnAggregate : Error :=
  .ofCode ResultCode.misuse "aggregate context requested by a scalar function"

/-- A call under way: its result so far, and its group if it has one. -/
structure Frame where
  pending : Pending
  group : Option Group
  deriving Repr, DecidableEq

namespace Frame

def start (group : Option Group) : Frame := ⟨.start, group⟩

/-- Asks something of the group. -/
def ofGroup {α : Type} (f : Frame) (ask : Group → α) : Except Error α :=
  match f.group with
  | some g => .ok (ask g)
  | none => .error notAnAggregate

/-- Stores a value in the state of the group. -/
def insert (f : Frame) (key : String) (v : Value) : Except Error Unit × Frame :=
  match f.group with
  | some g => (.ok (), { f with group := some { g with state := g.state.set key v } })
  | none => (.error notAnAggregate, f)

end Frame

/-- Runs a closure to its end. -/
def Program.run (a : Ambient σ) (call : Call) : Program → Frame → StateM σ (Outcome × Frame)
  | finish outcome, f => return (outcome, f)
  | setResult v next, f =>
    let (answer, pending) := call.setResult f.pending v
    (next answer).run a call { f with pending }
  | setError message next, f => next.run a call { f with pending := f.pending.setError message }
  | readState next, f => (next (f.ofGroup (·.state))).run a call f
  | insert key v next, f =>
    let (answer, f) := f.insert key v
    (next answer).run a call f
  | readCount next, f => (next (f.ofGroup (·.rows))).run a call f
  | readType next, f => (next call.resultType).run a call f
  | emit event next, f => do
    a.emit event
    next.run a call f
  | interrupt handle next, f => do
    a.interrupt handle
    next.run a call f
  | execute connection sql next, f => do
    let answer ← a.execute connection sql
    (next answer).run a call f
  | query connection sql next, f => do
    let answer ← a.query connection sql
    (next answer).run a call f
  | declare connection name type next, f => do
    let answer ← a.declare connection name type
    (next answer).run a call f
  | register connection name arity callbacks next, f => do
    let answer ← a.register connection name arity callbacks
    (next answer).run a call f

/-! ## Containment -/

/-- The message of a call whose closure failed. -/
def functionFailed : String := "error occurred while processing function"

/-- The message of a group whose closure failed at its end. -/
def finalizeFailed : String := "error occurred while processing aggregate finalize"

/-- The log record of a failure that a function contained; a panic has no error. -/
def containedFailure (r : FunctionRecord) (diagnostic : String) (error? : Option Error) :
    LogRecord :=
  match error? with
  | some e => .of .warn diagnostic [("function", r.signature), ("error", e.display)]
  | none => .of .warn (diagnostic ++ ": callback panicked") [("function", r.signature)]

/-- Runs a closure and contains its failure. -/
def protect (a : Ambient σ) (r : FunctionRecord) (call : Call) (diagnostic : String)
    (closure : Program) (group : Option Group) : StateM σ Frame := do
  let (outcome, f) ← closure.run a call (.start group)
  let contain (error? : Option Error) : StateM σ Frame := do
    a.log (containedFailure r diagnostic error?)
    return { f with pending := f.pending.setError diagnostic }
  match outcome with
  | .ok => return f
  | .failed e => contain (some e)
  | .panicked => contain none

/-! ## The engine's calls -/

/-- The groups of a function as they are now. -/
def groupsOf (a : Ambient σ) (record : Nat) : StateM σ GroupTable := do
  return ((← a.record? record).map (·.groups)).getD .empty

/-- The id of a group, which begins with its first row. -/
def groupId (a : Ambient σ) (record : Nat) : (slot : Option Nat) → StateM σ Nat
  | some id => return id
  | none => do
    let (id, groups) := (← groupsOf a record).allocate
    a.setGroups record groups
    return id

/-- Takes a group out of its function's table. -/
def takeGroup (a : Ambient σ) (record id : Nat) : StateM σ Group := do
  let (group, groups) := (← groupsOf a record).take id
  a.setGroups record groups
  return group

/-- Puts a group back into its function's table. -/
def putBackGroup (a : Ambient σ) (record id : Nat) (group : Group) : StateM σ Unit := do
  a.setGroups record ((← groupsOf a record).putBack id group)

/-- The reply to a call of something that is not there. -/
def noReply (slot : Option Nat) : Reply := ⟨slot, .error functionFailed⟩

/-- Calls a function on the arguments of one row. -/
def callFunction (a : Ambient σ) (record : Nat) (slot : Option Nat) (args : List Datum) :
    StateM σ Reply := do
  match ← a.record? record with
  | none => return noReply slot
  | some r =>
    let texts := args.map Datum.readText?
    let call : Call := ⟨r.resultType, args.map Datum.storageClass⟩
    match r.callbacks with
    | .scalar body =>
      let f ← protect a r call functionFailed (body texts) none
      return ⟨none, f.pending.result⟩
    | .aggregate step _ =>
      let id ← groupId a record slot
      let group ← takeGroup a record id
      let f ← protect a r call functionFailed (step texts) (some group.nextRow)
      putBackGroup a record id (f.group.getD group.nextRow)
      return ⟨some id, f.pending.result⟩

/-- The slot of a group that has had no rows. -/
def unusedSlot : Nat := 0

/-- Ends a group of an aggregate, which leaves the table for good. -/
def finishGroup (a : Ambient σ) (record : Nat) (slot : Option Nat) : StateM σ Reply := do
  match ← a.record? record with
  | none => return noReply slot
  | some r =>
    match r.callbacks with
    | .scalar _ => return ⟨slot, .ok .null⟩
    | .aggregate _ final =>
      let group ← takeGroup a record (slot.getD unusedSlot)
      let f ← protect a r ⟨r.resultType, []⟩ finalizeFailed final (some group)
      return ⟨slot, f.pending.result⟩

/-- Ends a group of an aggregate for which nothing is left to be done. Its closure runs all the
same. -/
def discardGroup (a : Ambient σ) (record slot : Nat) : StateM σ Unit := do
  let _ ← finishGroup a record (some slot)

end HostSql
