import HostSql.Engine.Eval

/-!
# Feeding aggregates

A `Feeding` is one aggregate call on one group. Rows are fed one by one and in the end it is
concluded. When anything fails on the way, the host groups that have begun are abandoned: the host
still ends each of them, once, and the results are thrown away. So `feedAll` returns what the calls
have become even when it fails, because a host group may have begun in the failing row.
-/

namespace HostSql.Engine

/-- The state of an aggregate call. -/
inductive Total where
  | builtin (a : Accumulator)
  /-- A host function, and what its earlier rows left behind. -/
  | host (record : Nat) (slot : Option Nat)
  deriving Repr, DecidableEq

/-- An aggregate call on one group. -/
structure Feeding where
  call : AggregateCall
  total : Total
  /-- The arguments so far, if each is to be used once. -/
  seen : List (List Datum)

namespace Feeding

/-- A call before the first row of a group. -/
def begin (call : AggregateCall) : Feeding :=
  ⟨call,
    match call.target with
    | .builtin f => .builtin (.ofAggregate f)
    | .host record => .host record none, []⟩

variable {H : Type}

/-- Gives a call the arguments of one row. -/
def take (scope : Scope H) (f : Feeding) (ds : List Datum) :
    StateM (World H) (Feeding × Option Fault) := do
  match f.total with
  | .builtin a => return ({ f with total := .builtin (a.step ds) }, none)
  | .host record slot =>
    let reply ← scope.hooks.call record slot ds
    let f := { f with total := .host record reply.slot }
    match reply.result with
    | .ok _ => return (f, none)
    | .error message => return (f, some (.general message))

/-- Feeds one row. -/
def feed (scope : Scope H) (row : Row) (f : Feeding) :
    StateM (World H) (Feeding × Option Fault) := do
  match ← (Term.evalAll scope row f.call.args).run with
  | .error fault => return (f, some fault)
  | .ok ds =>
    if !f.call.distinct then f.take scope ds
    else if f.seen.contains ds then return (f, none)
    else take scope { f with seen := ds :: f.seen } ds

/-- Feeds one row to all calls, in order, up to the first that fails. -/
def feedAll (scope : Scope H) (row : Row) :
    List Feeding → StateM (World H) (List Feeding × Option Fault)
  | [] => return ([], none)
  | f :: rest => do
    let (f, fault) ← f.feed scope row
    if fault.isSome then return (f :: rest, fault)
    let (rest, fault) ← feedAll scope row rest
    return (f :: rest, fault)

/-- Ends the host groups that have begun, whatever they answer. -/
def abandon (scope : Scope H) : List Feeding → StateM (World H) Unit
  | [] => return
  | f :: rest => do
    match f.total with
    | .host record (some slot) => scope.hooks.discard record slot
    | _ => pure ()
    abandon scope rest

/-- The result of a call. -/
def conclude (scope : Scope H) (f : Feeding) : Run H Datum := do
  let result ← match f.total with
    | .builtin a => pure a.finish
    | .host record slot => do pure (← scope.hooks.finish record slot).result
  match result with
  | .ok d => return d
  | .error message => throw (.general message)

/-- The results of all calls, in order; when one fails the others are abandoned. -/
def concludeAll (scope : Scope H) : List Feeding → Run H Row
  | [] => return []
  | f :: rest => do
    match ← attempt (f.conclude scope) with
    | .error fault =>
      abandon scope rest
      throw fault
    | .ok d => return d :: (← concludeAll scope rest)

end Feeding

variable {H : Type}

/-- Fails if an interruption of the connection has been asked for. -/
def checkInterrupt (scope : Scope H) : Run H Unit := do
  if (← connectionOf scope.connection).interrupted then throw .interrupted

/-- Feeds the rows of one group and concludes it. An interruption is noticed after each row. -/
def runGroup (scope : Scope H) : List Feeding → List Row → Run H Row
  | feedings, [] => Feeding.concludeAll scope feedings
  | feedings, row :: rest => do
    let (feedings, fault) ← Feeding.feedAll scope row feedings
    let fault := fault <|> (match ← attempt (checkInterrupt scope) with
      | .error fault => some fault
      | .ok _ => none)
    match fault with
    | some fault =>
      Feeding.abandon scope feedings
      throw fault
    | none => runGroup scope feedings rest

end HostSql.Engine
