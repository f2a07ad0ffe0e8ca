import HostSql.Native

/-!
# Statements

A statement is stepped to its rows and released once: by `finalize`, by a step that fails for any
other reason than a lock, or when it is dropped. The names and types of its columns are read at
its first success and kept; later rows have one entry for each of these columns.
-/

namespace HostSql

variable {σ : Type}

/-- What a statement runs. -/
inductive Vm where
  | live (statement : Nat)
  /-- The compiled text held no command. -/
  | empty
  | finalized
  deriving Repr, DecidableEq, Inhabited

/-- A compiled statement. -/
structure Statement where
  vm : Vm
  columns : Option (List String)
  types : Option (List (Option String))
  deriving Repr, DecidableEq, Inhabited

/-- A success of a step: a row, or the end. -/
structure StepResult where
  row : Option (List (Option String))
  columns : List String
  types : List (Option String)
  deriving Repr, DecidableEq

def StepResult.isRow (r : StepResult) : Bool := r.row.isSome

def StepResult.isDone (r : StepResult) : Bool := r.row.isNone

namespace Statement

/-- A statement that has just been compiled. -/
def new (native : Option Nat) : Statement := ⟨(native.map Vm.live).getD .empty, none, none⟩

def isFinalized (s : Statement) : Bool := s.vm == .finalized

/-- The statement with the names and types of its columns, read if they are not known yet. -/
def withColumns (n : Native σ) (statement : Nat) (s : Statement) :
    StateM σ (List String × List (Option String) × Statement) := do
  let indices := List.range (← n.columnCount statement)
  let columns ← match s.columns with
    | some columns => pure columns
    | none => indices.mapM (n.columnName statement)
  let types ← match s.types with
    | some types => pure types
    | none => indices.mapM (n.columnType statement)
  return (columns, types, { s with columns := some columns, types := some types })

/-- The result of a step of a statement without a command. -/
def stepEmpty (s : Statement) : StepResult × Statement :=
  let columns := s.columns.getD []
  let types := s.types.getD []
  (⟨none, columns, types⟩, { s with columns := some columns, types := some types })

/-- The result of a native step that delivered a row or reached the end. -/
def succeed (n : Native σ) (statement : Nat) (hasRow : Bool) (s : Statement) :
    StateM σ (StepResult × Statement) := do
  let (columns, types, s) ← s.withColumns n statement
  let row ←
    if hasRow then some <$> (List.range columns.length).mapM (n.columnText statement)
    else pure none
  return (⟨row, columns, types⟩, s)

/-- The result of a native step that failed. Only a lock leaves the statement usable. -/
def fail (n : Native σ) (statement : Nat) (status : NativeStatus) (s : Statement) :
    StateM σ (Error × Statement) := do
  let code := ("code", toString status.code.toInt)
  if status.code = ResultCode.busy then
    return (.ofCode status.code ("busy in step: " ++ status.message), s)
  else if ErrorKind.isKnownFailure status.code then
    let _ ← n.finalize statement
    n.log (.of .debug "statement finalized after failed step" [code, ("error", status.message)])
    return (.ofCode status.code status.message, { s with vm := .finalized })
  else
    n.log (.of .error "unknown result from step" [code])
    return (.unknownStep status.code, s)

/-- Runs a statement to its next row or its end. -/
def step (n : Native σ) (s : Statement) : StateM σ (Except Error StepResult × Statement) := do
  match s.vm with
  | .finalized => return (.error (.closedHandle .statement), s)
  | .empty =>
    let (result, s) := s.stepEmpty
    return (.ok result, s)
  | .live statement =>
    let status ← n.step statement
    if status.code = ResultCode.row || status.code = ResultCode.done then
      let (result, s) ← s.succeed n statement (status.code = ResultCode.row)
      return (.ok result, s)
    else
      let (e, s) ← s.fail n statement status
      return (.error e, s)

/-- Releases a statement. -/
def finalize (n : Native σ) (s : Statement) : StateM σ (Except Error Unit × Statement) := do
  let released := { s with vm := .finalized }
  match s.vm with
  | .finalized => return (.error (.closedHandle .statement), released)
  | .empty => return (.ok (), released)
  | .live statement =>
    match ← n.finalize statement with
    | some failure => return (.error failure.toError, released)
    | none => return (.ok (), released)

/-- Drops a statement, releasing it if it still has to be. -/
def drop (n : Native σ) (s : Statement) : StateM σ Unit := do
  match s.vm with
  | .live statement =>
    let _ ← n.finalize statement
    return
  | .empty | .finalized => return

/-- The most rows that `collect` delivers. -/
def maxRows : Nat := 1000

/-- Steps a statement until it has ended, failed, or delivered enough rows. -/
def collect (n : Native σ) (s : Statement) (rows : List (List (Option String))) :
    (left : Nat) → StateM σ (Except Error StepResult × List (List (Option String)) × Statement)
  | 0 => return (.ok ⟨none, s.columns.getD [], s.types.getD []⟩, rows, s)
  | left + 1 => do
    let (result, s) ← s.step n
    match result with
    | .error e => return (.error e, rows, s)
    | .ok r =>
      match r.row with
      | none => return (.ok r, rows, s)
      | some row => collect n s (rows ++ [row]) left

end Statement

end HostSql
